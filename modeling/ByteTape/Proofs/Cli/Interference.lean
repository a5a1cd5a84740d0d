import ByteTape.Proofs.Cli.Outcome

/-!
# Diagnostics

A session can tell of its run in many ways: it can be verbose, stop after every instruction, log
more or less, and find a terminal, none, or one that gives up in the middle of a line. None of this
reaches the program. What is loaded depends on the file, the arguments and the input alone
(`load_eq`); a run halts in one mode as it does in the other, with the same output
(`leaves_iff_of_halted`); and the console only follows a run that has been made. So the exit code
and the bytes on standard output are those of the program, with a newline after them if the session
is verbose.
-/

namespace ByteTape

namespace Cli

namespace Session

/-- What is loaded does not depend on what the session says of it. -/
theorem load_eq (options : Options) (environment : Environment)
    (verbose singleStep disassemble : Bool) (terminal : Option (List UInt8))
    (logSetting : Option String) :
    load { options with verbose, singleStep, disassemble }
      { environment with terminal, logSetting } = load options environment :=
  rfl

/-- A session whose program halts, in the mode of the session or in the other, leaves one thing
behind, with the output of that run. -/
theorem leaves_iff_of_halted {arguments : List String} {options : Options}
    {environment : Environment} (hrequest : request arguments = .inr options) {program : Program}
    {input : Source} (hload : load options environment = (.ok program, input))
    (hlist : options.disassemble = false) {mode : Bool} {fuel : Nat} {result : Run}
    (hrun : (Machine.start program options.bound mode).run fuel input {} = some result)
    {halted : Halted} (hhalted : result.result = .ok halted) :
    ∃ diagnostics, ∀ outcome, Leaves arguments environment outcome ↔
      outcome = ⟨0, result.sink.taken.toList ++ if options.verbose then [0x0a] else [],
        diagnostics⟩ := by
  obtain ⟨fuel', result', hrun', hresult, htaken, -⟩ :=
    Machine.exists_run_of_mode Sink.unfailing_default.toAmple hrun options.verbose
  have hleaves := (leaves_iff hrequest hload hlist).mpr ⟨fuel', result', hrun', rfl⟩
  rw [conclude_of_ok _ _ (hresult.trans hhalted), htaken] at hleaves
  refine ⟨_, fun outcome => ⟨fun h => h.unique hleaves, ?_⟩⟩
  rintro rfl
  exact hleaves

/-- A session cannot be told apart by its exit code or its output from one that says more or less of
its run, listing and the closing newline apart. If the program cannot be loaded, then the session
fails with the error, and says that and nothing else. If it can, and halts in whichever mode it is
run, then the session ends, and succeeds with the output of that run. -/
theorem diagnostics_do_not_interfere (options : Options) (environment : Environment)
    (terminal : Option (List UInt8)) (logSetting : Option String) {arguments : List String}
    {verbose singleStep disassemble : Bool}
    (hrequest : request arguments = .inr { options with verbose, singleStep, disassemble }) :
    (∀ error, (load options environment).1 = .error error → ∀ fuel,
      run fuel arguments { environment with terminal, logSetting } =
        some ⟨1, [], error.message ++ "\n"⟩) ∧
    ∀ program input, load options environment = (.ok program, input) → disassemble = false →
      ∀ mode fuel result halted,
        (Machine.start program options.bound mode).run fuel input {} = some result →
        result.result = .ok halted →
        ∃ diagnostics, ∀ outcome,
          Leaves arguments { environment with terminal, logSetting } outcome ↔
            outcome = ⟨0, result.sink.taken.toList ++ if verbose then [0x0a] else [],
              diagnostics⟩ := by
  have hload := load_eq options environment verbose singleStep disassemble terminal logSetting
  constructor
  · intro error herror fuel
    rw [← hload] at herror
    exact run_of_rejected hrequest herror fuel
  · intro program input haccepted hlist mode fuel result halted hrun hhalted
    rw [← hload] at haccepted
    exact leaves_iff_of_halted hrequest haccepted hlist hrun hhalted

/-- `,[.-]` counts its input down in a verbose session that is single-stepped on a terminal whose
first line is not UTF-8. Where there is no such file, the same session says no more than any. -/
theorem diagnostics_do_not_interfere_on_broken_terminal :
    ∃ environment : Environment, environment.terminal = some [0xff, 0x0a] ∧
      environment.logSetting = some "debug" ∧ environment.input = [2] ∧
      environment.files "p".toUTF8.toList = .ok (Text.ascii ",[.-]") ∧
      (∃ diagnostics, ∀ outcome, Leaves ["-vd", "--file", "p"] environment outcome ↔
        outcome = ⟨0, [2, 1, 0x0a], diagnostics⟩) ∧
      ∀ fuel, run fuel ["-vd", "--file", "q"] environment =
        some ⟨1, [],
          "failed to read program from q: No such file or directory (os error 2)\n"⟩ := by
  let program : Program := ⟨(Text.ascii ",[.-]").toArray, by decide +kernel⟩
  let environment : Environment := {
    files := fun path =>
      if path = "p".toUTF8.toList then .ok program.text
      else .error "No such file or directory (os error 2)"
    input := [2]
    terminal := some [0xff, 0x0a]
    logSetting := some "debug" }
  have hfile : environment.files "p".toUTF8.toList = .ok program.text := if_pos rfl
  have hmissing : environment.files "q".toUTF8.toList =
      .error "No such file or directory (os error 2)" := if_neg (by decide +kernel)
  have hrun : ((Machine.start program Tape.defaultBound false).run 10 [.data [2]] {}).map
      (·.sink.taken.toList) = some [2, 1] := by
    decide +kernel +zetaReduce
  obtain ⟨result, hrun, htaken⟩ := Option.map_eq_some_iff.mp hrun
  obtain ⟨halted, hhalted⟩ :=
    Machine.exists_halted_of_run hrun (Source.items_data _) Sink.unfailing_default
  obtain ⟨-, haccepted⟩ := diagnostics_do_not_interfere { file := some "p" } environment
    (some [0xff, 0x0a]) (some "debug")
    (show request ["-vd", "--file", "p"] =
      .inr { file := some "p", verbose := true, singleStep := true } by decide +kernel)
  obtain ⟨hrejected, -⟩ := diagnostics_do_not_interfere { file := some "q" } environment
    (some [0xff, 0x0a]) (some "debug")
    (show request ["-vd", "--file", "q"] =
      .inr { file := some "q", verbose := true, singleStep := true } by decide +kernel)
  refine ⟨environment, rfl, rfl, rfl, hfile, ?_, fun fuel => ?_⟩
  · have hleaves := haccepted program [.data [2]] (load_of_file rfl hfile) rfl false 10 result
      halted hrun hhalted
    rw [htaken] at hleaves
    exact hleaves
  · have hmessage :
        (Error.load "q".toUTF8.toList "No such file or directory (os error 2)").message ++ "\n" =
          "failed to read program from q: No such file or directory (os error 2)\n" := by
      decide +kernel
    have hload : (load { file := some "q" } environment).1 =
        .error (.load "q".toUTF8.toList "No such file or directory (os error 2)") := by
      simp only [load, hmissing, Program.ofFile]
    rw [← hmessage]
    exact hrejected _ hload fuel

end Session

end Cli

end ByteTape
