import ByteTape.Proofs.Cli.Options
import ByteTape.Proofs.Cli.Outcome
import ByteTape.Proofs.Listing
import ByteTape.Proofs.Machine.Comment
import ByteTape.Proofs.Text.Decimal

/-!
# Disassembly

What a session prints when it lists a program is itself the text of a program, and of the same one:
the line with the count is a comment whatever the count, and the listing has the instructions of the
program in order (`ofBytes_disassembly`). As comments are inert, this text is accepted, has as many
instructions, is listed as the very same text, and does the same when it is run
(`disassembly_is_faithful`).
-/

namespace ByteTape

open ByteTape.Instruction

namespace Text

theorem ascii_append (front back : String) : ascii (front ++ back) = ascii front ++ ascii back := by
  rw [ascii, ascii, ascii, String.toList_append, List.map_append]

/-- A number in decimal digits is a comment. -/
theorem ofBytes_ascii_toString (number : Nat) : ofBytes (ascii (toString number)) = [] := by
  have hdigits : ∀ code < 58, 48 ≤ code → ofByte? code.toUInt8 = none := by decide
  rw [ofBytes, List.filterMap_eq_nil_iff, ascii]
  intro byte hbyte
  obtain ⟨c, hc, rfl⟩ := List.mem_map.mp hbyte
  obtain ⟨hfirst, hlast⟩ : 48 ≤ c.toNat ∧ c.toNat ≤ 57 := by
    simpa [Char.isDigit, UInt32.le_iff_toNat_le] using isDigit_of_mem_toString hc
  exact hdigits c.toNat (Nat.lt_succ_of_le hlast) hfirst

end Text

namespace Cli

namespace Session

/-- What is printed of a program has its instructions, and nothing but comments beside them. -/
theorem ofBytes_disassembly (program : Program) :
    ofBytes (disassembly program) = ofBytes program.text := by
  have hmark : ofBytes (Text.ascii "; ") = [] := by decide
  have hword : ofBytes (Text.ascii " instructions\n") = [] := by decide
  simp only [disassembly, Text.ascii_append, ofBytes_append, Text.ofBytes_ascii_toString, hmark,
    hword, Listing.ofBytes_ofText, List.nil_append]

/-- Programs with the same instructions are printed alike. -/
theorem disassembly_congr {program program' : Program}
    (h : ofBytes program.text = ofBytes program'.text) :
    disassembly program = disassembly program' := by
  rw [disassembly, disassembly, Program.instructionCount_eq_length,
    Program.instructionCount_eq_length, h, Listing.ofText_congr h]

/-- The bytes that a session prints, and nothing else, when it has loaded a program and is asked to
list it. -/
def ListedAs (program : Program) (bytes : List UInt8) : Prop :=
  ∀ arguments options environment, request arguments = .inr options →
    options.disassemble = true → (load options environment).1 = .ok program →
    ∀ fuel, run fuel arguments environment = some ⟨0, bytes, ""⟩

theorem listedAs_disassembly (program : Program) : ListedAs program (disassembly program) :=
  fun _ _ _ hrequest hlist hload fuel => run_of_listed hrequest hload hlist fuel

/-- The text that is printed of a program is a program. -/
theorem exists_ofText_disassembly (program : Program) :
    ∃ program', Program.ofText (disassembly program) = .ok program' ∧
      ofBytes program'.text = ofBytes program.text := by
  have haccepted : ∃ program', Program.ofText program.text = .ok program' :=
    ⟨program, (Program.ofText_eq_ok_iff _ _).mpr rfl⟩
  obtain ⟨program', hprogram'⟩ :=
    Program.exists_ofText_ok_of_ofBytes (ofBytes_disassembly program).symm haccepted
  refine ⟨program', hprogram', ?_⟩
  rw [(Program.ofText_eq_ok_iff _ _).mp hprogram', ofBytes_disassembly]

/-- What is said of a run at its end does not depend on the program, but for its size. -/
theorem summary_congr {program program' : Program}
    (h : program.instructionCount = program'.instructionCount) (halted : Halted) :
    summary program halted = summary program' halted := by
  unfold summary
  rw [h]

/-- What is printed of a program can stand for it. It is the text of a program with as many
instructions, and is printed of that program too. And a session that runs the program from a file
leaves the same exit code and output behind as one that finds what was printed of it in a file and
is asked for the same; if it is verbose, what it says last is the same. -/
theorem disassembly_is_faithful (program : Program) :
    ListedAs program (disassembly program) ∧
    (∃ program', Program.ofText (disassembly program) = .ok program' ∧
      program'.instructionCount = program.instructionCount ∧
      ListedAs program' (disassembly program)) ∧
    ∀ environment path path', environment.files path.toUTF8.toList = .ok program.text →
      environment.files path'.toUTF8.toList = .ok (disassembly program) →
      ∀ arguments arguments' options, request arguments = .inr options →
        options.disassemble = false → options.file = some path →
        request arguments' = .inr (options.withFile (some path')) →
        ∀ outcome, Leaves arguments environment outcome →
          ∃ outcome', Leaves arguments' environment outcome' ∧
            outcome'.exitCode = outcome.exitCode ∧ outcome'.output = outcome.output ∧
            (options.verbose = true → ∃ fuel result halted last shown shown',
              (Machine.start program options.bound true).run fuel [.data environment.input] {} =
                some result ∧
              result.result = .ok halted ∧
              last = "halted after " ++ toString halted.executed ++ " instructions (" ++
                toString program.instructionCount ++ " in program) [ptr: " ++
                toString halted.pointer ++ "] [tape: " ++ toString halted.size ++ "]\n" ∧
              outcome.diagnostics = shown ++ last ∧ outcome'.diagnostics = shown' ++ last) := by
  obtain ⟨program', hprogram', hsame⟩ := exists_ofText_disassembly program
  have hcount : program'.instructionCount = program.instructionCount := by
    rw [Program.instructionCount_eq_length, Program.instructionCount_eq_length, hsame]
  refine ⟨listedAs_disassembly program, ⟨program', hprogram', hcount, ?_⟩, ?_⟩
  · rw [← disassembly_congr hsame]
    exact listedAs_disassembly program'
  · intro environment path path' hfile hfile' arguments arguments' options hrequest hlist hpath
      hrequest' outcome hleaves
    rw [← (Program.ofText_eq_ok_iff _ _).mp hprogram'] at hfile'
    have hload := load_of_file hpath hfile
    have hload' : load (options.withFile (some path')) environment =
        (.ok program', [.data environment.input]) := load_of_file rfl hfile'
    obtain ⟨fuel, result, hrun, rfl⟩ := (leaves_iff hrequest hload hlist).mp hleaves
    obtain ⟨fuel', result', hrun', hresult, hsink⟩ :=
      Machine.exists_run_of_ofBytes hsame.symm hrun
    obtain ⟨halted, hhalted⟩ :=
      Machine.exists_halted_of_run hrun (Source.items_data _) Sink.unfailing_default
    refine ⟨_, (leaves_iff hrequest' hload' hlist).mpr ⟨fuel', result', hrun', rfl⟩, ?_⟩
    rw [conclude_of_ok _ _ hhalted, conclude_of_ok _ _ (hresult.trans hhalted),
      Machine.program_of_run hrun, Machine.program_of_run hrun', summary_congr hcount, hsink]
    -- what the two consoles have shown before the summary differs, and does not matter here
    generalize result.trace.foldl Console.receive _ = first
    generalize result'.trace.foldl Console.receive _ = second
    refine ⟨rfl, rfl, fun hverbose => ⟨fuel, result, halted, summary program halted, first.shown,
      second.shown, hverbose ▸ hrun, hhalted, rfl, ?_, ?_⟩⟩
    · simp only [hverbose, if_true]
    · simp only [Options.withFile, hverbose, if_true]

/-- `a,[.-]` shows its input and counts it down. What is printed of it, without the comment and with
the loop on lines of its own, does so too. -/
theorem disassembly_is_faithful_of_countdown :
    ∃ (program : Program) (environment : Environment) (outcome : Outcome),
      program.text = Text.ascii "a,[.-]" ∧
      environment.files "p".toUTF8.toList = .ok program.text ∧
      environment.files "q".toUTF8.toList =
        .ok (Text.ascii "; 5 instructions\n,\n[\n  .-\n]\n") ∧
      run 1 ["--disassemble", "--file", "p"] environment =
        some ⟨0, Text.ascii "; 5 instructions\n,\n[\n  .-\n]\n", ""⟩ ∧
      run 10 ["-v", "--file", "p"] environment = some outcome ∧
      outcome.output = [2, 1, 0x0a] ∧
      ∃ outcome' shown shown', Leaves ["-v", "--file", "q"] environment outcome' ∧
        outcome'.exitCode = 0 ∧ outcome'.output = [2, 1, 0x0a] ∧
        outcome.diagnostics =
          shown ++ "halted after 8 instructions (5 in program) [ptr: 0] [tape: 1]\n" ∧
        outcome'.diagnostics =
          shown' ++ "halted after 8 instructions (5 in program) [ptr: 0] [tape: 1]\n" := by
  let program : Program := ⟨(Text.ascii "a,[.-]").toArray, by decide +kernel⟩
  let printed : List UInt8 := Text.ascii "; 5 instructions\n,\n[\n  .-\n]\n"
  have hprinted : disassembly program = printed := by decide +kernel
  let environment : Environment := {
    files := fun path =>
      if path = "p".toUTF8.toList then .ok program.text
      else if path = "q".toUTF8.toList then .ok printed
      else .error "No such file or directory (os error 2)"
    input := [2]
    terminal := none
    logSetting := none }
  have hfile : environment.files "p".toUTF8.toList = .ok program.text := if_pos rfl
  have hfile' : environment.files "q".toUTF8.toList = .ok printed :=
    (if_neg (by decide +kernel)).trans (if_pos rfl)
  obtain ⟨hlisted, -, hruns⟩ := disassembly_is_faithful program
  have hload (verbose disassemble : Bool) :
      load { file := some "p", verbose, disassemble } environment =
        (.ok program, [.data environment.input]) := load_of_file rfl hfile
  have hrun : (run 10 ["-v", "--file", "p"] environment).map (fun outcome =>
      (outcome.exitCode, outcome.output)) = some (0, [2, 1, 0x0a]) := by
    rw [run_of_accepted (by rfl) (hload true false) rfl]
    decide +kernel +zetaReduce
  obtain ⟨outcome, hrun, houtcome⟩ := Option.map_eq_some_iff.mp hrun
  obtain ⟨hexit, houtput⟩ := Prod.mk.inj houtcome
  obtain ⟨outcome', hleaves, hcode, hsame, hlast⟩ := hruns environment "p" "q" hfile
    (hfile'.trans (by rw [hprinted])) ["-v", "--file", "p"] ["-v", "--file", "q"]
    { file := some "p", verbose := true } (by rfl) rfl rfl (by rfl) outcome ⟨10, hrun⟩
  obtain ⟨fuel, result, halted, last, shown, shown', hresult, hhalted, hline, hshown, hshown'⟩ :=
    hlast rfl
  have hexecuted : ((Machine.start program Tape.defaultBound true).run 10 [.data [2]] {}).map
      (·.result.toOption) = some (some ⟨8, 0, 1⟩) := by
    decide +kernel +zetaReduce
  obtain ⟨result', hresult', hhalted'⟩ := Option.map_eq_some_iff.mp hexecuted
  obtain rfl := Machine.run_unique hresult hresult'
  rw [hhalted] at hhalted'
  obtain rfl : halted = ⟨8, 0, 1⟩ := Option.some.inj hhalted'
  obtain rfl : last = "halted after 8 instructions (5 in program) [ptr: 0] [tape: 1]\n" :=
    hline.trans (by decide +kernel +zetaReduce)
  refine ⟨program, environment, outcome, by simp [program, Program.text], hfile, hfile', ?_, hrun,
    houtput, outcome', shown, shown', hleaves, hcode.trans hexit, hsame.trans houtput, hshown,
    hshown'⟩
  have hshown := hlisted ["--disassemble", "--file", "p"]
    { file := some "p", disassemble := true } environment (by decide +kernel) rfl
    (by rw [hload false true]) 1
  rwa [hprinted] at hshown

end Session

end Cli

end ByteTape
