import ByteTape.Cli.Session
import ByteTape.Proofs.Cli.Options
import ByteTape.Proofs.Machine.Input

/-!
# Where the program comes from

A program can be the first line of the input or the contents of a file. The line is the text up to
its terminator, and what follows the terminator is the input of the program, just as the whole
input is when the program comes from a file. So a session that takes its program from a line leaves
behind what a session leaves that finds the same text in a file and the rest of the input as its
input (`run_line_eq_run_file`). This holds of every session: also when the text is no program, when
it is only listed, and when its run does not end. Of arguments that cannot be understood, no more is
compared than the reason and the exit code.
-/

namespace ByteTape

namespace Cli

/-- An input that begins with a line: `text` is the text of the line, and `rest` is what follows it.
The line ends with a newline, with a carriage return and a newline, or with the input. A text that
ends in a carriage return needs one of the other two ends, since with a newline alone its own
carriage return would belong to the terminator. -/
inductive FirstLine (text : List UInt8) : (rest input : List UInt8) → Prop
  | newline (rest : List UInt8) (hlast : text.getLast? ≠ some 0x0d) :
      FirstLine text rest (text ++ 0x0a :: rest)
  | carriageReturn (rest : List UInt8) : FirstLine text rest (text ++ 0x0d :: 0x0a :: rest)
  | alone : FirstLine text [] text

namespace Session

variable {text rest input : List UInt8}

/-- The program on the first line of an input, and the bytes that are left for it to read. -/
theorem exists_takeLine_of_firstLine (hline : 0x0a ∉ text) (hinput : FirstLine text rest input) :
    ∃ left, Program.takeLine [.data input] = (Program.ofText text, left) ∧
      left.items = rest.map .byte := by
  cases hinput with
  | newline _ hlast =>
      refine ⟨[.data rest], ?_, Source.items_data rest⟩
      rw [Program.takeLine, Source.takeLine_append_newline hline]
      simp [SourceLine.text, hlast]
  | carriageReturn _ =>
      refine ⟨[.data rest], ?_, Source.items_data rest⟩
      have hterminated : 0x0a ∉ text ++ [0x0d] := by simpa using hline
      rw [List.append_cons text, Program.takeLine, Source.takeLine_append_newline hterminated]
      simp [SourceLine.text]
  | alone =>
      refine ⟨[], ?_, rfl⟩
      rw [Program.takeLine, Source.takeLine_of_not_mem hline]
      simp [SourceLine.text]

/-- What a run on bytes leaves behind does not depend on the pieces in which they come. -/
theorem execute_congr_items {source source' : Source} {bytes : List UInt8}
    (hsource : source.items = bytes.map .byte) (hsource' : source'.items = bytes.map .byte)
    (fuel : Nat) (options : Options) (environment : Environment) (program : Program) :
    execute fuel options environment program source =
      execute fuel options environment program source' := by
  have hitems : source.items = source'.items := hsource.trans hsource'.symm
  unfold execute
  cases hrun : (Machine.start program options.bound options.verbose).run fuel source {} with
  | some result =>
      obtain ⟨left, hrun', -⟩ :=
        Machine.exists_run_source hrun hsource (congrArg (List.take _) hitems.symm)
      rw [hrun']
      rfl
  | none =>
      cases hrun' : (Machine.start program options.bound options.verbose).run fuel source' {} with
      | none => rfl
      | some result =>
          obtain ⟨left, hresult, -⟩ :=
            Machine.exists_run_source hrun' hsource' (congrArg (List.take _) hitems)
          cases hrun.symm.trans hresult

theorem request_eq_inr_iff {arguments : List String} {options : Options} :
    request arguments = .inr options ↔ parse arguments = .ok (.session options) := by
  rw [request]
  obtain error | _ | _ | asked := parse arguments <;> simp

/-- Words that name a program file change nothing about what is asked for but the file. -/
theorem parse_append_eq_map {path : String} (hpath : path ≠ "") {words : List String}
    (hwords : FileWords path words) {arguments : List String}
    (hfree : ∀ argument ∈ arguments, ¬ namesFile argument) :
    parse (words ++ arguments) = (parse arguments).map (.withFile (some path)) := by
  rw [parse_append_of_fileWords hpath hwords, parseFrom_withFile _ _ _ hfree, ← parse]

/-- A session whose arguments cannot be understood ends at once. -/
theorem run_of_parse_error {arguments : List String} {error : UsageError}
    (h : parse arguments = .error error) (fuel : Nat) (environment : Environment) :
    run fuel arguments environment = some ⟨2, [], error.message ++ "\n"⟩ := by
  simp only [run, request, h]

/-- Two sessions that are asked for the same, but for the file that one of them takes its program
from. -/
theorem run_eq_of_request (hline : 0x0a ∉ text) (hinput : FirstLine text rest input)
    {environment : Environment} {path : String}
    (hfile : environment.files path.toUTF8.toList = .ok text)
    {arguments arguments' : List String} {options : Options}
    (hrequest : request arguments = .inr options) (hnone : options.file = none)
    (hrequest' : request arguments' = .inr (options.withFile (some path))) (fuel : Nat) :
    run fuel arguments { environment with input } =
      run fuel arguments' { environment with input := rest } := by
  obtain ⟨left, hload, hleft⟩ := exists_takeLine_of_firstLine hline hinput
  have hrest := Source.items_data rest
  have hfromLine : load options { environment with input } = (Program.ofText text, left) := by
    rw [load, hnone]
    exact hload
  have hfromFile : load (options.withFile (some path)) { environment with input := rest } =
      (Program.ofText text, [.data rest]) := by
    rw [load, Options.withFile]
    simp only [hfile, Program.ofFile]
  unfold run
  simp only [hrequest, hrequest', hfromLine, hfromFile]
  cases Program.ofText text with
  | error error => rfl
  | ok program =>
      simp only
      rw [execute_congr_items hleft hrest]
      rfl

/-- A session that takes its program from the first line of its input leaves behind what a session
leaves that finds the text of the line in a file, and what follows the line as its input. The file
can be named in front of the other arguments, in both ways to do so; if these cannot be understood,
then for the same reason, and both sessions end with exit code 2 and without output. And it can be
named anywhere among them, as long as the options come out the same. -/
theorem run_line_eq_run_file (hline : 0x0a ∉ text) (hinput : FirstLine text rest input)
    {environment : Environment} {path : String} (hpath : path ≠ "")
    (hfile : environment.files path.toUTF8.toList = .ok text) :
    (∀ words arguments, FileWords path words → (∀ argument ∈ arguments, ¬ namesFile argument) →
      (∀ asked, parse arguments = .ok asked →
        ∀ fuel, run fuel arguments { environment with input } =
          run fuel (words ++ arguments) { environment with input := rest }) ∧
      ∀ error, parse arguments = .error error → parse (words ++ arguments) = .error error ∧
        ∀ fuel, ∃ diagnostics diagnostics',
          run fuel arguments { environment with input } = some ⟨2, [], diagnostics⟩ ∧
          run fuel (words ++ arguments) { environment with input := rest } =
            some ⟨2, [], diagnostics'⟩) ∧
    ∀ arguments arguments' options, request arguments = .inr options → options.file = none →
      request arguments' = .inr (options.withFile (some path)) →
      ∀ fuel, run fuel arguments { environment with input } =
        run fuel arguments' { environment with input := rest } := by
  refine ⟨fun words arguments hwords hfree => ?_,
    fun arguments arguments' options hrequest hnone hrequest' fuel =>
      run_eq_of_request hline hinput hfile hrequest hnone hrequest' fuel⟩
  have hparse := parse_append_eq_map hpath hwords hfree
  refine ⟨fun asked hasked fuel => ?_, fun error herror => ?_⟩
  · rw [hasked] at hparse
    cases asked with
    | session options =>
        have hnone := file_eq_none_of_parse hfree hasked
        exact run_eq_of_request hline hinput hfile (request_eq_inr_iff.mpr hasked) hnone
          (request_eq_inr_iff.mpr hparse) fuel
    | _ => simp only [run, request, hasked, hparse, Except.map, Request.withFile]
  · rw [herror] at hparse
    exact ⟨hparse, fun fuel => ⟨_, _, run_of_parse_error herror fuel _,
      run_of_parse_error hparse fuel _⟩⟩

/-- The program `,.` and a carriage return, on a line that ends with another one and a newline. -/
theorem run_line_eq_run_file_past_carriage_returns :
    ∃ environment : Environment,
      environment.files "p".toUTF8.toList = .ok [0x2c, 0x2e, 0x0d] ∧
      FirstLine [0x2c, 0x2e, 0x0d] [0x41] [0x2c, 0x2e, 0x0d, 0x0d, 0x0a, 0x41] ∧
      ∀ fuel,
        run fuel ["-v"] { environment with input := [0x2c, 0x2e, 0x0d, 0x0d, 0x0a, 0x41] } =
          run fuel ["--file", "p", "-v"] { environment with input := [0x41] } ∧
        run fuel ["-v"] { environment with input := [0x2c, 0x2e, 0x0d, 0x0d, 0x0a, 0x41] } =
          run fuel ["-v", "--file=p"] { environment with input := [0x41] } := by
  have hline : FirstLine [0x2c, 0x2e, 0x0d] [0x41] [0x2c, 0x2e, 0x0d, 0x0d, 0x0a, 0x41] :=
    .carriageReturn [0x41]
  let environment : Environment := {
    files := fun path =>
      if path = "p".toUTF8.toList then .ok [0x2c, 0x2e, 0x0d]
      else .error "No such file or directory (os error 2)"
    input := []
    terminal := none
    logSetting := none }
  have hfile : environment.files "p".toUTF8.toList = .ok [0x2c, 0x2e, 0x0d] := if_pos rfl
  obtain ⟨hfront, hanywhere⟩ := run_line_eq_run_file (by decide) hline (by decide) hfile
  refine ⟨environment, hfile, hline, fun fuel => ⟨?_, ?_⟩⟩
  · exact (hfront ["--file", "p"] ["-v"] (.apart (by decide)) (by decide)).1 _ (by rfl) fuel
  · exact hanywhere ["-v"] ["-v", "--file=p"] { verbose := true } (by rfl) rfl (by rfl) fuel

end Session

end Cli

end ByteTape
