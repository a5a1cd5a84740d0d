import ByteTape.Cli.Options
import Mathlib.Data.List.TakeDrop
import Mathlib.Tactic.Common

/-!
# The program file among the arguments

The option that names the program file stands apart from the others: none of them asks whether it
was given. Arguments without it are therefore read alike whatever file has been named before them,
and the file named before them is the one they ask for (`parseFrom_withFile`). In particular a file
can be added in front of them, in either of the two ways to write it, with no other difference
(`parse_append_of_fileWords`).
-/

namespace ByteTape

namespace Cli

/-- Whether an argument is the option that names the program file, with its value or without. -/
def namesFile (argument : String) : Bool :=
  argument == "--file" || "--file=".toList.isPrefixOf argument.toList

/-- The arguments that name the program file at a path. -/
inductive FileWords (path : String) : List String → Prop
  | apart (hvalue : isValue path) : FileWords path ["--file", path]
  | joined : FileWords path ["--file=" ++ path]

/-- The same options for another program file. -/
def Options.withFile (file : Option String) (options : Options) : Options :=
  { options with file }

/-- The same request for another program file. -/
def Request.withFile (file : Option String) : Request → Request
  | .help => .help
  | .version => .version
  | .session options => .session (options.withFile file)

namespace Given

/-- The same options given with another program file. -/
def withFile (file : Option String) (given : Given) : Given := { given with file }

/-- What comes of one more option, with another program file. -/
def Outcome.withFile (file : Option String) (outcome : Given.Outcome) : Given.Outcome :=
  outcome.map (Sum.map (Given.withFile file) (Request.withFile file))

theorem turnOn_withFile (file : Option String) (given : Given) (name : String) (switch : Switch) :
    (given.withFile file).turnOn name switch = .withFile file (given.turnOn name switch) := by
  cases switch with
  | help => rfl
  | version => rfl
  | verbose => obtain ⟨_, _, _ | _, _, _⟩ := given <;> rfl
  | singleStep => obtain ⟨_, _, _, _ | _, _⟩ := given <;> rfl
  | disassemble => obtain ⟨_, _, _, _, _ | _⟩ := given <;> rfl

theorem turnOnAll_withFile (file : Option String) (given : Given) (letters : List Char) :
    (given.withFile file).turnOnAll letters = .withFile file (given.turnOnAll letters) := by
  fun_induction turnOnAll given letters with
  | case1 given => rfl
  | case2 given letter rest name hswitch =>
      simp only [turnOnAll, hswitch]
      rfl
  | case3 given letter rest name switch hswitch given' hturn ih =>
      simp only [turnOnAll, hswitch, turnOn_withFile]
      rw [hturn]
      exact ih
  | case4 given letter rest name switch hswitch hturn =>
      simp only [turnOnAll, hswitch, turnOn_withFile]
      match h : given.turnOn name switch with
      | .error error => rfl
      | .ok (.inl given') => exact (hturn given' h).elim
      | .ok (.inr request) => rfl

theorem set_bound_withFile (file : Option String) (given : Given) (name value : String) :
    (given.withFile file).set name value .bound =
      (given.set name value .bound).map (withFile file) := by
  obtain ⟨_, _ | bound, _, _, _⟩ := given
  · simp only [set, withFile]
    cases Text.word? value <;> rfl
  · rfl

end Given

/-- A long option begins with its name, and what follows that begins with an equals sign. -/
theorem eq_append_of_divide {text : List Char} {name : String} {value? : Option String}
    (hdivide : divide text = (name, value?)) :
    text = name.toList ∨ ∃ value, text = name.toList ++ '=' :: value := by
  rw [divide, List.span_eq_takeWhile_dropWhile] at hdivide
  have htext := List.takeWhile_append_dropWhile (p := (· != '=')) (l := text)
  have hhead := List.head?_dropWhile_not (· != '=') text
  split at hdivide
  · rename_i front hspan
    obtain ⟨rfl, hrest⟩ := Prod.mk.inj hspan
    obtain ⟨rfl, -⟩ := Prod.mk.inj hdivide
    left
    rw [String.toList_ofList]
    simpa [hrest] using htext.symm
  · rename_i front mark value hspan
    obtain ⟨rfl, hrest⟩ := Prod.mk.inj hspan
    obtain ⟨rfl, -⟩ := Prod.mk.inj hdivide
    right
    rw [hrest] at htext hhead
    obtain rfl : mark = '=' := by simpa using hhead
    exact ⟨value, by rw [String.toList_ofList, htext]⟩

/-- An argument that does not name a file can be for no other setting than the bound. -/
theorem eq_bound_of_not_namesFile {argument name : String} {text : List Char}
    {value? : Option String} {setting : Setting} (htext : argument.toList = '-' :: '-' :: text)
    (hdivide : divide text = (name, value?)) (hsetting : Setting.ofLongName? name = some setting)
    (hfree : ¬ namesFile argument) : setting = .bound := by
  unfold Setting.ofLongName? at hsetting
  split at hsetting
  · refine absurd ?_ hfree
    rw [namesFile, Bool.or_eq_true, beq_iff_eq, List.isPrefixOf_iff_prefix, ← String.toList_inj,
      htext]
    obtain rfl | ⟨value, rfl⟩ := eq_append_of_divide hdivide
    · exact .inl rfl
    · exact .inr ⟨value, rfl⟩
  · exact (Option.some.inj hsetting).symm
  · cases hsetting

/-- What arguments come to, of which the first came to `outcome` and `rest` is yet to be read. -/
def Given.Outcome.followedBy (rest : List String) : Given.Outcome → Except UsageError Request
  | .ok (.inl given) => parseFrom given rest
  | .ok (.inr request) => .ok request
  | .error error => .error error

/-- Whether an argument comes to the same, and leaves the same of the others, for every program
file. -/
def IgnoresFile (argument : String) (rest : List String) : Prop :=
  ∃ (outcome : Given → Given.Outcome) (left : List String), left <:+ rest ∧
    (∀ given, parseFrom given (argument :: rest) = (outcome given).followedBy left) ∧
    ∀ file given, outcome (given.withFile file) = (outcome given).withFile file

section

variable {argument : String} {rest : List String}

theorem IgnoresFile.of_error (error : UsageError)
    (h : ∀ given, parseFrom given (argument :: rest) = .error error) : IgnoresFile argument rest :=
  ⟨fun _ => .error error, [], List.nil_suffix, h, fun _ _ => rfl⟩

theorem IgnoresFile.of_set {left : List String} (hleft : left <:+ rest) (option value : String)
    (h : ∀ given, parseFrom given (argument :: rest) =
      Given.Outcome.followedBy left ((given.set option value .bound).map .inl)) :
    IgnoresFile argument rest := by
  refine ⟨fun given => (given.set option value .bound).map .inl, left, hleft, h,
    fun file given => ?_⟩
  simp only [Given.set_bound_withFile]
  cases given.set option value .bound <;> rfl

/-- An argument that does not begin like an option. -/
theorem ignoresFile_of_not_dash
    (hdash : ∀ letter letters, argument.toList ≠ '-' :: letter :: letters) :
    IgnoresFile argument rest := by
  refine .of_error (.unexpected argument) fun given => ?_
  rw [parseFrom.eq_def]
  dsimp only
  split
  · exact absurd ‹_› (hdash _ _)
  · exact absurd ‹_› (hdash _ _)
  · exact absurd ‹_› (hdash _ _)
  · rfl

/-- The end of the options. -/
theorem ignoresFile_of_dashes (htext : argument.toList = ['-', '-']) :
    IgnoresFile argument rest := by
  cases rest with
  | nil =>
      refine ⟨fun given => .ok (.inr (.session given.options)), [], List.nil_suffix,
        fun given => ?_, fun _ _ => rfl⟩
      rw [parseFrom.eq_def]
      simp only [htext]
      rfl
  | cons extra rest =>
      refine .of_error (.unexpected extra) fun given => ?_
      rw [parseFrom.eq_def]
      simp only [htext]

/-- Switches joined behind one dash. -/
theorem ignoresFile_of_letters {letter : Char} {letters : List Char}
    (htext : argument.toList = '-' :: letter :: letters) (hletter : letter ≠ '-') :
    IgnoresFile argument rest := by
  refine ⟨fun given => given.turnOnAll (letter :: letters), rest, List.suffix_rfl,
    fun given => ?_, fun file given => given.turnOnAll_withFile file _⟩
  rw [parseFrom.eq_def]
  simp only [htext, hletter, false_implies]
  rfl

/-- A long option that does not name a file. -/
theorem ignoresFile_of_long {c : Char} {text : List Char}
    (htext : argument.toList = '-' :: '-' :: c :: text) (hfree : ¬ namesFile argument) :
    IgnoresFile argument rest := by
  rcases hdivide : divide (c :: text) with ⟨name, value?⟩
  cases hswitch : Switch.ofLongName? name with
  | some switch =>
      cases value? with
      | none =>
          refine ⟨fun given => given.turnOn ("--" ++ name) switch, rest, List.suffix_rfl,
            fun given => ?_, fun file given => given.turnOn_withFile file _ _⟩
          rw [parseFrom.eq_def]
          simp only [htext, hdivide, hswitch]
          rfl
      | some value =>
          refine .of_error (.needlessValue ("--" ++ name)) fun given => ?_
          rw [parseFrom.eq_def]
          simp only [htext, hdivide, hswitch]
  | none =>
      cases hsetting : Setting.ofLongName? name with
      | none =>
          refine .of_error (.unexpected argument) fun given => ?_
          rw [parseFrom.eq_def]
          simp only [htext, hdivide, hswitch, hsetting]
      | some setting =>
          obtain rfl := eq_bound_of_not_namesFile htext hdivide hsetting hfree
          match value?, rest with
          | some value, rest =>
              refine .of_set List.suffix_rfl ("--" ++ name) value fun given => ?_
              rw [parseFrom.eq_def]
              simp only [htext, hdivide, hswitch, hsetting]
              cases given.set ("--" ++ name) value .bound <;> rfl
          | none, [] =>
              refine .of_error (.missingValue ("--" ++ name)) fun given => ?_
              rw [parseFrom.eq_def]
              simp only [htext, hdivide, hswitch, hsetting]
          | none, value :: rest =>
              by_cases hvalue : isValue value
              · refine .of_set (List.suffix_cons value rest) ("--" ++ name) value fun given => ?_
                rw [parseFrom.eq_def]
                simp only [htext, hdivide, hswitch, hsetting, if_pos hvalue]
                cases given.set ("--" ++ name) value .bound <;> rfl
              · refine .of_error (.missingValue ("--" ++ name)) fun given => ?_
                rw [parseFrom.eq_def]
                simp only [htext, hdivide, hswitch, hsetting, if_neg hvalue]

theorem ignoresFile_of_not_namesFile (hfree : ¬ namesFile argument) :
    IgnoresFile argument rest := by
  by_cases hdash : ∀ letter letters, argument.toList ≠ '-' :: letter :: letters
  · exact ignoresFile_of_not_dash hdash
  · push Not at hdash
    obtain ⟨letter, letters, htext⟩ := hdash
    by_cases hletter : letter = '-'
    · subst hletter
      cases letters with
      | nil => exact ignoresFile_of_dashes htext
      | cons c text => exact ignoresFile_of_long htext hfree
    · exact ignoresFile_of_letters htext hletter

end

/-- Arguments that do not name a file are read alike whatever file was named before them, and leave
it at that. -/
theorem parseFrom_withFile (file : Option String) (given : Given) (arguments : List String)
    (hfree : ∀ argument ∈ arguments, ¬ namesFile argument) :
    parseFrom (given.withFile file) arguments =
      (parseFrom given arguments).map (Request.withFile file) := by
  match arguments with
  | [] => rfl
  | argument :: rest =>
      obtain ⟨hargument, hrest⟩ := List.forall_mem_cons.mp hfree
      have hignores : IgnoresFile argument rest := ignoresFile_of_not_namesFile hargument
      obtain ⟨outcome, left, hleft, hread, hsame⟩ := hignores
      have hlength := hleft.length_le
      rw [hread, hread, hsame]
      match outcome given with
      | .error error => rfl
      | .ok (.inr request) => rfl
      | .ok (.inl given') =>
          exact parseFrom_withFile file given' left fun word hword =>
            hrest word (hleft.subset hword)
termination_by arguments.length
decreasing_by simp only [List.length_cons]; omega

/-- Without an argument that names one, no program file is asked for. -/
theorem file_eq_none_of_parse {arguments : List String} {options : Options}
    (hfree : ∀ argument ∈ arguments, ¬ namesFile argument)
    (h : parse arguments = .ok (.session options)) : options.file = none := by
  have hsame := parseFrom_withFile none {} arguments hfree
  rw [show Given.withFile none {} = {} from rfl, ← parse, h] at hsame
  have hoptions := Request.session.inj (Except.ok.inj hsame)
  rw [hoptions]
  rfl

/-- The words that name a program file name nothing else. -/
theorem parse_append_of_fileWords {path : String} (hpath : path ≠ "") {words : List String}
    (hwords : FileWords path words) (arguments : List String) :
    parse (words ++ arguments) = parseFrom (Given.withFile (some path) {}) arguments := by
  have hswitch : Switch.ofLongName? "file" = none := rfl
  have hsetting : Setting.ofLongName? "file" = some .file := rfl
  have hset : Given.set {} ("--" ++ "file") path .file = .ok (Given.withFile (some path) {}) := by
    simp [Given.set, Given.withFile, hpath]
  cases hwords with
  | apart hvalue =>
      have htext : "--file".toList = '-' :: '-' :: 'f' :: ['i', 'l', 'e'] := rfl
      have hdivide : divide ('f' :: ['i', 'l', 'e']) = ("file", none) := by decide
      rw [parse, List.cons_append, parseFrom.eq_def]
      simp only [htext, hdivide, hswitch, hsetting, List.cons_append, List.nil_append,
        if_pos hvalue, hset]
  | joined =>
      have htext : ("--file=" ++ path).toList =
          '-' :: '-' :: 'f' :: 'i' :: 'l' :: 'e' :: '=' :: path.toList := by
        rw [String.toList_append]
        rfl
      have hdivide : divide ('f' :: 'i' :: 'l' :: 'e' :: '=' :: path.toList) =
          ("file", some path) := by
        rw [divide, List.span_eq_takeWhile_dropWhile]
        simp
      rw [parse, List.cons_append, parseFrom.eq_def]
      simp only [htext, hdivide, hswitch, hsetting, List.nil_append, hset]

end Cli

end ByteTape
