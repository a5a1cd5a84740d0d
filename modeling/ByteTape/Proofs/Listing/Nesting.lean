import ByteTape.Proofs.Bracket.Comment
import ByteTape.Proofs.Bracket.Pair
import ByteTape.Proofs.Listing
import Mathlib.Data.List.SplitBy

/-!
# The layout of a listing

The lines of a listing are its instructions, cut wherever a bracket stands on one side of the cut,
and each line is indented by the depth at which it stands (`Indented`). The depth of a text that is
not balanced does not go below zero: a `]` that closes nothing is passed over. Between two brackets
that are partners this makes no difference, since the text between them is balanced and never comes
back to the depth before its `[` (`Shelters`); so a listing shows every pair, whatever is around it.

A bracket writes out all that was pending before it, so the listing falls apart at each bracket
(`linesFrom_append_bracket`). What is proved of whole listings is proved along these parts
(`induction_on_brackets`).
-/

namespace ByteTape

open ByteTape.Bracket

namespace Instruction

/-- Whether an instruction is no bracket. -/
def isPlain (instruction : Instruction) : Bool := (ofInstruction? instruction).isNone

@[simp] theorem isPlain_toInstruction (bracket : Bracket) :
    isPlain bracket.toInstruction = false := by
  cases bracket <;> rfl

/-- What holds of plain instructions, and of what stands around a bracket if it holds of both sides,
holds of all instructions. -/
theorem induction_on_brackets {motive : List Instruction → Prop}
    (plain : ∀ run, (∀ instruction ∈ run, isPlain instruction = true) → motive run)
    (bracket : ∀ (front : List Instruction) (bracket : Bracket) (back : List Instruction),
      motive front → motive back → motive (front ++ bracket.toInstruction :: back))
    (instructions : List Instruction) : motive instructions := by
  suffices h : ∀ run, (∀ instruction ∈ run, isPlain instruction = true) →
      motive (run ++ instructions) from h [] (by simp)
  induction instructions with
  | nil =>
      intro run hrun
      rw [List.append_nil]
      exact plain run hrun
  | cons instruction rest ih =>
      intro run hrun
      cases h : ofInstruction? instruction with
      | none =>
          have hplain : isPlain instruction = true := by rw [isPlain, h]; rfl
          rw [List.append_cons]
          exact ih _ (by simpa [hplain, or_imp, forall_and] using hrun)
      | some found =>
          obtain rfl := (ofInstruction?_eq_some_iff _ _).mp h
          exact bracket run found rest (plain run hrun) (ih [] (by simp))

end Instruction

namespace Listing

open ByteTape.Instruction

/-- The depth behind an instruction. A `]` that closes nothing leaves it at zero. -/
def deepen (depth : Nat) : Instruction → Nat
  | .loopStart => depth + 1
  | .loopEnd => depth - 1
  | _ => depth

/-- The depth behind some instructions. -/
def depthAfter (depth : Nat) (instructions : List Instruction) : Nat :=
  instructions.foldl deepen depth

@[simp] theorem depthAfter_nil (depth : Nat) : depthAfter depth [] = depth := rfl

@[simp] theorem depthAfter_cons (depth : Nat) (instruction : Instruction)
    (rest : List Instruction) :
    depthAfter depth (instruction :: rest) = depthAfter (deepen depth instruction) rest := rfl

theorem depthAfter_append (depth : Nat) (front back : List Instruction) :
    depthAfter depth (front ++ back) = depthAfter (depthAfter depth front) back :=
  List.foldl_append

theorem deepen_of_isPlain {instruction : Instruction} (h : isPlain instruction = true)
    (depth : Nat) : deepen depth instruction = depth := by
  cases instruction <;> first | rfl | cases h

/-- The line of a bracket met at some depth. The `]` of a loop is at the level of its `[`. -/
def Line.ofBracket (depth : Nat) : Bracket → Line
  | .opening => ⟨depth, [.loopStart]⟩
  | .closing => ⟨depth - 1, [.loopEnd]⟩

theorem Line.ofBracket_instructions (depth : Nat) (bracket : Bracket) :
    (ofBracket depth bracket).instructions = [bracket.toInstruction] := by
  cases bracket <;> rfl

namespace Draft

/-- A draft with some lines before its own. -/
def behind (front : Array Line) (draft : Draft) : Draft :=
  { draft with lines := front ++ draft.lines }

theorem finish_behind (front : Array Line) (draft : Draft) :
    (draft.behind front).finish = draft.finish.behind front := by
  unfold finish behind
  split <;> simp

theorem add_behind (front : Array Line) (draft : Draft) (instruction : Instruction) :
    (draft.behind front).add instruction = (draft.add instruction).behind front := by
  cases instruction with
  | loopStart =>
      simp only [add, finish_behind]
      simp [behind]
  | loopEnd =>
      simp only [add, finish_behind]
      simp [behind]
  | _ => rfl

/-- What is added to a draft goes behind the lines that it has. -/
theorem foldl_behind (front : Array Line) (draft : Draft) (instructions : List Instruction) :
    instructions.foldl add (draft.behind front) = (instructions.foldl add draft).behind front := by
  induction instructions generalizing draft with
  | nil => rfl
  | cons instruction rest ih => rw [List.foldl_cons, add_behind, ih, List.foldl_cons]

theorem finish_depth (draft : Draft) : draft.finish.depth = draft.depth := by
  rw [finish]
  split <;> rfl

theorem add_depth (draft : Draft) (instruction : Instruction) :
    (draft.add instruction).depth = deepen draft.depth instruction := by
  cases instruction <;> simp [add, deepen, finish_depth]

theorem foldl_depth (draft : Draft) (instructions : List Instruction) :
    (instructions.foldl add draft).depth = depthAfter draft.depth instructions := by
  induction instructions generalizing draft with
  | nil => rfl
  | cons instruction rest ih => rw [List.foldl_cons, ih, add_depth, depthAfter_cons]

/-- A bracket leaves nothing pending. -/
theorem add_bracket (draft : Draft) (bracket : Bracket) :
    draft.add bracket.toInstruction =
      behind (draft.finish.lines.push (.ofBracket draft.depth bracket))
        { depth := deepen draft.depth bracket.toInstruction } := by
  cases bracket <;>
    simp [add, behind, toInstruction, deepen, Line.ofBracket, finish_run, finish_depth]

theorem add_of_isPlain (draft : Draft) {instruction : Instruction}
    (h : isPlain instruction = true) :
    draft.add instruction = { draft with run := draft.run.push instruction } := by
  cases instruction <;> first | rfl | cases h

theorem foldl_of_plain {run : List Instruction}
    (h : ∀ instruction ∈ run, isPlain instruction = true) (draft : Draft) :
    run.foldl add draft = { draft with run := draft.run ++ run } := by
  induction run generalizing draft with
  | nil => simp
  | cons instruction rest ih =>
      rw [List.foldl_cons, add_of_isPlain draft (h _ List.mem_cons_self),
        ih fun other hother => h other (List.mem_cons_of_mem _ hother)]
      simp

end Draft

/-- The lines of some instructions that begin at some depth. -/
def linesFrom (depth : Nat) (instructions : List Instruction) : List Line :=
  (instructions.foldl Draft.add { depth }).finish.lines.toList

theorem lines_eq_linesFrom (instructions : List Instruction) :
    lines instructions = linesFrom 0 instructions := rfl

/-- Instructions without a bracket are on one line, if there are any. -/
theorem linesFrom_of_plain {run : List Instruction}
    (h : ∀ instruction ∈ run, isPlain instruction = true) (depth : Nat) :
    linesFrom depth run = if run = [] then [] else [⟨depth, run⟩] := by
  rw [linesFrom, Draft.foldl_of_plain h]
  by_cases hnil : run = [] <;> simp [Draft.finish, hnil]

/-- A bracket is on a line of its own, and the lines before it and behind it are those of what
stands before it and behind it. -/
theorem linesFrom_append_bracket (depth : Nat) (front : List Instruction) (bracket : Bracket)
    (back : List Instruction) :
    linesFrom depth (front ++ bracket.toInstruction :: back) =
      linesFrom depth front ++ .ofBracket (depthAfter depth front) bracket ::
        linesFrom (deepen (depthAfter depth front) bracket.toInstruction) back := by
  rw [linesFrom, List.foldl_append, List.foldl_cons, Draft.add_bracket, Draft.foldl_behind,
    Draft.finish_behind, Draft.foldl_depth]
  simp [Draft.behind, linesFrom]

theorem flatMap_linesFrom (depth : Nat) (instructions : List Instruction) :
    (linesFrom depth instructions).flatMap Line.instructions = instructions := by
  rw [linesFrom, Draft.flatMap_lines_finish, Draft.instructions_foldl]
  rfl

/-- The lines are cut where a bracket stands on one side of the cut, and nowhere else. -/
theorem map_instructions_linesFrom (depth : Nat) (instructions : List Instruction) :
    (linesFrom depth instructions).map Line.instructions =
      instructions.splitBy fun before after => isPlain before && isPlain after := by
  induction instructions using induction_on_brackets generalizing depth with
  | plain run hrun =>
      rw [linesFrom_of_plain hrun]
      by_cases hnil : run = []
      · simp [hnil]
      · have hchain : run.IsChain fun before after => (isPlain before && isPlain after) = true :=
          (List.pairwise_of_forall_mem_list fun before hbefore after hafter => by
            rw [hrun before hbefore, hrun after hafter]; rfl).isChain
        rw [if_neg hnil, List.splitBy_of_isChain hnil hchain]
        rfl
  | bracket front bracket back ihfront ihback =>
      -- The bracket is cut off from what stands before it, and then from what stands behind it.
      have hbefore : ∀ before ∈ front.getLast?,
          (isPlain before && isPlain bracket.toInstruction) = false := by simp
      have hafter : ∀ before ∈ [bracket.toInstruction].getLast?, ∀ after ∈ back.head?,
          (isPlain before && isPlain after) = false := by simp
      have hcut := List.splitBy_append hafter
      rw [List.singleton_append] at hcut
      rw [linesFrom_append_bracket, List.map_append, List.map_cons, ihfront, ihback,
        Line.ofBracket_instructions, List.splitBy_append_cons back hbefore, hcut]
      rfl

/-- Every line is indented by the depth at which it stands, from `depth` on. The `]` of a line
counts already. -/
def Indented : (depth : Nat) → List Line → Prop
  | _, [] => True
  | depth, line :: rest =>
      line.indent = depthAfter depth (line.instructions.filter (· = .loopEnd)) ∧
        Indented (depthAfter depth line.instructions) rest

theorem indented_append (depth : Nat) (front back : List Line) :
    Indented depth (front ++ back) ↔ Indented depth front ∧
      Indented (depthAfter depth (front.flatMap Line.instructions)) back := by
  induction front generalizing depth with
  | nil => simp [Indented]
  | cons line rest ih =>
      rw [List.cons_append, Indented, Indented, ih, List.flatMap_cons, depthAfter_append, and_assoc]

theorem indented_linesFrom (depth : Nat) (instructions : List Instruction) :
    Indented depth (linesFrom depth instructions) := by
  induction instructions using induction_on_brackets generalizing depth with
  | plain run hrun =>
      have hnone : run.filter (· = .loopEnd) = [] := by
        rw [List.filter_eq_nil_iff]
        rintro _ hmem hend
        obtain rfl := of_decide_eq_true hend
        cases hrun _ hmem
      rw [linesFrom_of_plain hrun]
      by_cases hnil : run = [] <;> simp [hnil, hnone, Indented]
  | bracket front bracket back ihfront ihback =>
      rw [linesFrom_append_bracket, indented_append, flatMap_linesFrom]
      refine ⟨ihfront depth, ?_, ?_⟩
      · cases bracket <;> rfl
      · rw [Line.ofBracket_instructions]
        exact ihback _

/-- The depth of some instructions stays at or above a level all the way. -/
def Shelters (level : Nat) : (depth : Nat) → List Instruction → Prop
  | depth, [] => level ≤ depth
  | depth, instruction :: rest => level ≤ depth ∧ Shelters level (deepen depth instruction) rest

theorem shelters_append (level depth : Nat) (front back : List Instruction) :
    Shelters level depth (front ++ back) ↔
      Shelters level depth front ∧ Shelters level (depthAfter depth front) back := by
  induction front generalizing depth with
  | nil => cases back <;> simp [Shelters]
  | cons instruction rest ih =>
      rw [List.cons_append, Shelters, Shelters, ih, depthAfter_cons, and_assoc]

theorem Shelters.le_depth {level depth : Nat} {instructions : List Instruction}
    (h : Shelters level depth instructions) : level ≤ depth := by
  cases instructions with
  | nil => exact h
  | cons => exact h.1

/-- No line of sheltered instructions is indented less than the level. -/
theorem Shelters.le_indent {level depth : Nat} {instructions : List Instruction}
    (h : Shelters level depth instructions) :
    ∀ line ∈ linesFrom depth instructions, level ≤ line.indent := by
  induction instructions using induction_on_brackets generalizing depth with
  | plain run hrun =>
      have hdepth := h.le_depth
      rw [linesFrom_of_plain hrun]
      by_cases hnil : run = [] <;> simp [hnil, hdepth]
  | bracket front bracket back ihfront ihback =>
      obtain ⟨hfront, hbracket, hback⟩ := (shelters_append _ _ _ _).mp h
      rw [linesFrom_append_bracket]
      intro line hline
      rcases List.mem_append.mp hline with hline | hline
      · exact ihfront hfront line hline
      · rcases List.mem_cons.mp hline with rfl | hline
        · -- A `[` is on the level before it, and a `]` on the level behind it.
          cases bracket with
          | opening => exact hbracket
          | closing => exact hback.le_depth
        · exact ihback hback line hline

theorem Shelters.mono {level lower depth : Nat} {instructions : List Instruction}
    (h : Shelters level depth instructions) (hle : lower ≤ level) :
    Shelters lower depth instructions := by
  induction instructions generalizing depth with
  | nil => exact Nat.le_trans hle h
  | cons instruction rest ih => exact ⟨Nat.le_trans hle h.1, ih h.2⟩

/-- A balanced text comes back to the depth at which it begins, and never goes below it. -/
theorem shelters_of_balanced {text : List UInt8} (h : Balanced text) (depth : Nat) :
    Shelters depth depth (ofBytes text) ∧ depthAfter depth (ofBytes text) = depth := by
  induction h generalizing depth with
  | nil => exact ⟨Nat.le_refl depth, rfl⟩
  | @plain byte rest hbyte _ ih =>
      cases hinstruction : Instruction.ofByte? byte with
      | none =>
          rw [ofBytes_cons_of_comment hinstruction]
          exact ih depth
      | some instruction =>
          have hplain : isPlain instruction = true := by
            rw [Bracket.ofByte?, hinstruction, Option.bind_some] at hbyte
            rw [isPlain, hbyte, Option.isNone_none]
          rw [(ofByte?_eq_some_iff byte instruction).mp hinstruction, ofBytes_cons_toByte, Shelters,
            depthAfter_cons, deepen_of_isPlain hplain]
          exact ⟨⟨Nat.le_refl depth, (ih depth).1⟩, (ih depth).2⟩
  | @loop body rest _ _ ihbody ihrest =>
      obtain ⟨hinside, hback⟩ := ihbody (depth + 1)
      obtain ⟨hbehind, hend⟩ := ihrest depth
      rw [ofBytes_cons_toByte, ofBytes_append, ofBytes_cons_toByte, Shelters, shelters_append,
        Shelters, depthAfter_cons, depthAfter_append, depthAfter_cons]
      simp only [deepen, hback, Nat.add_sub_cancel]
      exact ⟨⟨Nat.le_refl depth, hinside.mono (Nat.le_succ depth), Nat.le_succ depth, hbehind⟩,
        hend⟩

/-- The instructions before a position of a text, that position included. -/
theorem ofBytes_take_succ {text : List UInt8} {position : Nat} {instruction : Instruction}
    (h : text.toArray[position]? = some instruction.toByte) :
    ofBytes (text.take (position + 1)) = ofBytes (text.take position) ++ [instruction] := by
  rw [List.getElem?_toArray] at h
  rw [List.take_add_one, h, ofBytes_append]
  exact congrArg _ (ofBytes_cons_toByte instruction [])

/-- The instructions of a text up to and around the balanced text between two of its brackets. -/
theorem ofBytes_of_encloses {text : List UInt8} {start finish : Nat}
    (h : Encloses text.toArray start finish) :
    ofBytes (text.take finish) = ofBytes (text.take start) ++
        .loopStart :: ofBytes (text.toArray.extract (start + 1) finish).toList ∧
      ofBytes text =
        ofBytes (text.take finish) ++ .loopEnd :: ofBytes (text.drop (finish + 1)) := by
  have hinside : (text.toArray.extract (start + 1) finish).toList =
      (text.take finish).drop (start + 1) := by
    rw [Array.toList_extract, List.extract_eq_take_drop, List.drop_take]
  constructor
  · calc ofBytes (text.take finish)
        = ofBytes ((text.take finish).take (start + 1)) ++
            ofBytes ((text.take finish).drop (start + 1)) := by
          rw [← ofBytes_append, List.take_append_drop]
      _ = ofBytes (text.take start) ++
            .loopStart :: ofBytes (text.toArray.extract (start + 1) finish).toList := by
          rw [List.take_take, Nat.min_eq_left h.lt, ofBytes_take_succ h.opens, List.append_assoc,
            hinside]
          rfl
  · calc ofBytes text
        = ofBytes (text.take (finish + 1)) ++ ofBytes (text.drop (finish + 1)) := by
          rw [← ofBytes_append, List.take_append_drop]
      _ = ofBytes (text.take finish) ++ .loopEnd :: ofBytes (text.drop (finish + 1)) := by
          rw [ofBytes_take_succ h.closes, List.append_assoc]
          rfl

/-- Between the lines of two partners all lines are indented deeper, and these two alike. -/
theorem lines_of_encloses {text : List UInt8} {start finish : Nat}
    (h : Encloses text.toArray start finish) :
    ∃ (front inner back : List Line) (opening closing : Line),
      lines (ofBytes text) = front ++ opening :: (inner ++ closing :: back) ∧
      front.flatMap Line.instructions = ofBytes (text.take start) ∧
      opening.instructions = [.loopStart] ∧
      (front ++ opening :: inner).flatMap Line.instructions = ofBytes (text.take finish) ∧
      closing.instructions = [.loopEnd] ∧
      closing.indent = opening.indent ∧ ∀ line ∈ inner, opening.indent < line.indent := by
  obtain ⟨hfinish, htext⟩ := ofBytes_of_encloses h
  let depth := depthAfter 0 (ofBytes (text.take start))
  obtain ⟨hinside, hback⟩ := shelters_of_balanced h.balanced (depth + 1)
  refine ⟨linesFrom 0 (ofBytes (text.take start)),
    linesFrom (depth + 1) (ofBytes (text.toArray.extract (start + 1) finish).toList),
    linesFrom depth (ofBytes (text.drop (finish + 1))), .ofBracket depth .opening,
    .ofBracket (depth + 1) .closing, ?_, flatMap_linesFrom _ _, rfl, ?_, rfl, rfl,
    hinside.le_indent⟩
  · have hclosing := linesFrom_append_bracket (depth + 1)
      (ofBytes (text.toArray.extract (start + 1) finish).toList) .closing
      (ofBytes (text.drop (finish + 1)))
    rw [hback] at hclosing
    have hopening := linesFrom_append_bracket 0 (ofBytes (text.take start)) .opening
      (ofBytes (text.toArray.extract (start + 1) finish).toList ++
        .loopEnd :: ofBytes (text.drop (finish + 1)))
    rw [lines_eq_linesFrom, htext, hfinish, List.append_assoc, List.cons_append]
    exact hopening.trans (congrArg (_ ++ Line.ofBracket depth .opening :: ·) hclosing)
  · rw [List.flatMap_append, List.flatMap_cons, flatMap_linesFrom, flatMap_linesFrom, hfinish]
    rfl

/-- A listing shows how a text is nested, whether the text is balanced or not. It is a sequence of
lines that end in a newline, none of them blank. They show the instructions, cut wherever a bracket
stands on one side of the cut: so a bracket is alone on its line, and the instructions between two
brackets share one. Each is indented by two blanks for every loop that is open there, where a `]`
that closes nothing leaves no loop open, and a `]` counts on its own line. And the lines of two
brackets that are partners are indented alike, and all lines between them deeper. -/
theorem listing_shows_nesting (text : List UInt8) :
    ∃ shown : List Line,
      ofText text = shown.flatMap (fun line => List.replicate (2 * line.indent) 0x20 ++
        (line.instructions.map Instruction.toByte ++ [0x0a])) ∧
      (∀ line ∈ shown, line.instructions ≠ []) ∧
      (shown.map Line.instructions =
        (ofBytes text).splitBy fun before after => isPlain before && isPlain after) ∧
      (∀ front line back, shown = front ++ line :: back →
        line.indent = depthAfter 0 (front.flatMap Line.instructions ++
          line.instructions.filter (· = .loopEnd))) ∧
      ∀ start finish, partnerAfter text.toArray start = .ok finish →
        ∃ (front inner back : List Line) (opening closing : Line),
          shown = front ++ opening :: (inner ++ closing :: back) ∧
          front.flatMap Line.instructions = ofBytes (text.take start) ∧
          opening.instructions = [.loopStart] ∧
          (front ++ opening :: inner).flatMap Line.instructions = ofBytes (text.take finish) ∧
          closing.instructions = [.loopEnd] ∧
          closing.indent = opening.indent ∧ ∀ line ∈ inner, opening.indent < line.indent := by
  have hcut := map_instructions_linesFrom 0 (ofBytes text)
  refine ⟨lines (ofBytes text), rfl, fun line hline hblank => ?_, hcut,
    fun front line back hshown => ?_, fun start finish hpair => ?_⟩
  · have hmem := List.mem_map_of_mem (f := Line.instructions) hline
    rw [lines_eq_linesFrom, hcut, hblank] at hmem
    exact List.nil_notMem_splitBy _ _ hmem
  · have hindented := indented_linesFrom 0 (ofBytes text)
    rw [← lines_eq_linesFrom, hshown, indented_append] at hindented
    rw [depthAfter_append]
    exact hindented.2.1
  · exact lines_of_encloses
      (partners_iff_encloses.mp ((partnerAfter_eq_ok_iff _ _ _).mp hpair))

/-- The `]` that closes nothing in `]+[>[-]][` leaves the loop behind it at the margin, and the `[`
that is never closed changes nothing before it. -/
theorem listing_shows_nesting_between_strays :
    ∃ (text : List UInt8) (shown front inner back : List Line) (opening closing : Line),
      text = [0x5d, 0x2b, 0x5b, 0x3e, 0x5b, 0x2d, 0x5d, 0x5d, 0x5b] ∧
      shown.map Line.instructions = [[.loopEnd], [.increment], [.loopStart], [.right], [.loopStart],
        [.decrement], [.loopEnd], [.loopEnd], [.loopStart]] ∧
      partnerAfter text.toArray 2 = .ok 7 ∧
      shown = front ++ opening :: (inner ++ closing :: back) ∧ opening.instructions = [.loopStart] ∧
      front.flatMap Line.instructions = [.loopEnd, .increment] ∧
      opening.indent = 0 ∧ closing.indent = 0 ∧ ∀ line ∈ inner, 0 < line.indent := by
  have hpair : partnerAfter
      [0x5d, 0x2b, 0x5b, 0x3e, 0x5b, 0x2d, 0x5d, 0x5d, 0x5b].toArray 2 = .ok 7 := by
    decide +kernel
  obtain ⟨shown, -, -, hcut, hindent, hpairs⟩ :=
    listing_shows_nesting [0x5d, 0x2b, 0x5b, 0x3e, 0x5b, 0x2d, 0x5d, 0x5d, 0x5b]
  obtain ⟨front, inner, back, opening, closing, hshown, hfront, hopening, -, -, hlevel, hdeeper⟩ :=
    hpairs 2 7 hpair
  have hmargin : opening.indent = 0 := by
    rw [hindent front opening _ hshown, hfront, hopening]
    decide
  rw [hmargin] at hlevel hdeeper
  exact ⟨_, shown, front, inner, back, opening, closing, rfl, hcut.trans (by decide), hpair, hshown,
    hopening, hfront.trans (by decide), hmargin, hlevel, hdeeper⟩

end Listing

end ByteTape
