import ByteTape.Proofs.Bracket.Comment
import ByteTape.Proofs.Machine.Halting
import ByteTape.Proofs.Machine.Itinerary

/-!
# Progress

Every byte leaves the cursor further on than it was, but for a `]` that sends it back to its `[`. So
a run can only go on for long by going round loops. `Path.length_le` says so of the bytes it takes,
comments included, and `Itinerary.length_le` of the instructions it reports: each time a loop goes
round again the run gains no more than the length of the program, or the number of its instructions.

Both are amortised counts. What is weighed against the steps is how far on the cursor is, in bytes
or in instructions; a loop that goes round again gives that up, and nothing else does.
-/

namespace ByteTape

open ByteTape.Bracket

/-- Whether a report is of a loop that goes round again: of a `]` where the cell is not zero. -/
def Report.isRepeat (report : Report) : Bool :=
  report.instruction == .loopEnd && report.cell != 0

namespace Machine

/-- How often a loop goes round again. -/
def repeats (entries : List Entry) : Nat := (reports entries).countP Report.isRepeat

end Machine

theorem Instruction.getElem?_of_at? {code : Array UInt8} {position : Nat}
    {instruction : Instruction} (h : at? code position = some instruction) :
    code[position]? = some instruction.toByte := by
  obtain ⟨byte, hbyte, hinstruction⟩ := Option.bind_eq_some_iff.mp h
  rw [hbyte, (ofByte?_eq_some_iff byte instruction).mp hinstruction]

namespace Report.Continues

variable {code : Array UInt8} {cursor : Nat} {report : Report}

/-- A report goes on behind its position, unless a loop goes round again. -/
theorem lt_cursor (h : report.Continues code cursor) (hrepeat : report.isRepeat = false) :
    report.position < report.cursor := by
  rcases hbracket : ofInstruction? report.instruction with _ | bracket
  · rw [h.cursor_of_plain hbracket]
    exact Nat.lt_succ_self _
  · obtain ⟨opening, closing, hpair, hposition⟩ := h.exists_pair hbracket
    have hpartners := (partnerAfter_eq_ok_iff _ _ _).mp hpair
    have hlt := hpartners.lt
    rw [h.cursor_of_pair hpair hposition]
    by_cases hzero : report.cell = 0
    · rw [if_pos hzero]
      omega
    · rw [if_neg hzero]
      -- At the `]` the loop would go round again, so this is the `[`.
      have hopening : report.position = opening := by
        refine hposition.resolve_right fun hclosing => ?_
        have hat := at?_eq_ofInstruction? (Instruction.getElem?_of_at? h.instruction_eq)
        rw [hclosing, hpartners.closes, eq_comm, ofInstruction?_eq_some_iff] at hat
        simp [isRepeat, hat, toInstruction, hzero] at hrepeat
      omega

theorem rank_position_succ (h : report.Continues code cursor) :
    Instruction.rank code (report.position + 1) = Instruction.rank code report.position + 1 :=
  Instruction.rank_succ (Instruction.getElem?_of_at? h.instruction_eq)

end Report.Continues

namespace Machine

theorem Itinerary.of_append {code : Array UInt8} {cursor : Nat} {front back : List Report}
    (h : Itinerary code cursor (front ++ back)) :
    Itinerary code cursor front ∧ Itinerary code (goesOn cursor front) back := by
  induction front generalizing cursor with
  | nil => exact ⟨trivial, h⟩
  | cons report front ih =>
      obtain ⟨hfront, hback⟩ := ih h.2
      exact ⟨⟨h.1, hfront⟩, hback⟩

/-- Until a loop goes round again, the positions of the reports go up. -/
theorem Itinerary.pairwise_lt {code : Array UInt8} {cursor : Nat} {shown : List Report}
    (h : Itinerary code cursor shown)
    (hrepeat : ∀ report ∈ shown.dropLast, report.isRepeat = false) :
    (∀ report ∈ shown, cursor ≤ report.position) ∧
      shown.Pairwise (fun earlier later => earlier.position < later.position) := by
  induction shown generalizing cursor with
  | nil => simp
  | cons report rest ih =>
      obtain ⟨hcontinues, hrest⟩ := h
      cases rest with
      | nil => simpa using hcontinues.isLeast.1.1
      | cons next rest =>
          rw [List.dropLast_cons_cons, List.forall_mem_cons] at hrepeat
          obtain ⟨hle, hpairwise⟩ := ih hrest hrepeat.2
          have hlt := hcontinues.lt_cursor hrepeat.1
          have hafter : ∀ later ∈ next :: rest, report.position < later.position :=
            fun later hlater => Nat.lt_of_lt_of_le hlt (hle later hlater)
          have hfirst := hcontinues.isLeast.1.1
          refine ⟨?_, List.pairwise_cons.mpr ⟨hafter, hpairwise⟩⟩
          rw [List.forall_mem_cons]
          exact ⟨hfirst, fun later hlater =>
            Nat.le_of_lt (Nat.lt_of_le_of_lt hfirst (hafter later hlater))⟩

/-- An itinerary has no more reports than it passes instructions, and it passes all of them again at
most once for each time that a loop goes round again. -/
theorem Itinerary.length_le (program : Program) {cursor : Nat} {shown : List Report}
    (h : Itinerary program.code cursor shown) :
    shown.length + Instruction.rank program.code cursor ≤
      shown.countP Report.isRepeat * program.instructionCount +
        Instruction.rank program.code (goesOn cursor shown) := by
  induction shown generalizing cursor with
  | nil => simp [goesOn]
  | cons report rest ih =>
      obtain ⟨hcontinues, hrest⟩ := h
      have hbefore := Instruction.rank_mono program.code hcontinues.isLeast.1.1
      have hhere := hcontinues.rank_position_succ
      have hothers := ih hrest
      rw [goesOn, List.length_cons]
      cases hrepeat : report.isRepeat with
      | true =>
          have hall := program.rank_le_instructionCount (report.position + 1)
          rw [List.countP_cons_of_pos hrepeat, Nat.succ_mul]
          omega
      | false =>
          have hlt : report.position + 1 ≤ report.cursor := hcontinues.lt_cursor hrepeat
          have hnext := Instruction.rank_mono program.code hlt
          rw [List.countP_cons_of_neg (by simp [hrepeat])]
          omega

theorem repeats_append (front back : List Entry) :
    repeats (front ++ back) = repeats front + repeats back := by
  rw [repeats, reports_append, List.countP_append, repeats, repeats]

/-- A byte takes the cursor on, or a loop goes round again. -/
theorem progress_of_step {c d : Configuration} {entries : List Entry}
    (hstep : step c = .advanced d entries) :
    repeats entries = 0 ∧ c.machine.cursor < d.machine.cursor ∨
      repeats entries = 1 ∧ c.machine.cursor < c.machine.program.size := by
  cases takes_of_step hstep with
  | comment => exact .inl ⟨rfl, Nat.lt_succ_self _⟩
  | @perform instruction action _ _ hbyte hsettles =>
      rw [repeats, reports_account, List.countP_singleton]
      cases hrepeat : Report.isRepeat
          ((c.machine.perform action).1.report instruction c.machine.cursor) with
      | true => exact .inr ⟨rfl, (Array.getElem?_eq_some_iff.mp hbyte).1⟩
      | false => exact .inl ⟨rfl, (hsettles.continues hbyte).lt_cursor hrepeat⟩

/-- A path takes no more bytes than it passes, and it passes all of them again at most once for each
time that a loop goes round again. -/
theorem Path.length_le {n : Nat} {c d : Configuration} {entries : List Entry}
    (h : Path n c entries d) {program : Program} (hprogram : c.machine.program = program) :
    n + c.machine.cursor ≤ repeats entries * program.size + d.machine.cursor := by
  induction h with
  | nil c => simp [repeats]
  | cons hstep _ ih =>
      have hothers := ih ((program_of_step hstep).trans hprogram)
      rw [repeats_append]
      rcases progress_of_step hstep with ⟨hrepeats, hlt⟩ | ⟨hrepeats, hlt⟩
      · rw [hrepeats, Nat.zero_add]
        omega
      · rw [hrepeats, Nat.add_mul, Nat.one_mul]
        rw [hprogram] at hlt
        omega

/-- A run of `n` bytes in which no more than `k` loops go round again has come to the end of its
program, if `n` is as great as the bound. -/
theorem Path.size_le_cursor {program : Program} {k n : Nat} {c d : Configuration}
    {entries : List Entry} (h : Path n c entries d) (hprogram : c.machine.program = program)
    (hrepeats : repeats entries ≤ k) (hn : (k + 1) * program.size ≤ n) :
    program.size ≤ d.machine.cursor := by
  have hlength := h.length_le hprogram
  have hpassed := Nat.mul_le_mul_right program.size hrepeats
  rw [Nat.succ_mul] at hn
  omega

/-- As many instructions are executed as the reports between two rounds can name, and no more. -/
theorem Path.executed_le {n : Nat} {c d : Configuration} {entries : List Entry}
    (h : Path n c entries d) {program : Program} (hprogram : c.machine.program = program) :
    d.machine.executed ≤
      c.machine.executed + (repeats entries + 1) * program.instructionCount := by
  have hlength := (h.itinerary hprogram).1.length_le program
  have hall := program.rank_le_instructionCount (goesOn c.machine.cursor (reports entries))
  rw [h.executed_eq, Nat.succ_mul, repeats]
  omega

end Machine

/-- A program without brackets. -/
def Program.IsStraight (program : Program) : Prop :=
  ∀ byte ∈ program.text, Bracket.ofByte? byte = none

instance (program : Program) : Decidable program.IsStraight :=
  List.decidableBAll (fun byte => Bracket.ofByte? byte = none) program.text

theorem Program.IsStraight.ofInstruction?_eq_none {program : Program} (h : program.IsStraight)
    {position : Nat} {instruction : Instruction}
    (hbyte : program.code[position]? = some instruction.toByte) :
    ofInstruction? instruction = none := by
  have hnone := h _ (Array.mem_toList_iff.mpr (Array.mem_of_getElem? hbyte))
  rwa [Bracket.ofByte?, Instruction.ofByte?_toByte, Option.bind_some] at hnone

namespace Machine

/-- Without brackets the instructions executed so far are those before the cursor. -/
theorem invariant_straight {program : Program} (hstraight : program.IsStraight) (bound : Nat)
    (verbose : Bool) :
    Invariant program bound verbose fun machine => machine.program = program ∧
      machine.executed = Instruction.rank program.code machine.cursor where
  start := ⟨rfl, rfl⟩
  advance h hstep := by
    obtain ⟨hprogram, hexecuted⟩ := h
    refine ⟨(program_of_step hstep).trans hprogram, ?_⟩
    cases takes_of_step hstep with
    | comment hbyte hcomment =>
        rw [hprogram] at hbyte
        rw [Instruction.rank_succ_of_comment hbyte hcomment]
        exact hexecuted
    | perform hbyte hsettles =>
        rw [hprogram] at hbyte
        rw [perform_fst, hsettles.onCursor_of_plain (hstraight.ofInstruction?_eq_none hbyte),
          Instruction.rank_succ hbyte, hexecuted]
  clear h := h

theorem repeats_of_straight {program : Program} (hstraight : program.IsStraight)
    {c d : Configuration} (hprogram : c.machine.program = program) {entries : List Entry}
    (hstep : step c = .advanced d entries) : repeats entries = 0 := by
  subst hprogram
  cases takes_of_step hstep with
  | comment => rfl
  | @perform instruction _ _ _ hbyte _ =>
      rw [repeats, reports_account, List.countP_eq_zero]
      intro report hreport
      obtain rfl := List.mem_singleton.mp hreport
      have hplain := hstraight.ofInstruction?_eq_none hbyte
      intro hrepeat
      rw [Report.isRepeat, Bool.and_eq_true, beq_iff_eq] at hrepeat
      have hend : instruction = .loopEnd := hrepeat.1
      subst hend
      cases hplain

theorem Path.repeats_of_straight {program : Program} (hstraight : program.IsStraight) {n : Nat}
    {c d : Configuration} {entries : List Entry} (h : Path n c entries d)
    (hprogram : c.machine.program = program) : repeats entries = 0 := by
  induction h with
  | nil c => rfl
  | cons hstep _ ih =>
      rw [repeats_append, Machine.repeats_of_straight hstraight hprogram hstep,
        ih ((program_of_step hstep).trans hprogram)]

/-- A program without brackets comes to its end if nothing fails, in no more steps than it has bytes
and one to find the end. -/
theorem exists_run_of_straight {program : Program} (hstraight : program.IsStraight) {bound : Nat}
    {verbose : Bool} {machine : Machine} (hrested : Rested program bound verbose machine)
    {source : Source} {sink : Sink} (hsource : source.Unfailing) (hsink : sink.Unfailing) :
    ∃ result halted, machine.run (program.size + 1) source sink = some result ∧
      result.result = .ok halted := by
  have hprogram := ((invariant_consistent program bound verbose).rested hrested).program_eq
  cases hrun : machine.run (program.size + 1) source sink with
  | some result =>
      obtain ⟨halted, hhalted⟩ := exists_halted_of_unfailing hrun hsource hsink
      exact ⟨result, halted, rfl, hhalted⟩
  | none =>
      obtain ⟨entries, d, hpath⟩ := run_eq_none_iff.mp hrun
      obtain ⟨front, back, e, hfront, hback, -⟩ := hpath.split
      have hrepeats := hfront.repeats_of_straight hstraight hprogram
      have hend := hfront.size_le_cursor hprogram (Nat.le_of_eq hrepeats) (by simp)
      have he := (invariant_straight hstraight bound verbose).path hfront
        ((invariant_straight hstraight bound verbose).rested hrested)
      cases hback with
      | cons hstep _ =>
          rw [step_of_size_le (by rwa [he.1])] at hstep
          cases hstep

/-- Only a loop that goes round again can keep a run going. Whatever the machine, the source and the
sink, after `k + 1` times as many bytes as the program has, or before, the run has gone round loops
again more than `k` times, or it has come to the end of the program, or an instruction fails with
one of these bytes. Until a loop goes round again the positions of the reports go up, so a run has
no more than `k + 1` times as many instructions as the program if loops go round again `k` times.
And a program without brackets halts if nothing fails, with each of its instructions executed
once. -/
theorem only_repeats_prolong {program : Program} {bound : Nat} {verbose : Bool} {machine : Machine}
    (hrested : Rested program bound verbose machine) (source : Source) (sink : Sink) :
    (∀ k, ∃ n entries c, n ≤ (k + 1) * program.size ∧ Path n ⟨machine, source, sink⟩ entries c ∧
      (k < repeats entries ∨ (∃ d, Stops c (.ok ()) d) ∨
        n < (k + 1) * program.size ∧ ∃ error d, Stops c (.error error) d)) ∧
    (∀ n entries c, Path n ⟨machine, source, sink⟩ entries c →
      (∀ front stretch back, reports entries = front ++ stretch ++ back →
        (∀ report ∈ stretch.dropLast, report.isRepeat = false) →
        stretch.Pairwise fun earlier later => earlier.position < later.position) ∧
      c.machine.executed ≤ machine.executed + (repeats entries + 1) * program.instructionCount) ∧
    (∀ fuel result, machine.run fuel source sink = some result →
      result.machine.executed ≤
        machine.executed + (repeats result.trace.toList + 1) * program.instructionCount) ∧
    (program.IsStraight → source.Unfailing → sink.Unfailing →
      ∃ result halted, machine.run (program.size + 1) source sink = some result ∧
        result.result = .ok halted ∧ result.machine.cursor = program.size ∧
        result.machine.executed = program.instructionCount) := by
  have hconsistent := invariant_consistent program bound verbose
  have hmachine := hconsistent.rested hrested
  have hprogram := hmachine.program_eq
  refine ⟨fun k => ?_, fun n entries c hpath => ⟨fun front stretch back hreports hrepeat => ?_, ?_⟩,
    fun fuel result hrun => ?_, fun hstraight hsource hsink => ?_⟩
  · cases hdispatch : dispatch ((k + 1) * program.size) ⟨machine, source, sink⟩ #[] with
    | none =>
        obtain ⟨entries, d, hpath⟩ := dispatch_eq_none_iff.mp hdispatch
        refine ⟨_, entries, d, Nat.le_refl _, hpath, ?_⟩
        rcases Nat.lt_or_ge k (repeats entries) with hmany | hfew
        · exact .inl hmany
        · have hend := hpath.size_le_cursor hprogram hfew (Nat.le_refl _)
          rw [← (hconsistent.path hpath hmachine).program_eq] at hend
          exact .inr (.inl ⟨d, .halted (step_of_size_le hend)⟩)
    | some stopped =>
        obtain ⟨outcome, d, trace⟩ := stopped
        obtain ⟨n, entries, e, hlt, hpath, hstops, -⟩ := dispatch_eq_some_iff.mp hdispatch
        refine ⟨n, entries, e, Nat.le_of_lt hlt, hpath, .inr ?_⟩
        cases outcome with
        | ok => exact .inl ⟨d, hstops⟩
        | error error => exact .inr ⟨hlt, error, d, hstops⟩
  · have hitinerary := (hpath.itinerary hprogram).1
    rw [hreports, List.append_assoc] at hitinerary
    exact (hitinerary.of_append.2.of_append.1.pairwise_lt hrepeat).2
  · exact hpath.executed_le hprogram
  · obtain ⟨n, entries, e, outcome, d, -, hpath, hstops, rfl⟩ := run_eq_some_iff.mp hrun
    rw [repeats, reports_conclude, conclude_machine, hstops.machine_eq]
    exact hpath.executed_le hprogram
  · obtain ⟨result, halted, hrun, hhalted⟩ :=
      exists_run_of_straight hstraight hrested hsource hsink
    obtain ⟨n, entries, e, outcome, d, -, hpath, hstops, rfl⟩ := run_eq_some_iff.mp hrun
    obtain rfl := outcome_of_conclude_ok hhalted
    have hinvariant := invariant_straight hstraight bound verbose
    have he := hconsistent.path hpath hmachine
    have hsize := hstops.size_le
    rw [he.program_eq] at hsize
    have hcursor := Nat.le_antisymm he.cursor_le hsize
    have hexecuted := (hinvariant.path hpath (hinvariant.rested hrested)).2
    rw [hcursor, program.rank_size] at hexecuted
    refine ⟨_, halted, hrun, hhalted, ?_⟩
    rw [conclude_machine, hstops.machine_eq]
    exact ⟨hcursor, hexecuted⟩

/-- The loop of `++[-]` goes round again once, and seven instructions are executed where ten would
be the most. `+x,.` fails to read and is then resumed, with each instruction executed once. -/
theorem only_repeats_prolong_past_failed_read :
    ∃ (looped straight : Program) (result failed resumed : Run) (halted : Halted),
      looped.text = [0x2b, 0x2b, 0x5b, 0x2d, 0x5d] ∧ looped.instructionCount = 5 ∧
      (start looped 1 false).run 8 [] {} = some result ∧ repeats result.trace.toList = 1 ∧
      result.machine.executed ≤ 10 ∧
      straight.text = [0x2b, 0x78, 0x2c, 0x2e] ∧ straight.IsStraight ∧
      (start straight 1 false).run 3 [.failure "gone"] {} = some failed ∧
      failed.result = .error (.io "gone") ∧
      Source.Unfailing [.interrupt, .endOfInput] ∧
      Sink.Unfailing { chunk := some 1, interrupts := 2 } ∧
      failed.machine.run 5 [.interrupt, .endOfInput] { chunk := some 1, interrupts := 2 } =
        some resumed ∧
      resumed.result = .ok halted ∧ resumed.machine.cursor = 4 ∧ resumed.machine.executed = 3 := by
  obtain ⟨looped, hlooped, hcount, c, trace, hrun, hrepeats⟩ : ∃ looped : Program,
      looped.text = [0x2b, 0x2b, 0x5b, 0x2d, 0x5d] ∧ looped.instructionCount = 5 ∧ ∃ c trace,
        (start looped 1 false).run 8 [] {} = some (conclude (.ok ()) c trace) ∧
          repeats trace.toList = 1 :=
    ⟨⟨#[0x2b, 0x2b, 0x5b, 0x2d, 0x5d], by decide⟩, rfl, rfl, _, _, rfl, rfl⟩
  rw [repeats, ← reports_conclude (.ok ()) c] at hrepeats
  let straight : Program := ⟨#[0x2b, 0x78, 0x2c, 0x2e], by decide⟩
  have hstraight : straight.IsStraight := by decide
  obtain ⟨failed, hfailed, hresult⟩ : ∃ failed,
      (start straight 1 false).run 3 [.failure "gone"] {} = some failed ∧
        failed.result = .error (.io "gone") := ⟨_, rfl, rfl⟩
  have hsource : Source.Unfailing [.interrupt, .endOfInput] := by
    simp [Source.Unfailing, Source.items]
  have hsink : Sink.Unfailing { chunk := some 1, interrupts := 2 } := ⟨⟨rfl, by simp⟩, rfl⟩
  have hexecuted := (only_repeats_prolong .start [] {}).2.2.1 8 _ hrun
  obtain ⟨resumed, halted, hresumed, hhalted, hcursor, hexecuted'⟩ :=
    (only_repeats_prolong (.run .start hfailed) [.interrupt, .endOfInput]
      { chunk := some 1, interrupts := 2 }).2.2.2 hstraight hsource hsink
  rw [repeats, hrepeats, hcount] at hexecuted
  exact ⟨looped, straight, _, failed, resumed, halted, hlooped, hcount, hrun, hrepeats, hexecuted,
    rfl, hstraight, hfailed, hresult, hsource, hsink, hresumed, hhalted, hcursor, hexecuted'⟩

end Machine

end ByteTape
