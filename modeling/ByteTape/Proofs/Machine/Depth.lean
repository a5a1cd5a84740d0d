import ByteTape.Proofs.Bracket.Partner
import ByteTape.Proofs.Machine.Path
import ByteTape.Proofs.Tape

/-!
# Depth

A machine counts the loops it is in as it goes, but only where it enters or leaves one: a loop that
is passed over or gone round again changes the count nowhere. `Consistent` says that the count is
nevertheless the nesting of the text before the cursor. It is an invariant because the nesting on
both sides of a loop is the same, and the same after its `[` as before its `]`.
-/

namespace ByteTape

open ByteTape.Bracket

namespace Bracket

/-- The greatest nesting at a position up to some last one. -/
def peak (code : Array UInt8) : (last : Nat) → Int
  | 0 => nestingAt code 0
  | last + 1 => max (peak code last) (nestingAt code (last + 1))

theorem nestingAt_le_peak (code : Array UInt8) {position last : Nat} (h : position ≤ last) :
    nestingAt code position ≤ peak code last := by
  induction last with
  | zero =>
      obtain rfl : position = 0 := by omega
      exact Int.le_refl _
  | succ last ih =>
      rw [peak]
      rcases Nat.eq_or_lt_of_le h with heq | hlt
      · rw [heq]
        exact Int.le_max_right _ _
      · exact Int.le_trans (ih (by omega)) (Int.le_max_left _ _)

end Bracket

namespace Machine

theorem partnerAfter_of_loopStart {machine : Machine}
    (h : at? machine.program.code machine.cursor = some .opening) :
    ∃ position, partnerAfter machine.program.code machine.cursor = .ok position := by
  obtain ⟨position, hpartners⟩ := machine.program.exists_partners_of_opening h
  exact ⟨position, (partnerAfter_eq_ok_iff _ _ _).mpr hpartners⟩

theorem partnerBefore_of_loopEnd {machine : Machine}
    (h : at? machine.program.code machine.cursor = some .closing) :
    ∃ position, partnerBefore machine.program.code machine.cursor = .ok position := by
  obtain ⟨position, hpartners⟩ := machine.program.exists_partners_of_closing h
  exact ⟨position, (partnerBefore_eq_ok_iff _ _ _).mpr hpartners⟩

/-- An instruction of a program only fails in the source or in the sink. -/
theorem Fails.exists_io {machine : Machine} {source rest : Source} {sink left : Sink}
    {instruction : Instruction} {error : Error}
    (hbyte : machine.program.code[machine.cursor]? = some instruction.toByte)
    (h : Fails machine source sink instruction error rest left) :
    ∃ cause, error = .io cause := by
  have hat := at?_eq_ofInstruction? hbyte
  cases h with
  | refused => exact ⟨_, rfl⟩
  | unread => exact ⟨_, rfl⟩
  | unclosed _ hnone =>
      obtain ⟨position, hsome⟩ := partnerAfter_of_loopStart hat
      rw [hsome] at hnone
      cases hnone
  | unopened _ hnone =>
      obtain ⟨position, hsome⟩ := partnerBefore_of_loopEnd hat
      rw [hsome] at hnone
      cases hnone

theorem Stops.exists_io {c d : Configuration} {error : Error} (h : Stops c (.error error) d) :
    ∃ cause, error = .io cause := by
  cases h with
  | failed h =>
      cases takes_of_step h with
      | fail hbyte hfails => exact hfails.exists_io hbyte

/-- A machine that fits its program: the cursor is in the text, and the depth is the nesting of what
stands before it. -/
structure Consistent (program : Program) (bound : Nat) (verbose : Bool) (machine : Machine) :
    Prop where
  program_eq : machine.program = program
  verbose_eq : machine.verbose = verbose
  bound_eq : machine.tape.bound = max bound 1
  cursor_le : machine.cursor ≤ program.size
  depth_eq : (machine.depth : Int) = nestingAt program.code machine.cursor

theorem onTape_bound (action : Action) (tape : Tape) : (action.onTape tape).bound = tape.bound := by
  cases action <;> simp

theorem consistent_start (program : Program) (bound : Nat) (verbose : Bool) :
    Consistent program bound verbose (start program bound verbose) where
  program_eq := rfl
  verbose_eq := rfl
  bound_eq := rfl
  cursor_le := Nat.zero_le _
  depth_eq := rfl

theorem cursor_depth_of_settles {program : Program} {machine : Machine} {source rest : Source}
    {sink left : Sink} {instruction : Instruction} {action : Action}
    (hprogram : machine.program = program)
    (hdepth : (machine.depth : Int) = nestingAt program.code machine.cursor)
    (hbyte : machine.program.code[machine.cursor]? = some instruction.toByte)
    (h : Settles machine source sink instruction action rest left) :
    action.onCursor machine.cursor ≤ program.size ∧
      (action.onDepth machine.depth : Int) =
        nestingAt program.code (action.onCursor machine.cursor) := by
  subst hprogram
  have hlt : machine.cursor < machine.program.size := Array.getElem?_eq_some_iff.mp hbyte |>.1
  have hat := at?_eq_ofInstruction? hbyte
  cases h with
  | enter _ =>
      have hstep := nestingAt_succ_of_opening hat
      refine ⟨hlt, ?_⟩
      simp only [Action.onDepth, Action.onCursor]
      omega
  | leave _ =>
      have hstep := nestingAt_succ_of_closing hat
      have hnonneg := machine.program.nestingAt_nonneg (machine.cursor + 1)
      refine ⟨hlt, ?_⟩
      simp only [Action.onDepth, Action.onCursor]
      omega
  -- The count stays as it is over a jump, and so does the nesting: a loop is as deep behind it as
  -- before it, and as deep after its `[` as before its `]`.
  | skip _ hpartner =>
      have hpartners := (partnerAfter_eq_ok_iff _ _ _).mp hpartner
      refine ⟨lt_size_of_at? hpartners.closes, ?_⟩
      simp only [Action.onDepth, Action.onCursor]
      rw [hpartners.nestingAt_finish_succ, hdepth]
  | again _ hpartner =>
      have hpartners := (partnerBefore_eq_ok_iff _ _ _).mp hpartner
      refine ⟨lt_size_of_at? hpartners.opens, ?_⟩
      simp only [Action.onDepth, Action.onCursor]
      rw [← hpartners.level, hdepth]
  | _ =>
      refine ⟨hlt, ?_⟩
      simp only [Action.onDepth, Action.onCursor]
      rw [nestingAt_succ_of_none hat, hdepth]

theorem Consistent.advance {program : Program} {bound : Nat} {verbose : Bool}
    {c d : Configuration} {entries : List Entry}
    (hc : Consistent program bound verbose c.machine) (hstep : step c = .advanced d entries) :
    Consistent program bound verbose d.machine := by
  obtain ⟨hprogram, hverbose, hbound, hcursor, hdepth⟩ := hc
  cases takes_of_step hstep with
  | comment hbyte hcomment =>
      rw [hprogram] at hbyte
      have hlt : c.machine.cursor < program.size := Array.getElem?_eq_some_iff.mp hbyte |>.1
      refine ⟨hprogram, hverbose, hbound, hlt, ?_⟩
      rw [nestingAt_succ_of_none (at?_eq_none_of_comment hbyte hcomment)]
      exact hdepth
  | perform hbyte hsettles =>
      obtain ⟨hcursor', hdepth'⟩ := cursor_depth_of_settles hprogram hdepth hbyte hsettles
      rw [perform_fst]
      exact ⟨hprogram, hverbose, (onTape_bound _ _).trans hbound, hcursor', hdepth'⟩

theorem invariant_consistent (program : Program) (bound : Nat) (verbose : Bool) :
    Invariant program bound verbose (Consistent program bound verbose) where
  start := consistent_start program bound verbose
  advance := Consistent.advance
  clear h := ⟨h.program_eq, h.verbose_eq, h.bound_eq, h.cursor_le, h.depth_eq⟩

/-- A run leaves the machine with its program. -/
theorem program_of_run {program : Program} {bound fuel : Nat} {verbose : Bool} {source : Source}
    {sink : Sink} {result : Run}
    (hrun : (start program bound verbose).run fuel source sink = some result) :
    result.machine.program = program :=
  ((invariant_consistent program bound verbose).rested (.run .start hrun)).program_eq

/-- The count of loops is right wherever a machine can get. So leaving a loop never finds the count
at zero, every report shows the nesting at its cursor, the count stays within the greatest nesting
of the program, and a run that comes to the end of the program leaves it at zero. -/
theorem depth_eq_nestingAt (program : Program) (bound : Nat) (verbose : Bool) :
    (∀ c, Reached program bound verbose c →
      (c.machine.depth : Int) = nestingAt program.code c.machine.cursor ∧
      (at? program.code c.machine.cursor = some .closing → 0 < c.machine.depth) ∧
      (∀ d entries, step c = .advanced d entries → ∀ report, .report report ∈ entries →
        (report.depth : Int) = nestingAt program.code report.cursor) ∧
      (c.machine.depth : Int) ≤ peak program.code program.size) ∧
    ∀ fuel machine source sink result halted, Rested program bound verbose machine →
      machine.run fuel source sink = some result → result.result = .ok halted →
      result.machine.depth = 0 := by
  have hinvariant := invariant_consistent program bound verbose
  refine ⟨fun c hreached => ?_, fun fuel machine source sink result halted hrested hrun hok => ?_⟩
  · have hc := hinvariant.reached hreached
    refine ⟨hc.depth_eq, fun hat => ?_, fun d entries hstep report hmem => ?_, ?_⟩
    · have hstep := nestingAt_succ_of_closing hat
      have hnonneg := program.nestingAt_nonneg (c.machine.cursor + 1)
      have hdepth := hc.depth_eq
      omega
    · obtain ⟨instruction, rfl⟩ := report_of_step hstep hmem
      exact (hc.advance hstep).depth_eq
    · rw [hc.depth_eq]
      exact nestingAt_le_peak _ hc.cursor_le
  · obtain ⟨n, entries, e, outcome, d, -, hpath, hstops, rfl⟩ := run_eq_some_iff.mp hrun
    have he := hinvariant.path hpath (hinvariant.rested hrested)
    obtain rfl := outcome_of_conclude_ok hok
    have hdepth := he.depth_eq
    have hsize := hstops.size_le
    rw [he.program_eq] at hsize
    rw [program.nestingAt_of_size_le hsize] at hdepth
    rw [conclude_machine, hstops.machine_eq]
    exact Int.ofNat_eq_zero.mp hdepth

/-- In `++[-]` the count is right in the second round of the loop, and zero when the run ends. -/
theorem depth_of_repeated_loop :
    ∃ (program : Program) (c : Configuration) (result : Run) (halted : Halted),
      program.text = [0x2b, 0x2b, 0x5b, 0x2d, 0x5d] ∧
      Reached program 8 false c ∧ c.machine.cursor = 3 ∧ c.machine.executed = 5 ∧
      (c.machine.depth : Int) = nestingAt program.code 3 ∧
      (start program 8 false).run 8 [] {} = some result ∧ result.result = .ok halted ∧
      result.machine.depth = 0 := by
  let program : Program := ⟨#[0x2b, 0x2b, 0x5b, 0x2d, 0x5d], by decide⟩
  have hreached : Reached program 8 false _ :=
    .advance (.advance (.advance (.advance (.advance (.begin .start [] {})
      rfl) rfl) rfl) rfl) rfl
  have hdepth := depth_eq_nestingAt program 8 false
  have hrun : (start program 8 false).run 8 [] {} = some _ := rfl
  have hok (machine : Machine) (trace : Array Entry) (hbuffer : machine.buffer = #[]) :
      (conclude (.ok ()) ⟨machine, [], {}⟩ trace).result = .ok machine.halted := by
    simp [conclude, deliver, hbuffer, Sink.writeAll, Sink.flush, halted]
  exact ⟨program, _, _, _, rfl, hreached, rfl, rfl, (hdepth.1 _ hreached).1, hrun, hok _ _ rfl,
    hdepth.2 8 _ [] {} _ _ .start hrun (hok _ _ rfl)⟩

end Machine

end ByteTape
