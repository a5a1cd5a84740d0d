import ByteTape.Proofs.Machine.Failure
import ByteTape.Proofs.Machine.Output
import Mathlib.Order.Bounds.Basic

/-!
# The itinerary of a machine

The reports of a run say where the machine has been. Each is about the first instruction from where
the one before it went on, and goes on itself right behind that instruction, or, at a bracket,
behind the `]` or the `[` of its loop as the cell it shows is zero or not. `Report.Continues` says
this of one report and `Itinerary` of all of them in order, with the position to go on from carried
along.

A comment leaves no report. It is passed over on the way to the next instruction, so an itinerary
that begins behind it is also one that begins at it (`Itinerary.of_comment`); this is why what holds
of single bytes adds up over a path.
-/

namespace ByteTape

open ByteTape.Bracket

/-- The instruction that stands at a position of a text, if one does. -/
def Instruction.at? (code : Array UInt8) (position : Nat) : Option Instruction :=
  code[position]?.bind ofByte?

/-- What a report says of a machine that was at `cursor` before it. -/
structure Report.Continues (code : Array UInt8) (cursor : Nat) (report : Report) : Prop where
  instruction_eq : Instruction.at? code report.position = some report.instruction
  /-- Between the cursor and the position of the report there are only comments. -/
  isLeast : IsLeast {position | cursor ≤ position ∧ (Instruction.at? code position).isSome}
    report.position
  cursor_of_plain (h : ofInstruction? report.instruction = none) :
    report.cursor = report.position + 1
  exists_pair {bracket : Bracket} (h : ofInstruction? report.instruction = some bracket) :
    ∃ opening closing, partnerAfter code opening = .ok closing ∧
      (report.position = opening ∨ report.position = closing)
  cursor_of_pair {opening closing : Nat} (h : partnerAfter code opening = .ok closing)
    (hposition : report.position = opening ∨ report.position = closing) :
    report.cursor = if report.cell = 0 then closing + 1 else opening + 1

namespace Machine

/-- Reports each of which continues the one before it, the first of them from `cursor`. -/
def Itinerary (code : Array UInt8) : (cursor : Nat) → List Report → Prop
  | _, [] => True
  | cursor, report :: rest => report.Continues code cursor ∧ Itinerary code report.cursor rest

/-- Where a machine that was at `cursor` goes on after some reports. -/
def goesOn (cursor : Nat) : List Report → Nat
  | [] => cursor
  | report :: rest => goesOn report.cursor rest

/-- No instruction stands between two positions. -/
def OnlyComments (code : Array UInt8) (first last : Nat) : Prop :=
  ∀ position, first ≤ position → position < last → Instruction.at? code position = none

end Machine

namespace Instruction

variable {code : Array UInt8} {position : Nat}

theorem at?_of_getElem? {instruction : Instruction}
    (h : code[position]? = some instruction.toByte) : at? code position = some instruction := by
  rw [at?, h, Option.bind_some, ofByte?_toByte]

theorem at?_of_comment {byte : UInt8} (hbyte : code[position]? = some byte)
    (h : ofByte? byte = none) : at? code position = none := by
  rw [at?, hbyte, Option.bind_some, h]

theorem at?_of_size_le (h : code.size ≤ position) : at? code position = none := by
  rw [at?, Array.getElem?_eq_none h, Option.bind_none]

end Instruction

namespace Report.Continues

/-- A report that continues from behind a comment continues from the comment too. -/
theorem of_comment {code : Array UInt8} {cursor : Nat} {report : Report}
    (h : report.Continues code (cursor + 1)) (hcomment : Instruction.at? code cursor = none) :
    report.Continues code cursor where
  instruction_eq := h.instruction_eq
  isLeast := by
    obtain ⟨⟨hle, hsome⟩, hleast⟩ := h.isLeast
    refine ⟨⟨Nat.le_of_succ_le hle, hsome⟩, ?_⟩
    rintro position ⟨hle', hsome'⟩
    apply hleast
    refine ⟨Nat.lt_of_le_of_ne hle' ?_, hsome'⟩
    rintro rfl
    rw [hcomment] at hsome'
    cases hsome'
  cursor_of_plain := h.cursor_of_plain
  exists_pair := h.exists_pair
  cursor_of_pair := h.cursor_of_pair

end Report.Continues

namespace Machine

/-- Where a bracket leads: behind the loop if the current cell is zero, and into it if not. -/
theorem Settles.onCursor_of_partners {machine : Machine} {source rest : Source} {sink left : Sink}
    {instruction : Instruction} {action : Action}
    (hbyte : machine.program.code[machine.cursor]? = some instruction.toByte)
    (h : Settles machine source sink instruction action rest left) {opening closing : Nat}
    (hpartners : Partners machine.program.code opening closing)
    (hcursor : machine.cursor = opening ∨ machine.cursor = closing) :
    action.onCursor machine.cursor =
      if (action.onTape machine.tape).current = 0 then closing + 1 else opening + 1 := by
  have hat := at?_eq_ofInstruction? hbyte
  rcases hcursor with rfl | rfl
  · rw [hpartners.opens, eq_comm, ofInstruction?_eq_some_iff] at hat
    subst hat
    cases h with
    | enter hnonzero => exact (if_neg hnonzero).symm
    | skip hzero hpartner =>
        have hsame := (partnerAfter_eq_ok_iff _ _ _).mpr hpartners
        rw [hpartner] at hsame
        cases hsame
        exact (if_pos hzero).symm
  · rw [hpartners.closes, eq_comm, ofInstruction?_eq_some_iff] at hat
    subst hat
    cases h with
    | leave hzero => exact (if_pos hzero).symm
    | again hnonzero hpartner =>
        have hsame := (partnerBefore_eq_ok_iff _ _ _).mpr hpartners
        rw [hpartner] at hsame
        cases hsame
        exact (if_neg hnonzero).symm

theorem Settles.onCursor_of_plain {machine : Machine} {source rest : Source} {sink left : Sink}
    {instruction : Instruction} {action : Action}
    (h : Settles machine source sink instruction action rest left)
    (hplain : ofInstruction? instruction = none) :
    action.onCursor machine.cursor = machine.cursor + 1 := by
  cases h with
  | skip => cases hplain
  | again => cases hplain
  | _ => rfl

theorem exists_pair_of_at? (program : Program) {position : Nat} {bracket : Bracket}
    (h : at? program.code position = some bracket) :
    ∃ opening closing, partnerAfter program.code opening = .ok closing ∧
      (position = opening ∨ position = closing) := by
  cases bracket with
  | opening =>
      obtain ⟨closing, hpartners⟩ := program.exists_partners_of_opening h
      exact ⟨position, closing, (partnerAfter_eq_ok_iff _ _ _).mpr hpartners, .inl rfl⟩
  | closing =>
      obtain ⟨opening, hpartners⟩ := program.exists_partners_of_closing h
      exact ⟨opening, position, (partnerAfter_eq_ok_iff _ _ _).mpr hpartners, .inr rfl⟩

/-- The report of an instruction continues from where the machine took it. -/
theorem Settles.continues {machine : Machine} {source rest : Source} {sink left : Sink}
    {instruction : Instruction} {action : Action}
    (hbyte : machine.program.code[machine.cursor]? = some instruction.toByte)
    (h : Settles machine source sink instruction action rest left) :
    ((machine.perform action).1.report instruction machine.cursor).Continues machine.program.code
      machine.cursor := by
  have hat := Instruction.at?_of_getElem? hbyte
  rw [perform_fst]
  exact {
    instruction_eq := hat
    isLeast := ⟨⟨Nat.le_refl _, by rw [report, hat]; rfl⟩, fun _ hposition => hposition.1⟩
    cursor_of_plain := h.onCursor_of_plain
    exists_pair := fun hbracket =>
      exists_pair_of_at? machine.program ((at?_eq_ofInstruction? hbyte).trans hbracket)
    cursor_of_pair := fun hpair hposition =>
      h.onCursor_of_partners hbyte ((partnerAfter_eq_ok_iff _ _ _).mp hpair) hposition }

section

variable {code : Array UInt8} {cursor : Nat}

theorem Itinerary.of_comment (hcomment : Instruction.at? code cursor = none) :
    {shown : List Report} → Itinerary code (cursor + 1) shown → Itinerary code cursor shown
  | [], _ => trivial
  | _ :: _, ⟨hcontinues, hrest⟩ => ⟨hcontinues.of_comment hcomment, hrest⟩

theorem OnlyComments.of_comment (hcomment : Instruction.at? code cursor = none) {last : Nat} :
    {shown : List Report} → OnlyComments code (goesOn (cursor + 1) shown) last →
      OnlyComments code (goesOn cursor shown) last
  | [], h => by
      intro position hfirst hlast
      rcases Nat.eq_or_lt_of_le hfirst with rfl | hlt
      · exact hcomment
      · exact h position hlt hlast
  | _ :: _, h => h

end

/-- The reports of a path are an itinerary, behind which only comments have been passed over. -/
theorem Path.itinerary {n : Nat} {c d : Configuration} {entries : List Entry}
    (h : Path n c entries d) {program : Program} (hprogram : c.machine.program = program) :
    Itinerary program.code c.machine.cursor (reports entries) ∧
      OnlyComments program.code (goesOn c.machine.cursor (reports entries)) d.machine.cursor := by
  induction h with
  | nil c => exact ⟨trivial, fun _ hfirst hlast => absurd hfirst (Nat.not_le.mpr hlast)⟩
  | cons hstep _ ih =>
      subst hprogram
      cases takes_of_step hstep with
      | comment hbyte hcomment =>
          obtain ⟨hitinerary, hcomments⟩ := ih rfl
          have hnone := Instruction.at?_of_comment hbyte hcomment
          exact ⟨hitinerary.of_comment hnone, hcomments.of_comment hnone⟩
      | perform hbyte hsettles =>
          have hsame := ih (by rw [perform_fst])
          rw [reports_append, reports_account]
          exact ⟨⟨hsettles.continues hbyte, hsame.1⟩, hsame.2⟩

/-- As many instructions are counted as are reported. -/
theorem Path.executed_eq {n : Nat} {c d : Configuration} {entries : List Entry}
    (h : Path n c entries d) :
    d.machine.executed = c.machine.executed + (reports entries).length := by
  induction h with
  | nil c => rfl
  | cons hstep _ ih =>
      rw [ih, reports_append, List.length_append, ← Nat.add_assoc]
      cases takes_of_step hstep with
      | comment => rfl
      | perform => rw [reports_account, perform_fst]; rfl

/-- The reports of a run are a faithful record of where the machine went. There are as many as
instructions were counted. Each names the instruction at its position, which is the first one from
where the report before went on, or from where the run began; and it goes on behind that position,
or, at a bracket of a loop, behind the loop if it shows a zero cell and behind the `[` if it does
not. If no instruction fails, the last report goes on where no instruction is left, and the run is
at the end of the program. -/
theorem reports_are_itinerary {program : Program} {bound : Nat} {verbose : Bool}
    {machine : Machine} (hrested : Rested program bound verbose machine) {fuel : Nat}
    {source : Source} {sink : Sink} {result : Run}
    (hrun : machine.run fuel source sink = some result) :
    result.machine.executed = machine.executed + (reports result.trace.toList).length ∧
    Itinerary program.code machine.cursor (reports result.trace.toList) ∧
    ∀ c trace, dispatch fuel ⟨machine, source, sink⟩ #[] = some (.ok (), c, trace) →
      (∀ position, goesOn machine.cursor (reports result.trace.toList) ≤ position →
        Instruction.at? program.code position = none) ∧
      result.machine.cursor = program.size := by
  have hinvariant := invariant_consistent program bound verbose
  have hmachine := hinvariant.rested hrested
  refine ⟨?_, ?_, fun c trace hdispatch => ?_⟩
  · obtain ⟨n, entries, e, outcome, d, -, hpath, hstops, rfl⟩ := run_eq_some_iff.mp hrun
    rw [reports_conclude, conclude_machine, hstops.machine_eq]
    exact hpath.executed_eq
  · obtain ⟨n, entries, e, outcome, d, -, hpath, hstops, rfl⟩ := run_eq_some_iff.mp hrun
    rw [reports_conclude]
    exact (hpath.itinerary hmachine.program_eq).1
  · obtain ⟨n, entries, e, -, hpath, hstops, rfl⟩ := dispatch_eq_some_iff.mp hdispatch
    have he := hinvariant.path hpath hmachine
    have hsize := hstops.size_le
    rw [he.program_eq] at hsize
    rw [run_of_dispatch hrun hdispatch, reports_conclude, conclude_machine, hstops.machine_eq]
    refine ⟨fun position hposition => ?_, Nat.le_antisymm he.cursor_le hsize⟩
    rcases Nat.lt_or_ge position program.size with hlt | hge
    · exact (hpath.itinerary hmachine.program_eq).2 position (by simpa using hposition)
        (Nat.lt_of_lt_of_le hlt hsize)
    · exact Instruction.at?_of_size_le hge

/-- In `++[x-]` the loop is gone round twice, each time over a comment behind its `[`. -/
theorem reports_are_itinerary_round_loop :
    ∃ (program : Program) (result : Run), program.text = [0x2b, 0x2b, 0x5b, 0x78, 0x2d, 0x5d] ∧
      (start program 1 false).run 10 [] {} = some result ∧
      (reports result.trace.toList).map (·.position) = [0, 1, 2, 4, 5, 4, 5] ∧
      Itinerary program.code 0 (reports result.trace.toList) ∧ result.machine.executed = 7 ∧
      result.machine.cursor = program.size := by
  obtain ⟨program, htext, c, trace, hdispatch, hpositions⟩ : ∃ program : Program,
      program.text = [0x2b, 0x2b, 0x5b, 0x78, 0x2d, 0x5d] ∧ ∃ c trace,
        dispatch 10 ⟨start program 1 false, [], {}⟩ #[] = some (.ok (), c, trace) ∧
          (reports trace.toList).map (·.position) = [0, 1, 2, 4, 5, 4, 5] :=
    ⟨⟨#[0x2b, 0x2b, 0x5b, 0x78, 0x2d, 0x5d], by decide⟩, rfl, _, _, rfl, rfl⟩
  have hrun : (start program 1 false).run 10 [] {} = some (conclude (.ok ()) c trace) := by
    rw [run, hdispatch]
    rfl
  obtain ⟨hexecuted, hitinerary, hend⟩ := reports_are_itinerary .start hrun
  rw [← reports_conclude (.ok ()) c] at hpositions
  have hcount := congrArg List.length hpositions
  rw [List.length_map] at hcount
  rw [hcount] at hexecuted
  exact ⟨program, _, htext, hrun, hpositions, hitinerary, hexecuted, (hend c trace hdispatch).2⟩

end Machine

end ByteTape
