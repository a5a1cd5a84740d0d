import ByteTape.Proofs.Bracket.Comment
import ByteTape.Proofs.Machine.Depth
import ByteTape.Proofs.Tape.Stroke

/-!
# Transfer loops

A loop whose body only moves the pointer about and counts cells up and down, comes back to where it
started, and takes one from the cell there, goes round as often as that cell says. It empties the
cell and adds to the others, for each round, what one round adds: it transfers the cell.

What one round does to the tape is known from its strokes (`Tape.Repeats.one`). The machine takes a
round as one path, which ends behind the loop if the cell is zero then and behind its `[` if not
(`exists_path_of_round`); by induction on the cell it takes as many rounds as there are in it
(`exists_path_of_rounds`).
-/

namespace ByteTape

open ByteTape.Bracket ByteTape.Instruction

/-- A loop body that transfers the cell at `pointer` on a tape of at most `bound` cells: it comes
back, stays on the tape, and takes one from the cell. -/
structure Stroke.Transfers (bound pointer : Nat) (body : List Stroke) : Prop where
  back : travel body = 0
  range : ∀ place ∈ offsets 0 body, 0 ≤ (pointer : Int) + place ∧ (pointer : Int) + place < bound
  spends : change 0 0 body = -1

namespace Stroke

namespace Transfers

variable {tape : Tape} {body : List Stroke}

theorem repeats_one (h : Transfers tape.bound tape.pointer body) :
    Tape.Repeats body 1 tape (tape.performAll body) := Tape.Repeats.one h.back h.range

/-- What is left in the cell after a round. -/
theorem toNat_current (h : Transfers tape.bound tape.pointer body) {rounds : Nat}
    (hcurrent : tape.current.toNat = rounds + 1) :
    (tape.performAll body).current.toNat = rounds := by
  have hle : 1 ≤ tape.current := by
    rw [UInt8.le_iff_toNat_le, hcurrent]
    exact Nat.le_add_left 1 rounds
  have hone : UInt8.ofNat 1 = 1 := rfl
  rw [h.repeats_one.current_eq, h.spends, hone, UInt8.one_mul, ← UInt8.sub_eq_add_neg,
    UInt8.toNat_sub_of_le _ _ hle, hcurrent]
  rfl

theorem performAll (h : Transfers tape.bound tape.pointer body) :
    Transfers (tape.performAll body).bound (tape.performAll body).pointer body := by
  rwa [h.repeats_one.bound_eq, h.repeats_one.pointer_eq]

end Transfers

/-- What a stroke comes to. -/
def toAction : Stroke → Action
  | right => .moveRight
  | left => .moveLeft
  | increment => .increment
  | decrement => .decrement

theorem settles (stroke : Stroke) (machine : Machine) (source : Source) (sink : Sink) :
    Machine.Settles machine source sink stroke.toInstruction stroke.toAction source sink := by
  cases stroke <;> constructor

end Stroke

namespace Machine

theorem perform_stroke (machine : Machine) (stroke : Stroke) :
    (machine.perform stroke.toAction).1 =
      { machine with
        tape := machine.tape.perform stroke
        cursor := machine.cursor + 1
        executed := machine.executed + 1 } := by
  rw [perform_fst]
  cases stroke <;> simp [Stroke.toAction, Tape.perform]

/-- The instructions that some entries report. -/
def instructions (entries : List Entry) : List Instruction :=
  (reports entries).map (·.instruction)

theorem instructions_append (front back : List Entry) :
    instructions (front ++ back) = instructions front ++ instructions back := by
  rw [instructions, reports_append, List.map_append]
  rfl

@[simp] theorem instructions_account (machine : Machine) (instruction : Instruction)
    (action : Action) : instructions (machine.account instruction action) = [instruction] := by
  rw [instructions, reports_account]
  rfl

theorem exists_path_of_settles {machine : Machine} {source rest : Source} {sink left : Sink}
    {instruction : Instruction} {action : Action}
    (hbyte : machine.program.code[machine.cursor]? = some instruction.toByte)
    (h : Settles machine source sink instruction action rest left) :
    ∃ entries,
      Path 1 ⟨machine, source, sink⟩ entries ⟨(machine.perform action).1, rest, left⟩ ∧
      instructions entries = [instruction] :=
  ⟨_, .single (step_of_settles hbyte h), instructions_account machine instruction action⟩

/-- The text from a position on begins with the byte that stands there. -/
theorem extract_eq_cons {code : Array UInt8} {first last : Nat} (hlt : first < last) {byte : UInt8}
    (h : code[first]? = some byte) :
    (code.extract first last).toList = byte :: (code.extract (first + 1) last).toList := by
  obtain ⟨hsize, rfl⟩ := Array.getElem?_eq_some_iff.mp h
  obtain ⟨rest, rfl⟩ : ∃ rest, last = first + (rest + 1) := ⟨last - first - 1, by omega⟩
  have hrest : first + (rest + 1) - (first + 1) = rest := by omega
  rw [Array.toList_extract, Array.toList_extract, List.extract_eq_take_drop,
    List.extract_eq_take_drop, hrest, Nat.add_sub_cancel_left,
    List.drop_eq_getElem_cons (by simpa using hsize), List.take_succ_cons, Array.getElem_toList]

/-- Where strokes stand in the text, with comments between them, the machine performs them. -/
theorem exists_path_of_strokes (machine : Machine) {strokes : List Stroke} {steps : Nat}
    (hend : machine.cursor + steps ≤ machine.program.size)
    (htext : ofBytes (machine.program.code.extract machine.cursor (machine.cursor + steps)).toList =
      strokes.map Stroke.toInstruction) (source : Source) (sink : Sink) :
    ∃ entries,
      Path steps ⟨machine, source, sink⟩ entries
        ⟨{ machine with
            tape := machine.tape.performAll strokes
            cursor := machine.cursor + steps
            executed := machine.executed + strokes.length }, source, sink⟩ ∧
      instructions entries = strokes.map Stroke.toInstruction := by
  induction steps generalizing machine strokes with
  | zero =>
      obtain rfl : strokes = [] := by simpa [eq_comm] using htext
      exact ⟨[], .nil _, rfl⟩
  | succ steps ih =>
      have hlast : machine.cursor + (steps + 1) = machine.cursor + 1 + steps := by omega
      rw [hlast] at hend htext ⊢
      have hlt : machine.cursor < machine.program.size := by omega
      rcases comment_or_instruction hlt with ⟨byte, hbyte, hcomment⟩ | ⟨instruction, hbyte⟩
      · rw [extract_eq_cons (by omega) hbyte, ofBytes_cons_of_comment hcomment] at htext
        obtain ⟨entries, hpath, hentries⟩ :=
          ih { machine with cursor := machine.cursor + 1 } hend htext
        exact ⟨entries, .cons (step_of_comment hbyte hcomment) hpath, hentries⟩
      · rw [extract_eq_cons (by omega) hbyte, ofBytes_cons_toByte] at htext
        obtain ⟨stroke, rest, rfl, rfl, hrest⟩ := List.map_eq_cons_iff.mp htext.symm
        obtain ⟨front, hfront, hstroke⟩ :=
          exists_path_of_settles hbyte (stroke.settles machine source sink)
        rw [perform_stroke] at hfront
        obtain ⟨back, hback, hafter⟩ := ih { machine with
          tape := machine.tape.perform stroke
          cursor := machine.cursor + 1
          executed := machine.executed + 1 } hend hrest.symm
        have hpath := hfront.append hback
        have hcount : machine.executed + 1 + rest.length =
            machine.executed + (stroke :: rest).length := by
          rw [List.length_cons]
          omega
        simp only [Nat.add_comm 1 steps, hcount] at hpath
        exact ⟨front ++ back, hpath, by rw [instructions_append, hstroke, hafter]; rfl⟩

/-- A machine behind one of the brackets of a loop that stands at `depth`: in the body as long as
the cell is not zero, and behind the loop if it is. -/
def behindBracket (machine : Machine) (start finish depth : Nat) : Machine :=
  if machine.tape.current = 0 then { machine with cursor := finish + 1, depth }
  else { machine with cursor := start + 1, depth := depth + 1 }

section

variable {start finish depth : Nat} {body : List Stroke}

theorem exists_path_of_opening (machine : Machine)
    (hpartners : Partners machine.program.code machine.cursor finish) (source : Source)
    (sink : Sink) :
    ∃ entries,
      Path 1 ⟨machine, source, sink⟩ entries
        ⟨behindBracket { machine with executed := machine.executed + 1 }
          machine.cursor finish machine.depth, source, sink⟩ ∧
      instructions entries = [.loopStart] := by
  have hbyte : machine.program.code[machine.cursor]? = some Instruction.loopStart.toByte :=
    at?_eq_some_iff.mp hpartners.opens
  by_cases hzero : machine.tape.current = 0
  · have hpartner : partnerAfter machine.program.code machine.cursor = .ok finish :=
      (partnerAfter_eq_ok_iff _ _ _).mpr hpartners
    have hsettles : Settles machine source sink .loopStart (.skip finish) source sink :=
      .skip hzero hpartner
    obtain ⟨entries, hpath, hentries⟩ := exists_path_of_settles hbyte hsettles
    exact ⟨entries, by simpa [perform_fst, behindBracket, hzero] using hpath, hentries⟩
  · have hsettles : Settles machine source sink .loopStart .enter source sink := .enter hzero
    obtain ⟨entries, hpath, hentries⟩ := exists_path_of_settles hbyte hsettles
    exact ⟨entries, by simpa [perform_fst, behindBracket, hzero] using hpath, hentries⟩

theorem exists_path_of_closing (machine : Machine) (hdepth : machine.depth = depth + 1)
    (hpartners : Partners machine.program.code start machine.cursor) (source : Source)
    (sink : Sink) :
    ∃ entries,
      Path 1 ⟨machine, source, sink⟩ entries
        ⟨behindBracket { machine with executed := machine.executed + 1 }
          start machine.cursor depth, source, sink⟩ ∧
      instructions entries = [.loopEnd] := by
  have hbyte : machine.program.code[machine.cursor]? = some Instruction.loopEnd.toByte :=
    at?_eq_some_iff.mp hpartners.closes
  by_cases hzero : machine.tape.current = 0
  · have hsettles : Settles machine source sink .loopEnd .leave source sink := .leave hzero
    obtain ⟨entries, hpath, hentries⟩ := exists_path_of_settles hbyte hsettles
    exact ⟨entries, by simpa [perform_fst, behindBracket, hzero, hdepth] using hpath, hentries⟩
  · have hpartner : partnerBefore machine.program.code machine.cursor = .ok start :=
      (partnerBefore_eq_ok_iff _ _ _).mpr hpartners
    have hsettles : Settles machine source sink .loopEnd (.again start) source sink :=
      .again hzero hpartner
    obtain ⟨entries, hpath, hentries⟩ := exists_path_of_settles hbyte hsettles
    exact ⟨entries, by simpa [perform_fst, behindBracket, hzero, hdepth] using hpath, hentries⟩

/-- A round takes the body and the `]` behind it. -/
theorem exists_path_of_round (machine : Machine) (hcursor : machine.cursor = start + 1)
    (hdepth : machine.depth = depth + 1) (hpartners : Partners machine.program.code start finish)
    (htext : ofBytes (machine.program.code.extract (start + 1) finish).toList =
      body.map Stroke.toInstruction) (source : Source) (sink : Sink) :
    ∃ entries,
      Path (finish - start) ⟨machine, source, sink⟩ entries
        ⟨behindBracket { machine with
            tape := machine.tape.performAll body
            executed := machine.executed + (body.length + 1) } start finish depth, source, sink⟩ ∧
      instructions entries = body.map Stroke.toInstruction ++ [.loopEnd] := by
  have hlt := hpartners.lt
  have hsize : finish < machine.program.size := lt_size_of_at? hpartners.closes
  have hfinish : start + 1 + (finish - (start + 1)) = finish := by omega
  have hsteps : finish - (start + 1) + 1 = finish - start := by omega
  rw [← hfinish, ← hcursor] at htext
  obtain ⟨front, hfront, hbody⟩ := exists_path_of_strokes machine (by omega) htext source sink
  rw [hcursor, hfinish] at hfront
  obtain ⟨back, hback, hclosing⟩ := exists_path_of_closing { machine with
    tape := machine.tape.performAll body
    cursor := finish
    executed := machine.executed + body.length } hdepth hpartners source sink
  rw [← hsteps]
  exact ⟨front ++ back, hfront.append hback, by rw [instructions_append, hbody, hclosing]⟩

/-- A body that transfers the cell is run as often as the cell says, and the loop is left then. -/
theorem exists_path_of_rounds {rounds : Nat} (machine : Machine)
    (hrounds : machine.tape.current.toNat = rounds)
    (hpartners : Partners machine.program.code start finish)
    (htext : ofBytes (machine.program.code.extract (start + 1) finish).toList =
      body.map Stroke.toInstruction)
    (htransfers : Stroke.Transfers machine.tape.bound machine.tape.pointer body) (source : Source)
    (sink : Sink) :
    ∃ entries tape,
      Path (rounds * (finish - start)) ⟨machine.behindBracket start finish depth, source, sink⟩
        entries
        ⟨{ machine with
            tape
            cursor := finish + 1
            depth
            executed := machine.executed + rounds * (body.length + 1) }, source, sink⟩ ∧
      instructions entries =
        (List.replicate rounds (body.map Stroke.toInstruction ++ [.loopEnd])).flatten ∧
      Tape.Repeats body rounds machine.tape tape := by
  induction rounds generalizing machine with
  | zero =>
      have hzero : machine.tape.current = 0 := UInt8.toNat_inj.mp hrounds
      refine ⟨[], machine.tape, ?_, rfl, .zero body machine.tape⟩
      simpa [behindBracket, hzero] using Path.nil _
  | succ rounds ih =>
      have hne : machine.tape.current ≠ 0 := by
        intro hzero
        simp [hzero] at hrounds
      have hone := htransfers.repeats_one
      obtain ⟨front, hfront, hround⟩ := exists_path_of_round
        { machine with cursor := start + 1, depth := depth + 1 } rfl rfl hpartners htext source sink
      obtain ⟨back, tape, hback, hrest, hagain⟩ := ih
        { machine with
          tape := machine.tape.performAll body
          executed := machine.executed + (body.length + 1) }
        (htransfers.toNat_current hrounds) hpartners htext htransfers.performAll
      have hpath := hfront.append hback
      have hsteps : finish - start + rounds * (finish - start) =
          (rounds + 1) * (finish - start) := by
        rw [Nat.succ_mul, Nat.add_comm]
      have hcount : machine.executed + (body.length + 1) + rounds * (body.length + 1) =
          machine.executed + (rounds + 1) * (body.length + 1) := by
        rw [Nat.succ_mul, Nat.add_assoc, Nat.add_comm (body.length + 1)]
      simp only [hsteps, hcount] at hpath
      rw [behindBracket, if_neg hne]
      refine ⟨front ++ back, tape, hpath, ?_, Nat.add_comm 1 rounds ▸ hone.trans hagain⟩
      rw [instructions_append, hround, hrest, List.replicate_succ, List.flatten_cons]

/-- A loop whose body transfers the cell goes round as often as the cell says. It leaves the cell
empty, what one round adds to another cell is added there as often, and the tape grows in the first
round only. Nothing is read and nothing is written. -/
theorem transfer_runs_cell_times (program : Program) (bound : Nat) (verbose : Bool)
    (c : Configuration) {rounds : Nat} (hreached : Reached program bound verbose c)
    (hrounds : c.machine.tape.current.toNat = rounds)
    (hpartner : partnerAfter program.code c.machine.cursor = .ok finish)
    (htext : ofBytes (program.code.extract (c.machine.cursor + 1) finish).toList =
      body.map Stroke.toInstruction)
    (htransfers : Stroke.Transfers (max bound 1) c.machine.tape.pointer body) :
    ∃ entries tape,
      Path (1 + rounds * (finish - c.machine.cursor)) c entries
        ⟨{ c.machine with
            tape
            cursor := finish + 1
            executed := c.machine.executed + (1 + rounds * (body.length + 1)) },
          c.source, c.sink⟩ ∧
      instructions entries = .loopStart ::
        (List.replicate rounds (body.map Stroke.toInstruction ++ [.loopEnd])).flatten ∧
      tape.pointer = c.machine.tape.pointer ∧
      tape.current = 0 ∧
      (∀ position, position ≠ c.machine.tape.pointer →
        tape.cellAt position = c.machine.tape.cellAt position +
          UInt8.ofNat rounds * Stroke.change (position - c.machine.tape.pointer) 0 body) ∧
      ∃ farthest, IsGreatest {place | place ∈ Stroke.offsets 0 body} farthest ∧
        (tape.size : Int) = if rounds = 0 then (c.machine.tape.size : Int)
          else max c.machine.tape.size (c.machine.tape.pointer + farthest + 1) := by
  obtain ⟨machine, source, sink⟩ := c
  have hconsistent := (invariant_consistent program bound verbose).reached hreached
  obtain rfl : machine.program = program := hconsistent.program_eq
  have hpartners := (partnerAfter_eq_ok_iff _ _ _).mp hpartner
  obtain ⟨front, hfront, hopening⟩ := exists_path_of_opening machine hpartners source sink
  rw [← hconsistent.bound_eq] at htransfers
  obtain ⟨back, tape, hback, hagain, hrepeats⟩ := exists_path_of_rounds
    { machine with executed := machine.executed + 1 } hrounds hpartners htext htransfers source sink
  obtain ⟨farthest, hfarthest⟩ := Stroke.exists_isGreatest_offsets 0 body
  have hpath := hfront.append hback
  simp only [Nat.add_assoc] at hpath
  refine ⟨front ++ back, tape, hpath, ?_, hrepeats.pointer_eq, ?_,
    fun position _ => hrepeats.cell_eq position, farthest, hfarthest, hrepeats.size_eq hfarthest⟩
  · rw [instructions_append, hopening, hagain, List.singleton_append]
  · rw [hrepeats.current_eq, htransfers.spends, ← hrounds, UInt8.ofNat_toNat, UInt8.mul_neg,
      UInt8.mul_one, UInt8.add_right_neg]

/-- In `++[>x+++>+<<-]` the cell is two at the `[`, so the loop adds six to the next cell and two to
the one after that. -/
theorem transfer_of_two_to_two_cells :
    ∃ (program : Program) (c : Configuration) (entries : List Entry) (tape : Tape),
      program.text = [0x2b, 0x2b, 0x5b, 0x3e, 0x78, 0x2b, 0x2b, 0x2b, 0x3e, 0x2b, 0x3c, 0x3c, 0x2d,
        0x5d] ∧
      Reached program 8 true c ∧ c.machine.cursor = 2 ∧ c.machine.tape.current = 2 ∧
      Path 23 c entries ⟨{ c.machine with tape, cursor := 14, executed := 23 }, c.source, c.sink⟩ ∧
      tape.pointer = 0 ∧ tape.current = 0 ∧ tape.cellAt 1 = 6 ∧ tape.cellAt 2 = 2 ∧
      (tape.size : Int) = 3 := by
  let program : Program := ⟨#[0x2b, 0x2b, 0x5b, 0x3e, 0x78, 0x2b, 0x2b, 0x2b, 0x3e, 0x2b, 0x3c,
    0x3c, 0x2d, 0x5d], by decide⟩
  let body : List Stroke := [.right, .increment, .increment, .increment, .right, .increment, .left,
    .left, .decrement]
  have hreached : Reached program 8 true _ :=
    .advance (.advance (.begin .start [] {}) rfl) rfl
  have htransfers : Stroke.Transfers (max 8 1) 0 body :=
    ⟨by decide, by decide, by decide⟩
  have hpartner : partnerAfter program.code 2 = .ok 13 :=
    (partnerAfter_eq_ok_iff _ _ _).mpr ((partnerBefore_eq_ok_iff _ _ _).mp (by decide))
  have hreaches : (2 : Int) ∈ Stroke.offsets 0 body := by decide
  have hstays : ∀ place ∈ Stroke.offsets 0 body, place ≤ 2 := by decide
  obtain ⟨entries, tape, hpath, -, hpointer, hcurrent, hcells, farthest, hgreatest, hsize⟩ :=
    transfer_runs_cell_times program 8 true _ hreached rfl hpartner rfl htransfers
  rw [hgreatest.unique ⟨hreaches, hstays⟩] at hsize
  exact ⟨program, _, entries, tape, rfl, hreached, rfl, rfl, hpath, hpointer, hcurrent,
    (hcells 1 (by decide)).trans (by decide), (hcells 2 (by decide)).trans (by decide), hsize⟩

end

end Machine

end ByteTape
