import ByteTape.Proofs.Checked.Partner
import ByteTape.Proofs.Machine.Depth
import Mathlib.Algebra.Group.Nat.Defs

/-!
# The machine, with nothing taken for granted

A bare machine holds the same data as a machine but no promise about it: its program need not be
balanced, its pointer need not be at a cell. Every number in it is a word, every look-up may miss
and every sum and difference may leave the words, so `step?` answers `none` as soon as one of these
happens. Like the walks to a partner, an instruction that jumps parks the cursor on the bracket it
found, and the cursor moves on by one afterwards in every case.

`step?_eq_step` says that on what a machine can come to, nothing of this kind ever happens and the
bare machine does what the machine does; `dispatch?_eq_dispatch` says it of any number of steps.
-/

namespace ByteTape

open ByteTape.Bracket

/-- A tape without its promises. -/
structure BareTape where
  cells : Array UInt8
  pointer : Nat
  bound : Nat

namespace BareTape

def current? (tape : BareTape) : Option UInt8 := tape.cells[tape.pointer]?

def write? (tape : BareTape) (value : UInt8) : Option BareTape :=
  if h : tape.pointer < tape.cells.size then
    some { tape with cells := tape.cells.set tape.pointer value h }
  else
    none

def right? (tape : BareTape) : Option (Move × BareTape) := do
  let last ← Word.sub? tape.bound 1
  if tape.pointer = last then
    return (.clamped, tape)
  let next ← Word.add? tape.pointer 1
  if next = tape.cells.size then
    return (.grew, { tape with cells := tape.cells.push 0, pointer := next })
  else
    return (.moved, { tape with pointer := next })

def left? (tape : BareTape) : Option (Move × BareTape) := do
  if tape.pointer = 0 then
    return (.clamped, tape)
  let pointer ← Word.sub? tape.pointer 1
  return (.moved, { tape with pointer })

end BareTape

/-- A machine without its promises. -/
structure BareMachine where
  code : Array UInt8
  tape : BareTape
  cursor : Nat
  depth : Nat
  verbose : Bool
  buffer : Array UInt8
  executed : Nat

inductive BareStep where
  | halted (machine : BareMachine) (source : Source) (sink : Sink)
  | failed (error : Error) (machine : BareMachine) (source : Source) (sink : Sink)
  | advanced (machine : BareMachine) (source : Source) (sink : Sink) (reports : List Report)

namespace BareMachine

/-- Executes the instruction at the cursor, but leaves the cursor there, or on the bracket it
jumps to. -/
def execute? (machine : BareMachine) (source : Source) (sink : Sink) :
    Instruction → Option (Except Error BareMachine × Source × Sink)
  | .right => do
      let (_, tape) ← machine.tape.right?
      return (.ok { machine with tape }, source, sink)
  | .left => do
      let (_, tape) ← machine.tape.left?
      return (.ok { machine with tape }, source, sink)
  | .increment => do
      let value ← machine.tape.current?
      let tape ← machine.tape.write? (value + 1)
      return (.ok { machine with tape }, source, sink)
  | .decrement => do
      let value ← machine.tape.current?
      let tape ← machine.tape.write? (value - 1)
      return (.ok { machine with tape }, source, sink)
  | .output => do
      let value ← machine.tape.current?
      if machine.verbose then
        return (.ok { machine with buffer := machine.buffer.push value }, source, sink)
      else
        match sink.writeAll [value] with
        | (.ok (), sink) => return (.ok machine, source, sink)
        | (.error cause, sink) => return (.error (.io cause), source, sink)
  | .input =>
      match source.next with
      | (.byte value, source) => do
          let tape ← machine.tape.write? value
          return (.ok { machine with tape }, source, sink)
      | (.ended, source) => return (.ok machine, source, sink)
      | (.failed cause, source) => return (.error (.io cause), source, sink)
  | .loopStart => do
      let value ← machine.tape.current?
      if value ≠ 0 then
        let depth ← Word.add? machine.depth 1
        return (.ok { machine with depth }, source, sink)
      else
        match ← partnerAfter? machine.code machine.cursor with
        | .ok cursor => return (.ok { machine with cursor }, source, sink)
        | .error unmatched => return (.error (.malformed unmatched), source, sink)
  | .loopEnd => do
      let value ← machine.tape.current?
      if value = 0 then
        return (.ok { machine with depth := machine.depth - 1 }, source, sink)
      else
        match ← partnerBefore? machine.code machine.cursor with
        | .ok cursor => return (.ok { machine with cursor }, source, sink)
        | .error unmatched => return (.error (.malformed unmatched), source, sink)

def step? (machine : BareMachine) (source : Source) (sink : Sink) : Option BareStep :=
  if machine.cursor < machine.code.size then do
    let byte ← machine.code[machine.cursor]?
    match Instruction.ofByte? byte with
    | none =>
        let cursor ← Word.add? machine.cursor 1
        return .advanced { machine with cursor } source sink []
    | some instruction =>
        match ← machine.execute? source sink instruction with
        | (.error error, source, sink) => return .failed error machine source sink
        | (.ok after, source, sink) =>
            let cursor ← Word.add? after.cursor 1
            let cell ← after.tape.current?
            return .advanced { after with cursor, executed := after.executed + 1 } source sink
              [⟨instruction, machine.cursor, cursor, after.tape.pointer, cell, after.depth⟩]
  else
    return .halted machine source sink

/-- Takes bytes until the program ends or an instruction fails, but makes no more than `fuel`
steps. -/
def dispatch? : (fuel : Nat) → BareMachine → Source → Sink →
    Option (Option (Except Error Unit × BareMachine × Source × Sink))
  | 0, _, _, _ => some none
  | fuel + 1, machine, source, sink => do
      match ← machine.step? source sink with
      | .halted machine source sink => some (some (.ok (), machine, source, sink))
      | .failed error machine source sink => some (some (.error error, machine, source, sink))
      | .advanced machine source sink _ => dispatch? fuel machine source sink

theorem step?_of_byte (machine : BareMachine) {source : Source} {sink : Sink} {byte : UInt8}
    (hbyte : machine.code[machine.cursor]? = some byte) :
    machine.step? source sink =
      match Instruction.ofByte? byte with
      | none => do
          let cursor ← Word.add? machine.cursor 1
          return .advanced { machine with cursor } source sink []
      | some instruction => do
          match ← machine.execute? source sink instruction with
          | (.error error, source, sink) => return .failed error machine source sink
          | (.ok after, source, sink) =>
              let cursor ← Word.add? after.cursor 1
              let cell ← after.tape.current?
              return .advanced { after with cursor, executed := after.executed + 1 } source sink
                [⟨instruction, machine.cursor, cursor, after.tape.pointer, cell, after.depth⟩] := by
  have hlt : machine.cursor < machine.code.size := Array.getElem?_eq_some_iff.mp hbyte |>.1
  rw [step?, if_pos hlt, hbyte]
  rfl

end BareMachine

/-- A tape, its promises forgotten. -/
def Tape.bare (tape : Tape) : BareTape := ⟨tape.cells, tape.pointer, tape.bound⟩

def Machine.bare (machine : Machine) : BareMachine :=
  ⟨machine.program.code, machine.tape.bare, machine.cursor, machine.depth, machine.verbose,
    machine.buffer, machine.executed⟩

/-- A step, the promises of its machine and its events forgotten. -/
def Step.bare : Step → BareStep
  | .halted c => .halted c.machine.bare c.source c.sink
  | .failed error c => .failed error c.machine.bare c.source c.sink
  | .advanced c entries => .advanced c.machine.bare c.source c.sink (Machine.reports entries)

namespace Tape

@[simp] theorem current?_bare (tape : Tape) : tape.bare.current? = some tape.current :=
  Array.getElem?_eq_getElem tape.pointer_lt

@[simp] theorem write?_bare (tape : Tape) (value : UInt8) :
    tape.bare.write? value = some (tape.write value).bare := by
  rw [BareTape.write?]
  exact dif_pos tape.pointer_lt

theorem right?_bare {tape : Tape} (h : tape.bound < Word.capacity) :
    tape.bare.right? = some (tape.right.1, tape.right.2.bare) := by
  obtain ⟨cells, pointer, bound, pointer_lt, size_le⟩ := tape
  simp only at h
  simp only [bare, BareTape.right?, right, Word.sub?_eq_some (show 1 ≤ bound by omega)]
  by_cases hroom : pointer + 1 = bound
  · have hlast : pointer = bound - 1 := by omega
    simp [hroom, ← hlast]
  · have hlast : pointer ≠ bound - 1 := by omega
    rw [dif_neg hroom]
    by_cases hgrew : pointer + 1 = cells.size
    · simp [hlast, hgrew, Word.add?_eq_some (show pointer + 1 < Word.capacity by omega)]
    · simp [hlast, hgrew, Word.add?_eq_some (show pointer + 1 < Word.capacity by omega)]

@[simp] theorem left?_bare (tape : Tape) :
    tape.bare.left? = some (tape.left.1, tape.left.2.bare) := by
  obtain ⟨cells, _ | pointer, bound, pointer_lt, size_le⟩ := tape
  · rfl
  · simp [bare, BareTape.left?, left, Word.sub?_eq_some]

end Tape

namespace Action

/-- The position at which an action leaves the cursor before it moves on. -/
@[simp] def parking : Action → Nat → Nat
  | skip position, _ => position
  | again position, _ => position
  | _, cursor => cursor

theorem parking_add_one (action : Action) (cursor : Nat) :
    action.parking cursor + 1 = action.onCursor cursor := by
  cases action <;> rfl

end Action

namespace Machine

open BareMachine (execute?)

/-- A settled instruction is executed by the bare machine, given that the words hold the numbers it
counts with. -/
theorem execute?_of_settles {machine : Machine} {source rest : Source} {sink left : Sink}
    {instruction : Instruction} {action : Action} (hsize : machine.program.size < Word.capacity)
    (hbound : machine.tape.bound < Word.capacity) (hdepth : machine.depth + 1 < Word.capacity)
    (h : Settles machine source sink instruction action rest left) :
    machine.bare.execute? source sink instruction =
      some (.ok { (machine.perform action).1.bare with
        cursor := action.parking machine.cursor
        executed := machine.executed }, rest, left) := by
  obtain ⟨program, tape, cursor, depth, verbose, buffer, executed⟩ := machine
  have hafter := partnerAfter?_eq_partnerAfter hsize cursor
  have hbefore := partnerBefore?_eq_partnerBefore hsize cursor
  cases h with
  | moveRight => cases verbose <;> simp [bare, execute?, perform_fst, Tape.right?_bare hbound]
  | moveLeft => cases verbose <;> simp [bare, execute?, perform_fst]
  | increment => cases verbose <;> simp [bare, execute?, perform_fst, Tape.increment]
  | decrement => cases verbose <;> simp [bare, execute?, perform_fst, Tape.decrement]
  | collect hverbose =>
      simp only at hverbose
      simp [bare, execute?, perform_fst, hverbose]
  | write hverbose hwrite =>
      simp only at hverbose hwrite
      simp [bare, execute?, perform_fst, hverbose, hwrite]
  | read hread => cases verbose <;> simp [bare, execute?, perform_fst, hread]
  | exhausted hread => cases verbose <;> simp [bare, execute?, perform_fst, hread]
  | enter hnonzero =>
      simp only at hnonzero hdepth
      cases verbose <;> simp [bare, execute?, perform_fst, hnonzero, Word.add?_eq_some hdepth]
  | skip hzero hpartner =>
      simp only at hzero hpartner hafter
      cases verbose <;> simp [bare, execute?, perform_fst, hzero, hafter, hpartner]
  | leave hzero =>
      simp only at hzero
      cases verbose <;> simp [bare, execute?, perform_fst, hzero]
  | again hnonzero hpartner =>
      simp only at hnonzero hpartner hbefore
      cases verbose <;> simp [bare, execute?, perform_fst, hnonzero, hbefore, hpartner]

theorem execute?_of_fails {machine : Machine} {source rest : Source} {sink left : Sink}
    {instruction : Instruction} {error : Error} (hsize : machine.program.size < Word.capacity)
    (h : Fails machine source sink instruction error rest left) :
    machine.bare.execute? source sink instruction = some (.error error, rest, left) := by
  obtain ⟨program, tape, cursor, depth, verbose, buffer, executed⟩ := machine
  have hafter := partnerAfter?_eq_partnerAfter hsize cursor
  have hbefore := partnerBefore?_eq_partnerBefore hsize cursor
  cases h with
  | refused hverbose hwrite =>
      simp only at hverbose hwrite
      simp [bare, execute?, hverbose, hwrite]
  | unread hread => simp [execute?, hread]
  | unclosed hzero hpartner =>
      simp only at hzero hpartner hafter
      simp [bare, execute?, hzero, hafter, hpartner]
  | unopened hnonzero hpartner =>
      simp only at hnonzero hpartner hbefore
      simp [bare, execute?, hnonzero, hbefore, hpartner]

/-- The bare machine does what the machine does, as long as the machine fits a program and a bound
that words can count. -/
theorem step?_eq_step {program : Program} {bound : Nat} {verbose : Bool}
    (hsize : program.size < 2 ^ 63) (hbound : bound < Word.capacity) {c : Configuration}
    (hc : Consistent program bound verbose c.machine) :
    c.machine.bare.step? c.source c.sink = some (step c).bare := by
  have hwords : (2 : Nat) ^ 63 + 1 < Word.capacity := by decide
  have hsize' : c.machine.program.size < Word.capacity := by
    rw [hc.program_eq]
    omega
  have hbound' : c.machine.tape.bound < Word.capacity := by
    rw [hc.bound_eq]
    omega
  have hcursor : c.machine.cursor ≤ program.size := hc.cursor_le
  have hdepth : c.machine.depth + 1 < Word.capacity := by
    have hle := nestingAt_le program.code c.machine.cursor
    have heq := hc.depth_eq
    omega
  have htakes := takes_step c
  generalize step c = taken at htakes ⊢
  cases htakes with
  | halt hend =>
      have hend' : ¬ c.machine.bare.cursor < c.machine.bare.code.size := Nat.not_lt.mpr hend
      rw [BareMachine.step?, if_neg hend']
      rfl
  | comment hbyte hcomment =>
      have hnext : Word.add? c.machine.bare.cursor 1 = some (c.machine.cursor + 1) :=
        Word.add?_eq_some (show c.machine.cursor + 1 < Word.capacity by omega)
      simp only [BareMachine.step?_of_byte c.machine.bare hbyte, hcomment, hnext,
        Option.bind_eq_bind, Option.bind_some]
      rfl
  | fail hbyte hfails =>
      simp only [BareMachine.step?_of_byte c.machine.bare hbyte, Instruction.ofByte?_toByte,
        execute?_of_fails hsize' hfails, Option.bind_eq_bind, Option.bind_some]
      rfl
  | perform hbyte hsettles =>
      rename_i instruction action rest left
      obtain ⟨hpark, -⟩ := cursor_depth_of_settles hc.program_eq hc.depth_eq hbyte hsettles
      rw [← Action.parking_add_one] at hpark
      have hnext : Word.add? (action.parking c.machine.cursor) 1 =
          some (action.onCursor c.machine.cursor) := by
        rw [Word.add?_eq_some (by omega), Action.parking_add_one]
      have hcell : (c.machine.perform action).1.bare.tape.current? =
          some (c.machine.perform action).1.tape.current :=
        Tape.current?_bare _
      simp only [BareMachine.step?_of_byte c.machine.bare hbyte, Instruction.ofByte?_toByte,
        execute?_of_settles hsize' hbound' hdepth hsettles, hnext, hcell, Option.bind_eq_bind,
        Option.bind_some, Step.bare, reports_account]
      rw [perform_fst]
      rfl

/-- So does a whole dispatch: what one step agrees on, any number of steps agrees on. -/
theorem dispatch?_eq_dispatch {program : Program} {bound : Nat} {verbose : Bool}
    (hsize : program.size < 2 ^ 63) (hbound : bound < Word.capacity) (fuel : Nat)
    {c : Configuration} (hc : Consistent program bound verbose c.machine) (trace : Array Entry) :
    c.machine.bare.dispatch? fuel c.source c.sink =
      some ((dispatch fuel c trace).map fun (outcome, d, _) =>
        (outcome, d.machine.bare, d.source, d.sink)) := by
  induction fuel generalizing c trace with
  | zero => rfl
  | succ fuel ih =>
      rw [BareMachine.dispatch?, step?_eq_step hsize hbound hc, dispatch]
      cases hstep : step c with
      | halted d => rfl
      | failed error d => rfl
      | advanced d entries => exact ih (hc.advance hstep) (trace ++ entries)

/-- Nothing ever breaks: on a program that words can count and under any bound that is a word, and
whatever the runs before it came to, a machine finds the partner of every bracket it comes to, no
look-up of a byte or a cell misses, no sum or difference leaves the words, and no run ends with an
unmatched bracket. -/
theorem nothing_breaks (program : Program) (bound : Nat) (verbose : Bool)
    (hsize : program.size < 2 ^ 63) (hbound : bound < 2 ^ 64) :
    (∀ c, Reached program bound verbose c →
      (at? program.code c.machine.cursor = some .opening →
        ∃ position, partnerAfter program.code c.machine.cursor = .ok position) ∧
      (at? program.code c.machine.cursor = some .closing →
        ∃ position, partnerBefore program.code c.machine.cursor = .ok position) ∧
      c.machine.bare.step? c.source c.sink = some (step c).bare) ∧
    ∀ machine, Rested program bound verbose machine → ∀ fuel source sink,
      machine.bare.dispatch? fuel source sink =
        some ((dispatch fuel ⟨machine, source, sink⟩ #[]).map fun (outcome, d, _) =>
          (outcome, d.machine.bare, d.source, d.sink)) ∧
      ∀ result unmatched, machine.run fuel source sink = some result →
        result.result ≠ .error (.malformed unmatched) := by
  have hinvariant := invariant_consistent program bound verbose
  refine ⟨fun c hreached => ?_, fun machine hrested fuel source sink => ⟨?_, ?_⟩⟩
  · have hc := hinvariant.reached hreached
    refine ⟨fun hat => ?_, fun hat => ?_, step?_eq_step hsize hbound hc⟩
    · rw [← hc.program_eq] at hat ⊢
      exact partnerAfter_of_loopStart hat
    · rw [← hc.program_eq] at hat ⊢
      exact partnerBefore_of_loopEnd hat
  · have hmachine := hinvariant.rested hrested
    exact dispatch?_eq_dispatch hsize hbound fuel (c := ⟨machine, source, sink⟩) hmachine #[]
  · intro result unmatched hrun hresult
    obtain ⟨n, entries, e, outcome, d, -, hpath, hstops, rfl⟩ := run_eq_some_iff.mp hrun
    rcases outcome_of_conclude_error hresult with rfl | ⟨-, cause, hcause⟩
    · obtain ⟨cause, hcause⟩ := hstops.exists_io
      cases hcause
    · cases hcause

/-- In `+[>+]` with the greatest bound, when the machine comes to go round. -/
theorem nothing_breaks_under_greatest_bound :
    ∃ (program : Program) (c : Configuration),
      program.text = [0x2b, 0x5b, 0x3e, 0x2b, 0x5d] ∧ program.size < 2 ^ 63 ∧
      Reached program (2 ^ 64 - 1) true c ∧ at? program.code c.machine.cursor = some .closing ∧
      (∃ position, partnerBefore program.code c.machine.cursor = .ok position) ∧
      c.machine.bare.step? c.source c.sink = some (step c).bare := by
  let program : Program := ⟨#[0x2b, 0x5b, 0x3e, 0x2b, 0x5d], by decide⟩
  have hreached : Reached program (2 ^ 64 - 1) true _ :=
    .advance (.advance (.advance (.advance (.begin .start [] {}) rfl) rfl) rfl) rfl
  have hsize : program.size < 2 ^ 63 := by decide
  have hbound : 2 ^ 64 - 1 < 2 ^ 64 := by decide
  obtain ⟨-, hclosing, hstep⟩ := (nothing_breaks program _ true hsize hbound).1 _ hreached
  exact ⟨program, _, rfl, hsize, hreached, rfl, hclosing rfl, hstep⟩

end Machine

end ByteTape
