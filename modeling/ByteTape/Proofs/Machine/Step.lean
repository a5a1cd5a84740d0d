import ByteTape.Machine
import Mathlib.Tactic.Common

/-!
# One byte

What a machine does with the byte at its cursor, case by case. `Settles` lists the ways in which an
instruction comes to an action and `Fails` the ways in which it comes to an error; `Takes` puts them
together with the end of the program and with comments. Each is exact for the function it describes,
so later proofs go by these cases and leave the functions closed.

An action touches the fields of a machine one by one: `perform_fst` says what becomes of each.
-/

namespace ByteTape

namespace Action

/-- The tape after an action. -/
@[simp] def onTape : Action → Tape → Tape
  | moveRight, tape => tape.right.2
  | moveLeft, tape => tape.left.2
  | increment, tape => tape.increment
  | decrement, tape => tape.decrement
  | store value, tape => tape.write value
  | _, tape => tape

@[simp] def onCursor : Action → Nat → Nat
  | skip closing, _ => closing + 1
  | again opening, _ => opening + 1
  | _, cursor => cursor + 1

@[simp] def onDepth : Action → Nat → Nat
  | enter, depth => depth + 1
  | leave, depth => depth - 1
  | _, depth => depth

/-- The output an action makes, given the current cell. -/
@[simp] def emitted : Action → UInt8 → List UInt8
  | emit, value => [value]
  | _, _ => []

end Action

namespace Machine

/-- What becomes of each field of a machine. -/
theorem perform_fst (machine : Machine) (action : Action) :
    (machine.perform action).1 =
      { machine with
        tape := action.onTape machine.tape
        cursor := action.onCursor machine.cursor
        depth := action.onDepth machine.depth
        buffer := if machine.verbose then machine.buffer ++ action.emitted machine.tape.current
          else machine.buffer
        executed := machine.executed + 1 } := by
  obtain ⟨program, tape, cursor, depth, verbose, buffer, executed⟩ := machine
  cases verbose <;> cases action <;>
    simp [perform, Tape.increment, Tape.decrement]

/-- The events of an action do not hang on whether they are told, nor on what is collected. -/
theorem perform_snd_with_mode (machine : Machine) (verbose : Bool) (buffer : Array UInt8)
    (action : Action) :
    (perform { machine with verbose, buffer } action).2 = (machine.perform action).2 := by
  cases action <;> rfl

/-- The entries an action leaves: the events that are told, and then the report. -/
def account (machine : Machine) (instruction : Instruction) (action : Action) : List Entry :=
  ((machine.perform action).2.filter (Event.isTold machine.verbose)).map .event ++
    [.report ((machine.perform action).1.report instruction machine.cursor)]

/-- The reports among some entries. -/
def reports (entries : List Entry) : List Report :=
  entries.filterMap fun
    | .report shown => some shown
    | .event _ => none

@[simp] theorem reports_nil : reports [] = [] := rfl

theorem reports_append (front back : List Entry) :
    reports (front ++ back) = reports front ++ reports back := List.filterMap_append

@[simp] theorem reports_account (machine : Machine) (instruction : Instruction) (action : Action) :
    reports (machine.account instruction action) =
      [(machine.perform action).1.report instruction machine.cursor] := by
  simp [reports, account, List.filterMap_append, List.filterMap_map]

/-- The events among some entries. -/
def events (entries : List Entry) : List Event :=
  entries.filterMap fun
    | .event told => some told
    | .report _ => none

theorem events_append (front back : List Entry) :
    events (front ++ back) = events front ++ events back := List.filterMap_append

theorem events_map_event (told : List Event) : events (told.map .event) = told := by
  rw [events, List.filterMap_map]
  exact List.filterMap_some

theorem events_account (machine : Machine) (instruction : Instruction) (action : Action) :
    events (machine.account instruction action) =
      (machine.perform action).2.filter (Event.isTold machine.verbose) := by
  rw [account, events_append, events_map_event]
  exact List.append_nil _

/-- How an instruction comes to an action, and what is left of the source and the sink. -/
inductive Settles (machine : Machine) (source : Source) (sink : Sink) :
    Instruction → Action → Source → Sink → Prop where
  | moveRight : Settles machine source sink .right .moveRight source sink
  | moveLeft : Settles machine source sink .left .moveLeft source sink
  | increment : Settles machine source sink .increment .increment source sink
  | decrement : Settles machine source sink .decrement .decrement source sink
  | collect (hverbose : machine.verbose = true) :
      Settles machine source sink .output .emit source sink
  | write (hverbose : machine.verbose = false) {left : Sink}
      (h : sink.writeAll [machine.tape.current] = (.ok (), left)) :
      Settles machine source sink .output .emit source left
  | read {value : UInt8} {rest : Source} (h : source.next = (.byte value, rest)) :
      Settles machine source sink .input (.store value) rest sink
  | exhausted {rest : Source} (h : source.next = (.ended, rest)) :
      Settles machine source sink .input .keep rest sink
  | enter (h : machine.tape.current ≠ 0) :
      Settles machine source sink .loopStart .enter source sink
  | skip (hzero : machine.tape.current = 0) {closing : Nat}
      (h : Bracket.partnerAfter machine.program.code machine.cursor = .ok closing) :
      Settles machine source sink .loopStart (.skip closing) source sink
  | leave (h : machine.tape.current = 0) :
      Settles machine source sink .loopEnd .leave source sink
  | again (hnonzero : machine.tape.current ≠ 0) {opening : Nat}
      (h : Bracket.partnerBefore machine.program.code machine.cursor = .ok opening) :
      Settles machine source sink .loopEnd (.again opening) source sink

/-- How an instruction comes to an error, and what is left of the source and the sink. -/
inductive Fails (machine : Machine) (source : Source) (sink : Sink) :
    Instruction → Error → Source → Sink → Prop where
  | refused (hverbose : machine.verbose = false) {cause : String} {left : Sink}
      (h : sink.writeAll [machine.tape.current] = (.error cause, left)) :
      Fails machine source sink .output (.io cause) source left
  | unread {cause : String} {rest : Source} (h : source.next = (.failed cause, rest)) :
      Fails machine source sink .input (.io cause) rest sink
  | unclosed (hzero : machine.tape.current = 0) {unmatched : Unmatched}
      (h : Bracket.partnerAfter machine.program.code machine.cursor = .error unmatched) :
      Fails machine source sink .loopStart (.malformed unmatched) source sink
  | unopened (hnonzero : machine.tape.current ≠ 0) {unmatched : Unmatched}
      (h : Bracket.partnerBefore machine.program.code machine.cursor = .error unmatched) :
      Fails machine source sink .loopEnd (.malformed unmatched) source sink

theorem settles_of_resolve {machine : Machine} {source rest : Source} {sink left : Sink}
    {instruction : Instruction} {action : Action}
    (h : machine.resolve source sink instruction = (.ok action, rest, left)) :
    Settles machine source sink instruction action rest left := by
  cases instruction <;> simp only [resolve] at h
  case output =>
      split at h
      · rename_i hverbose
        cases h
        exact .collect hverbose
      · rename_i hverbose
        split at h <;> cases h
        exact .write (by simpa using hverbose) ‹_›
  case input =>
      split at h <;> cases h
      · exact .read ‹_›
      · exact .exhausted ‹_›
  case loopStart =>
      split at h
      · cases h
        exact .enter ‹_›
      · rename_i hzero
        split at h <;> cases h
        exact .skip (by simpa using hzero) ‹_›
  case loopEnd =>
      split at h
      · cases h
        exact .leave ‹_›
      · split at h <;> cases h
        exact .again ‹_› ‹_›
  all_goals
    cases h
    constructor

theorem Settles.resolve_eq {machine : Machine} {source rest : Source} {sink left : Sink}
    {instruction : Instruction} {action : Action}
    (h : Settles machine source sink instruction action rest left) :
    machine.resolve source sink instruction = (.ok action, rest, left) := by
  cases h with
  | collect hverbose => simp [resolve, hverbose]
  | write hverbose h => simp [resolve, hverbose, h]
  | read h => simp [resolve, h]
  | exhausted h => simp [resolve, h]
  | enter h => simp [resolve, h]
  | skip hzero h => simp [resolve, hzero, h]
  | leave h => simp [resolve, h]
  | again hnonzero h => simp [resolve, hnonzero, h]
  | _ => rfl

theorem fails_of_resolve {machine : Machine} {source rest : Source} {sink left : Sink}
    {instruction : Instruction} {error : Error}
    (h : machine.resolve source sink instruction = (.error error, rest, left)) :
    Fails machine source sink instruction error rest left := by
  cases instruction <;> simp only [resolve] at h
  case output =>
      split at h
      · cases h
      · rename_i hverbose
        split at h <;> cases h
        exact .refused (by simpa using hverbose) ‹_›
  case input =>
      split at h <;> cases h
      exact .unread ‹_›
  case loopStart =>
      split at h
      · cases h
      · rename_i hzero
        split at h <;> cases h
        exact .unclosed (by simpa using hzero) ‹_›
  case loopEnd =>
      split at h
      · cases h
      · split at h <;> cases h
        exact .unopened ‹_› ‹_›
  all_goals cases h

theorem Fails.resolve_eq {machine : Machine} {source rest : Source} {sink left : Sink}
    {instruction : Instruction} {error : Error}
    (h : Fails machine source sink instruction error rest left) :
    machine.resolve source sink instruction = (.error error, rest, left) := by
  cases h with
  | refused hverbose h => simp [resolve, hverbose, h]
  | unread h => simp [resolve, h]
  | unclosed hzero h => simp [resolve, hzero, h]
  | unopened hnonzero h => simp [resolve, hnonzero, h]

/-- What taking the byte at the cursor comes to. -/
inductive Takes (configuration : Configuration) : Step → Prop where
  | halt (h : configuration.machine.program.size ≤ configuration.machine.cursor) :
      Takes configuration (.halted configuration)
  | comment {byte : UInt8}
      (hbyte : configuration.machine.program.code[configuration.machine.cursor]? = some byte)
      (h : Instruction.ofByte? byte = none) :
      Takes configuration (.advanced ⟨{ configuration.machine with
        cursor := configuration.machine.cursor + 1 }, configuration.source, configuration.sink⟩ [])
  | fail {instruction : Instruction} {error : Error} {rest : Source} {left : Sink}
      (hbyte : configuration.machine.program.code[configuration.machine.cursor]? =
        some instruction.toByte)
      (h : Fails configuration.machine configuration.source configuration.sink instruction error
        rest left) :
      Takes configuration (.failed error ⟨configuration.machine, rest, left⟩)
  | perform {instruction : Instruction} {action : Action} {rest : Source} {left : Sink}
      (hbyte : configuration.machine.program.code[configuration.machine.cursor]? =
        some instruction.toByte)
      (h : Settles configuration.machine configuration.source configuration.sink instruction action
        rest left) :
      Takes configuration (.advanced ⟨(configuration.machine.perform action).1, rest, left⟩
        (configuration.machine.account instruction action))

theorem perform_verbose (machine : Machine) (action : Action) :
    (machine.perform action).1.verbose = machine.verbose := by
  rw [perform_fst]

theorem takes_step (configuration : Configuration) :
    Takes configuration (step configuration) := by
  obtain ⟨machine, source, sink⟩ := configuration
  simp only [step]
  split
  · rename_i hbyte
    exact .halt (by simpa [Program.size] using hbyte)
  · rename_i byte hbyte
    split
    · rename_i hcomment
      exact .comment hbyte hcomment
    · rename_i instruction hinstruction
      have hwritten := (Instruction.ofByte?_eq_some_iff byte instruction).mp hinstruction
      rw [hwritten] at hbyte
      split
      · rename_i hresolve
        exact .fail hbyte (fails_of_resolve hresolve)
      · rename_i action rest left hresolve
        have htaken : Takes ⟨machine, source, sink⟩ _ :=
          .perform hbyte (settles_of_resolve hresolve)
        rw [perform_verbose]
        exact htaken

theorem takes_of_step {configuration : Configuration} {taken : Step}
    (h : step configuration = taken) : Takes configuration taken := by
  rw [← h]
  exact takes_step configuration

theorem program_of_step {c d : Configuration} {entries : List Entry}
    (hstep : step c = .advanced d entries) : d.machine.program = c.machine.program := by
  cases takes_of_step hstep with
  | comment => rfl
  | perform => rw [perform_fst]

theorem step_of_size_le {configuration : Configuration}
    (h : configuration.machine.program.size ≤ configuration.machine.cursor) :
    step configuration = .halted configuration := by
  obtain ⟨machine, source, sink⟩ := configuration
  have hbyte : machine.program.code[machine.cursor]? = none := Array.getElem?_eq_none h
  simp only [step, hbyte]

theorem step_of_comment {machine : Machine} {source : Source} {sink : Sink} {byte : UInt8}
    (hbyte : machine.program.code[machine.cursor]? = some byte)
    (h : Instruction.ofByte? byte = none) :
    step ⟨machine, source, sink⟩ =
      .advanced ⟨{ machine with cursor := machine.cursor + 1 }, source, sink⟩ [] := by
  simp only [step, hbyte, h]

theorem step_of_settles {machine : Machine} {source rest : Source} {sink left : Sink}
    {instruction : Instruction} {action : Action}
    (hbyte : machine.program.code[machine.cursor]? = some instruction.toByte)
    (h : Settles machine source sink instruction action rest left) :
    step ⟨machine, source, sink⟩ =
      .advanced ⟨(machine.perform action).1, rest, left⟩ (machine.account instruction action) := by
  simp only [step, hbyte, Instruction.ofByte?_toByte, h.resolve_eq, account, perform_verbose]

theorem step_of_fails {machine : Machine} {source rest : Source} {sink left : Sink}
    {instruction : Instruction} {error : Error}
    (hbyte : machine.program.code[machine.cursor]? = some instruction.toByte)
    (h : Fails machine source sink instruction error rest left) :
    step ⟨machine, source, sink⟩ = .failed error ⟨machine, rest, left⟩ := by
  simp only [step, hbyte, Instruction.ofByte?_toByte, h.resolve_eq]

theorem report_of_step {c d : Configuration} {entries : List Entry} {report : Report}
    (hstep : step c = .advanced d entries) (hmem : .report report ∈ entries) :
    ∃ instruction, report = d.machine.report instruction c.machine.cursor := by
  cases takes_of_step hstep with
  | comment => cases hmem
  | perform =>
      rename_i instruction action _ _ _ _
      exact ⟨instruction, by simpa [account] using hmem⟩

end Machine

end ByteTape
