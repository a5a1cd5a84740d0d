import ByteTape.Proofs.Machine.Output
import ByteTape.Proofs.Record
import ByteTape.Proofs.Tape

/-!
# Replaying the log

A verbose machine tells of every change to its tape and to its depth. So whoever has its log has its
state: `Replica` is what can be kept up from the log alone, by following its records in order. What
to do for a record hangs on its message and on the texts of its fields (`Replica.follow?`); a record
without the fields needed cannot be followed. The replica agrees with the machine whenever the
machine is between two bytes, over any number of runs.

The records also say what they find. `Record.Fits` compares the fields of a record with the replica
just before and just after it is followed, and `Replica.Accepts` does so for each record of a log,
with the replica carried along.
-/

namespace ByteTape

/-- What a log tells of a machine. -/
structure Replica where
  cells : Array UInt8
  pointer : Nat
  depth : Nat
  deriving DecidableEq, Repr

namespace Replica

/-- A replica of a machine before its first run. -/
def fresh : Replica where
  cells := #[0]
  pointer := 0
  depth := 0

/-- The cell at the pointer, if there is one. -/
def current? (replica : Replica) : Option UInt8 := replica.cells[replica.pointer]?

/-- Goes to the cell that a record names, if it does. -/
def move? (replica : Replica) (record : Record) : Option Replica := do
  let pointer ← record.number? "ptr"
  return { replica with pointer }

theorem move?_eq {replica : Replica} {record : Record} {pointer : Nat}
    (h : record.field? "ptr" = some (toString pointer)) :
    replica.move? record = some { replica with pointer } := by
  rw [move?, Record.number?_eq h]
  rfl

/-- Writes the value that a field shows into the cell that its record names. -/
def write? (replica : Replica) (record : Record) (name : String) : Option Replica := do
  let cell ← record.number? "cell"
  let value ← record.byte? name
  return { replica with cells := replica.cells.setIfInBounds cell value }

theorem write?_eq {replica : Replica} {record : Record} {name : String} {cell : Nat}
    {value : UInt8} (hcell : record.field? "cell" = some (toString cell))
    (hvalue : record.field? name = some (toString value)) :
    replica.write? record name =
      some { replica with cells := replica.cells.setIfInBounds cell value } := by
  rw [write?, Record.number?_eq hcell, Record.byte?_eq hvalue]
  rfl

/-- Takes over the depth that a record shows, if it does. -/
def nest? (replica : Replica) (record : Record) : Option Replica := do
  let depth ← record.number? "depth"
  return { replica with depth }

theorem nest?_eq {replica : Replica} {record : Record} {depth : Nat}
    (h : record.field? "depth" = some (toString depth)) :
    replica.nest? record = some { replica with depth } := by
  rw [nest?, Record.number?_eq h]
  rfl

/-- What becomes of a replica by a record, if the record has the fields needed. -/
def follow? (replica : Replica) (record : Record) : Option Replica :=
  match record.message with
  | "tape grew" => some { replica with cells := replica.cells.push 0 }
  | "move_right" => replica.move? record
  | "move_left" => replica.move? record
  | "increment_cell" => replica.write? record "to"
  | "decrement_cell" => replica.write? record "to"
  | "input" => replica.write? record "val"
  | "loop_start: enter" => replica.nest? record
  | "loop_end: exit" => replica.nest? record
  | _ => some replica

/-- What becomes of a replica by the records of a log. -/
def replay? (replica : Replica) (log : List Record) : Option Replica := log.foldlM follow? replica

end Replica

/-- A record has the fields that come with its message, and they are true of the replicas before and
after it: `from` shows the current cell before, `cell` the pointer, and `ptr`, `val`, `len` and
`depth` the pointer, the current cell, the number of cells and the depth after. -/
@[mk_iff] structure Record.Fits (before after : Replica) (record : Record) : Prop where
  names_eq : record.fields.map Prod.fst = names record.message
  from_eq {text : String} (h : ("from", text) ∈ record.fields) :
    before.current?.map toString = some text
  cell_eq {text : String} (h : ("cell", text) ∈ record.fields) :
    text = toString before.pointer ∧ after.pointer = before.pointer
  ptr_eq {text : String} (h : ("ptr", text) ∈ record.fields) : text = toString after.pointer
  val_eq {text : String} (h : ("val", text) ∈ record.fields) :
    after.current?.map toString = some text
  len_eq {text : String} (h : ("len", text) ∈ record.fields) : text = toString after.cells.size
  depth_eq {text : String} (h : ("depth", text) ∈ record.fields) : text = toString after.depth

namespace Replica

/-- Each record of a log can be followed by the replica that comes of those before it, and fits. -/
def Accepts (replica : Replica) : List Record → Prop
  | [] => True
  | record :: log =>
      ∃ after, replica.follow? record = some after ∧ record.Fits replica after ∧ after.Accepts log

/-- A log that leads from one replica to another, with each of its records true on the way. -/
structure Leads (before : Replica) (log : List Record) (after : Replica) : Prop where
  accepts : before.Accepts log
  replay_eq : before.replay? log = some after

theorem Leads.nil (replica : Replica) : Leads replica [] replica := ⟨trivial, rfl⟩

theorem Leads.cons {before middle after : Replica} {record : Record} {log : List Record}
    (hfollow : before.follow? record = some middle) (hfits : record.Fits before middle)
    (h : Leads middle log after) : Leads before (record :: log) after where
  accepts := ⟨middle, hfollow, hfits, h.accepts⟩
  replay_eq := by
    rw [replay?, List.foldlM_cons, hfollow]
    exact h.replay_eq

theorem Leads.single {before after : Replica} {record : Record}
    (hfollow : before.follow? record = some after) (hfits : record.Fits before after) :
    Leads before [record] after := .cons hfollow hfits (.nil after)

theorem Leads.append {before middle after : Replica} {log more : List Record}
    (h : Leads before log middle) (hmore : Leads middle more after) :
    Leads before (log ++ more) after := by
  obtain ⟨haccepts, hreplay⟩ := h
  induction log generalizing before with
  | nil =>
      obtain rfl : before = middle := Option.some.inj hreplay
      exact hmore
  | cons record log ih =>
      obtain ⟨next, hfollow, hfits, hnext⟩ := haccepts
      rw [replay?, List.foldlM_cons, hfollow] at hreplay
      exact .cons hfollow hfits (ih hnext hreplay)

/-- What a log can tell of a tape and a depth. -/
def of (tape : Tape) (depth : Nat) : Replica where
  cells := tape.cells
  pointer := tape.pointer
  depth := depth

@[simp] theorem of_pointer (tape : Tape) (depth : Nat) : (of tape depth).pointer = tape.pointer :=
  rfl

@[simp] theorem of_depth (tape : Tape) (depth : Nat) : (of tape depth).depth = depth := rfl

@[simp] theorem current?_of (tape : Tape) (depth : Nat) :
    (of tape depth).current? = some tape.current := by
  simp [current?, of, Tape.current, tape.pointer_lt]

/-- Whoever reads of a write to the current cell has the tape after it. -/
theorem write?_of {tape : Tape} {depth : Nat} {record : Record} {name : String} {value : UInt8}
    (hcell : record.field? "cell" = some (toString tape.pointer))
    (hvalue : record.field? name = some (toString value)) :
    (of tape depth).write? record name = some (of (tape.write value) depth) := by
  rw [write?_eq hcell hvalue, of, of, Tape.write_cells, Tape.write_pointer]

end Replica

namespace Machine

open Replica

/-- What a log can tell of a machine. -/
def replica (machine : Machine) : Replica := .of machine.tape machine.depth

theorem leads_moveRight (machine : Machine) :
    Leads machine.replica ((machine.perform .moveRight).2.map Event.record)
      (machine.perform .moveRight).1.replica := by
  obtain ⟨program, tape, cursor, depth, verbose, buffer, executed⟩ := machine
  simp only [perform, replica]
  by_cases hroom : tape.pointer + 1 = tape.bound
  · rw [Tape.right_of_eq_bound hroom]
    exact .single rfl (by simp [Record.fits_iff, Event.fields])
  · by_cases hlast : tape.pointer + 1 = tape.size
    · obtain ⟨hmove, hcells, hpointer⟩ := Tape.right_of_eq_size hroom hlast
      rw [hmove]
      refine .cons rfl ?_ (.single ((move?_eq rfl).trans ?_) ?_)
      · simp [Record.fits_iff, Event.fields, Tape.size, hcells, of]
      · simp [of, hcells]
      · simp [Record.fits_iff, Event.fields]
    · obtain ⟨hmove, hcells, hpointer⟩ := Tape.right_of_ne_size hroom hlast
      rw [hmove]
      refine .single ((move?_eq rfl).trans ?_) ?_
      · simp [of, hcells]
      · simp [Record.fits_iff, Event.fields]

theorem leads_moveLeft (machine : Machine) :
    Leads machine.replica ((machine.perform .moveLeft).2.map Event.record)
      (machine.perform .moveLeft).1.replica := by
  obtain ⟨program, tape, cursor, depth, verbose, buffer, executed⟩ := machine
  simp only [perform, replica]
  by_cases hfirst : tape.pointer = 0
  · rw [Tape.left_of_eq_zero hfirst]
    exact .single rfl (by simp [Record.fits_iff, Event.fields])
  · obtain ⟨hmove, hcells, hpointer⟩ := Tape.left_of_ne_zero hfirst
    rw [hmove]
    refine .single ((move?_eq rfl).trans ?_) ?_
    · simp [of, hcells]
    · simp [Record.fits_iff, Event.fields]

/-- The records of an action lead from the machine before it to the machine after it. -/
theorem leads_perform (machine : Machine) (action : Action) :
    Leads machine.replica ((machine.perform action).2.map Event.record)
      (machine.perform action).1.replica := by
  cases action with
  | moveRight => exact leads_moveRight machine
  | moveLeft => exact leads_moveLeft machine
  | increment =>
      exact .single (write?_of rfl rfl) (by simp [Record.fits_iff, Event.fields, replica, perform])
  | decrement =>
      exact .single (write?_of rfl rfl) (by simp [Record.fits_iff, Event.fields, replica, perform])
  | store value =>
      exact .single (write?_of rfl rfl) (by simp [Record.fits_iff, Event.fields, replica, perform])
  | enter =>
      exact .single (nest?_eq rfl) (by simp [Record.fits_iff, Event.fields, replica, perform])
  | leave =>
      exact .single (nest?_eq rfl) (by simp [Record.fits_iff, Event.fields, replica, perform])
  | _ => exact .single rfl (by simp [Record.fits_iff, Event.fields, replica, perform])

/-- A verbose machine tells of every event. -/
theorem events_account_of_verbose {machine : Machine} (hverbose : machine.verbose = true)
    (instruction : Instruction) (action : Action) :
    events (machine.account instruction action) = (machine.perform action).2 := by
  rw [events_account, List.filter_eq_self]
  intro event _
  rw [Event.isTold, hverbose, Bool.true_or]

/-- The log that some entries make. -/
def records (entries : List Entry) : List Record := (events entries).map Event.record

theorem records_append (front back : List Entry) :
    records (front ++ back) = records front ++ records back := by
  rw [records, events_append, List.map_append, records, records]

/-- What is told on a path leads from its beginning to its end. -/
theorem Path.leads {n : Nat} {c d : Configuration} {entries : List Entry}
    (h : Path n c entries d) (hverbose : c.machine.verbose = true) :
    Leads c.machine.replica (records entries) d.machine.replica := by
  induction h with
  | nil c => exact .nil _
  | @cons _ c _ _ _ _ hstep _ ih =>
      rw [records_append]
      cases takes_of_step hstep with
      | comment => exact ih hverbose
      | perform =>
          rw [records, events_account_of_verbose hverbose]
          exact (leads_perform _ _).append (ih ((perform_verbose _ _).trans hverbose))

/-- The event with which a run may end tells of no change. -/
theorem leads_farewell (machine : Machine) (outcome : Except Error Unit) :
    Leads machine.replica (records (machine.farewell outcome)) machine.replica := by
  cases outcome with
  | ok => exact .single rfl (by simp [Record.fits_iff, Event.fields])
  | error => exact .nil _

theorem leads_run {machine : Machine} (hverbose : machine.verbose = true) {fuel : Nat}
    {source : Source} {sink : Sink} {result : Run}
    (hrun : machine.run fuel source sink = some result) :
    Leads machine.replica (records result.trace.toList) result.machine.replica ∧
      result.machine.verbose = true := by
  obtain ⟨n, entries, e, outcome, d, -, hpath, hstops, rfl⟩ := run_eq_some_iff.mp hrun
  obtain ⟨outcome', htrace⟩ := exists_trace_conclude outcome d entries.toArray
  rw [htrace, records_append, conclude_machine, hstops.machine_eq]
  exact ⟨(hpath.leads hverbose).append (leads_farewell e.machine outcome'),
    hpath.verbose_eq.trans hverbose⟩

/-- A verbose machine between two runs, and its log so far. -/
inductive Chronicle (program : Program) (bound : Nat) : Machine → List Record → Prop where
  | start : Chronicle program bound (start program bound true) []
  | run {fuel : Nat} {machine : Machine} {log : List Record} {source : Source} {sink : Sink}
      {result : Run} (h : Chronicle program bound machine log)
      (hrun : machine.run fuel source sink = some result) :
      Chronicle program bound result.machine (log ++ records result.trace.toList)

theorem Chronicle.leads {program : Program} {bound : Nat} {machine : Machine} {log : List Record}
    (h : Chronicle program bound machine log) :
    Leads .fresh log machine.replica ∧ machine.verbose = true := by
  induction h with
  | start => exact ⟨.nil _, rfl⟩
  | run _ hrun ih =>
      obtain ⟨hleads, hverbose⟩ := ih
      obtain ⟨hmore, hverbose'⟩ := leads_run hverbose hrun
      exact ⟨hleads.append hmore, hverbose'⟩

/-- The log of a verbose machine is complete. However many runs it has made, well or not, replaying
its log leads from a fresh replica to its cells, its pointer and its depth, and each record fits the
replicas before and after it. The same holds at every moment of the next run. -/
theorem log_is_complete {program : Program} {bound : Nat} {machine : Machine} {log : List Record}
    (h : Chronicle program bound machine log) :
    (Replica.fresh.replay? log = some machine.replica ∧ Replica.fresh.Accepts log) ∧
    ∀ n source sink entries c, Path n ⟨machine, source, sink⟩ entries c →
      Replica.fresh.replay? (log ++ records entries) = some c.machine.replica ∧
        Replica.fresh.Accepts (log ++ records entries) := by
  obtain ⟨hleads, hverbose⟩ := h.leads
  refine ⟨⟨hleads.replay_eq, hleads.accepts⟩, fun n source sink entries c hpath => ?_⟩
  have hlong := hleads.append (hpath.leads hverbose)
  exact ⟨hlong.replay_eq, hlong.accepts⟩

/-- A run of `<++[>,<-][]>.>` fails at the read in its loop, and the next one takes it up. Their log
has a record of every kind. -/
theorem log_is_complete_over_failed_read :
    ∃ (program : Program) (first second : Run),
      program.text = Text.ascii "<++[>,<-][]>.>" ∧
      (start program 2 true).run 6 [.failure "gone"] {} = some first ∧
      first.result = .error (.io "gone") ∧ first.machine.depth = 1 ∧
      first.machine.run 14 [.data [65]] {} = some second ∧
      records first.trace.toList = [
        ⟨"move_left attempted past start of tape", [("at", "0")]⟩,
        ⟨"increment_cell", [("cell", "0"), ("from", "0"), ("to", "1")]⟩,
        ⟨"increment_cell", [("cell", "0"), ("from", "1"), ("to", "2")]⟩,
        ⟨"loop_start: enter", [("start", "3"), ("val", "2"), ("depth", "1")]⟩,
        ⟨"tape grew", [("len", "2")]⟩,
        ⟨"move_right", [("ptr", "1"), ("val", "0")]⟩] ∧
      records second.trace.toList = [
        ⟨"input", [("cell", "1"), ("val", "65")]⟩,
        ⟨"move_left", [("ptr", "0"), ("val", "2")]⟩,
        ⟨"decrement_cell", [("cell", "0"), ("from", "2"), ("to", "1")]⟩,
        ⟨"loop_end: jump back", [("start", "8"), ("finish", "3"), ("val", "1"), ("depth", "1")]⟩,
        ⟨"move_right", [("ptr", "1"), ("val", "65")]⟩,
        ⟨"input exhausted, cell unchanged", [("cell", "1")]⟩,
        ⟨"move_left", [("ptr", "0"), ("val", "1")]⟩,
        ⟨"decrement_cell", [("cell", "0"), ("from", "1"), ("to", "0")]⟩,
        ⟨"loop_end: exit", [("end", "8"), ("depth", "0")]⟩,
        ⟨"loop_start: skip", [("start", "9"), ("finish", "11"), ("val", "0"), ("depth", "0")]⟩,
        ⟨"move_right", [("ptr", "1"), ("val", "65")]⟩,
        ⟨"output", [("cell", "1"), ("val", "65"), ("ascii", "A")]⟩,
        ⟨"move_right refused at tape bound", [("at", "13"), ("ptr", "1"), ("max_cells", "2")]⟩,
        ⟨"program finished", [("instructions", "18"), ("pointer", "1"), ("tape_len", "2")]⟩] ∧
      Replica.fresh.replay? (records first.trace.toList ++ records second.trace.toList) =
        some ⟨#[0, 65], 1, 0⟩ ∧
      Replica.fresh.Accepts (records first.trace.toList ++ records second.trace.toList) := by
  let program : Program := ⟨#[0x3c, 0x2b, 0x2b, 0x5b, 0x3e, 0x2c, 0x3c, 0x2d, 0x5d, 0x5b, 0x5d,
    0x3e, 0x2e, 0x3e], by decide⟩
  obtain ⟨first, hfirst, hfailed, hdepth⟩ : ∃ first,
      (start program 2 true).run 6 [.failure "gone"] {} = some first ∧
        first.result = .error (.io "gone") ∧ first.machine.depth = 1 := ⟨_, rfl, rfl, rfl⟩
  obtain ⟨second, hboth⟩ : ∃ second, ((start program 2 true).run 6 [.failure "gone"] {}).bind
      (fun first => first.machine.run 14 [.data [65]] {}) = some second :=
    Option.isSome_iff_exists.mp (by decide +kernel)
  have hsecond : first.machine.run 14 [.data [65]] {} = some second := by rwa [hfirst] at hboth
  have hlog := congrArg (Option.map fun run => records run.trace.toList) hfirst
  have hmore := congrArg (Option.map fun run => records run.trace.toList) hboth
  have hreplica := congrArg (Option.map fun run => run.machine.replica) hboth
  obtain ⟨⟨hreplay, haccepts⟩, -⟩ := log_is_complete (.run (.run .start hfirst) hsecond)
  exact ⟨program, first, second, by decide +kernel +zetaReduce, hfirst, hfailed, hdepth, hsecond,
    Option.some.inj (hlog.symm.trans (by decide +kernel)),
    Option.some.inj (hmore.symm.trans (by decide +kernel)),
    hreplay.trans (hreplica.symm.trans (by decide +kernel)), haccepts⟩

end Machine

end ByteTape
