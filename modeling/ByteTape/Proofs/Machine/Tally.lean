import ByteTape.Proofs.Machine.Failure
import ByteTape.Proofs.Machine.Mode
import ByteTape.Proofs.Tape

/-!
# The log as a tally

What a machine tells can be counted, and the counts come out even: with the cells the tape has
gained, with the moves that were refused, and with the instructions that were executed. `Tallies`
says so of the entries between two machines. It holds of a single instruction whatever that comes to
(`Settles.tallies`) and adds up (`Tallies.append`), and so it holds of a run.

A refused move shows in the reports as a `>` or a `<` that leaves the pointer where it was.
`refusals` counts these, with the pointer before the next report carried along.
-/

namespace ByteTape

/-- A report of an instruction that leaves the pointer where it was. -/
def Report.Stays (instruction : Instruction) (pointer : Nat) (report : Report) : Prop :=
  report.instruction = instruction ∧ report.pointer = pointer

instance (instruction : Instruction) (pointer : Nat) (report : Report) :
    Decidable (report.Stays instruction pointer) :=
  inferInstanceAs (Decidable (_ ∧ _))

namespace Machine

/-- How many events with some message are told. -/
def told (message : String) (entries : List Entry) : Nat :=
  (events entries).countP (·.message = message)

/-- How many reports of an instruction leave the pointer where it was before them. -/
def refusals (instruction : Instruction) : (pointer : Nat) → List Report → Nat
  | _, [] => 0
  | pointer, report :: rest =>
      (if report.Stays instruction pointer then 1 else 0) +
        refusals instruction report.pointer rest

/-- Where the pointer is after some reports. -/
def pointsAt (pointer : Nat) : List Report → Nat
  | [] => pointer
  | report :: rest => pointsAt report.pointer rest

theorem told_append (message : String) (front back : List Entry) :
    told message (front ++ back) = told message front + told message back := by
  rw [told, events_append, List.countP_append, told, told]

theorem refusals_append (instruction : Instruction) (pointer : Nat) (front back : List Report) :
    refusals instruction pointer (front ++ back) =
      refusals instruction pointer front +
        refusals instruction (pointsAt pointer front) back := by
  induction front generalizing pointer with
  | nil => simp [refusals, pointsAt]
  | cons report front ih =>
      rw [List.cons_append, refusals, ih, refusals, pointsAt, Nat.add_assoc]

theorem pointsAt_append (pointer : Nat) (front back : List Report) :
    pointsAt pointer (front ++ back) = pointsAt (pointsAt pointer front) back := by
  induction front generalizing pointer with
  | nil => rfl
  | cons report front ih => exact ih _

/-- There are four messages at level `debug`. -/
theorem length_logged_debug (entries : List Entry) :
    (logged .debug entries).length = told "tape grew" entries +
      told "move_right refused at tape bound" entries +
      told "move_left attempted past start of tape" entries + told "program finished" entries := by
  have hone (event : Event) : (if event.level = .debug then 1 else 0) =
      (if event.message = "tape grew" then 1 else 0) +
        (if event.message = "move_right refused at tape bound" then 1 else 0) +
        (if event.message = "move_left attempted past start of tape" then 1 else 0) +
        (if event.message = "program finished" then 1 else 0) := by
    cases event <;> simp [Event.level, Event.message]
  rw [logged, ← List.countP_eq_length_filter, told, told, told, told]
  induction events entries with
  | nil => rfl
  | cons event rest ih =>
      have hevent := hone event
      simp only [List.countP_cons, decide_eq_true_eq]
      omega

/-- What is told at level `debug` is told by every machine. -/
theorem told_account {message : String} (hmessage : message ∈ ["tape grew",
      "move_right refused at tape bound", "move_left attempted past start of tape",
      "program finished"]) (machine : Machine) (instruction : Instruction) (action : Action) :
    told message (machine.account instruction action) =
      (machine.perform action).2.countP (·.message = message) := by
  have hdebug (event : Event) (h : event.message = message) : event.level = .debug := by
    subst h
    revert hmessage
    cases event <;> simp [Event.level, Event.message]
  rw [told, events_account, List.countP_filter]
  apply List.countP_congr
  intro event _
  simp +contextual [Event.isTold, hdebug event]

/-- What is told between two machines accounts for what has happened between them. -/
structure Tallies (before : Machine) (entries : List Entry) (after : Machine) : Prop where
  verbose_eq : after.verbose = before.verbose
  pointer_eq : after.tape.pointer = pointsAt before.tape.pointer (reports entries)
  size_eq : after.tape.size = before.tape.size + told "tape grew" entries
  right_eq : told "move_right refused at tape bound" entries =
    refusals .right before.tape.pointer (reports entries)
  left_eq : told "move_left attempted past start of tape" entries =
    refusals .left before.tape.pointer (reports entries)
  trace_eq (hverbose : before.verbose = true) :
    (logged .trace entries).length + (refusals .right before.tape.pointer (reports entries) +
      refusals .left before.tape.pointer (reports entries)) = (reports entries).length

namespace Tallies

theorem nil (machine : Machine) : Tallies machine [] machine :=
  ⟨rfl, rfl, rfl, rfl, rfl, fun _ => rfl⟩

theorem append {before middle after : Machine} {entries more : List Entry}
    (h : Tallies before entries middle) (hmore : Tallies middle more after) :
    Tallies before (entries ++ more) after where
  verbose_eq := hmore.verbose_eq.trans h.verbose_eq
  pointer_eq := by rw [hmore.pointer_eq, h.pointer_eq, reports_append, pointsAt_append]
  size_eq := by rw [hmore.size_eq, h.size_eq, told_append, Nat.add_assoc]
  right_eq := by
    rw [told_append, reports_append, refusals_append, ← h.pointer_eq, h.right_eq, hmore.right_eq]
  left_eq := by
    rw [told_append, reports_append, refusals_append, ← h.pointer_eq, h.left_eq, hmore.left_eq]
  trace_eq hverbose := by
    have hfront := h.trace_eq hverbose
    have hback := hmore.trace_eq (h.verbose_eq.trans hverbose)
    simp only [logged_append, reports_append, refusals_append, List.length_append, ← h.pointer_eq]
    omega

end Tallies

theorem refusals_account (other : Instruction) (machine : Machine) (instruction : Instruction)
    (action : Action) :
    refusals other machine.tape.pointer (reports (machine.account instruction action)) =
      if instruction = other ∧ (action.onTape machine.tape).pointer = machine.tape.pointer then 1
      else 0 := by
  rw [reports_account, perform_fst]
  rfl

/-- To tally an instruction is to look at its events. -/
theorem tallies_account {machine : Machine} {instruction : Instruction} {action : Action}
    {events : List Event} (hevents : (machine.perform action).2 = events)
    (hsize : (action.onTape machine.tape).size =
      machine.tape.size + events.countP (·.message = "tape grew"))
    (hright : events.countP (·.message = "move_right refused at tape bound") =
      if instruction = .right ∧ (action.onTape machine.tape).pointer = machine.tape.pointer then 1
      else 0)
    (hleft : events.countP (·.message = "move_left attempted past start of tape") =
      if instruction = .left ∧ (action.onTape machine.tape).pointer = machine.tape.pointer then 1
      else 0)
    (htrace : events.countP (·.level = .trace) +
      (events.countP (·.message = "move_right refused at tape bound") +
        events.countP (·.message = "move_left attempted past start of tape")) = 1) :
    Tallies machine (machine.account instruction action) (machine.perform action).1 := by
  subst hevents
  constructor
  case verbose_eq => exact perform_verbose machine action
  case pointer_eq =>
      rw [reports_account]
      rfl
  case size_eq =>
      rw [told_account (by simp), perform_fst]
      exact hsize
  case right_eq => rw [told_account (by simp), hright, refusals_account]
  case left_eq => rw [told_account (by simp), hleft, refusals_account]
  case trace_eq =>
      intro hverbose
      have hall : (machine.perform action).2.filter (Event.isTold machine.verbose) =
          (machine.perform action).2 :=
        List.filter_eq_self.mpr fun event _ => by rw [Event.isTold, hverbose, Bool.true_or]
      rw [logged_account, hall, ← List.countP_eq_length_filter, refusals_account, ← hright,
        refusals_account, ← hleft, htrace, reports_account]
      rfl

theorem tallies_moveRight (machine : Machine) :
    Tallies machine (machine.account .right .moveRight) (machine.perform .moveRight).1 := by
  by_cases hroom : machine.tape.pointer + 1 = machine.tape.bound
  · have hmove := Tape.right_of_eq_bound hroom
    refine tallies_account (by simp only [perform, hmove]; rfl) ?_ ?_ ?_ ?_ <;>
      simp [hmove, Event.message, Event.level]
  · by_cases hlast : machine.tape.pointer + 1 = machine.tape.size
    · obtain ⟨hmove, hcells, hpointer⟩ := Tape.right_of_eq_size hroom hlast
      refine tallies_account (by simp only [perform, hmove]; rfl) ?_ ?_ ?_ ?_ <;>
        simp [hcells, hpointer, Tape.size, Event.message, Event.level]
    · obtain ⟨hmove, hcells, hpointer⟩ := Tape.right_of_ne_size hroom hlast
      refine tallies_account (by simp only [perform, hmove]; rfl) ?_ ?_ ?_ ?_ <;>
        simp [hcells, hpointer, Tape.size, Event.message, Event.level]

theorem tallies_moveLeft (machine : Machine) :
    Tallies machine (machine.account .left .moveLeft) (machine.perform .moveLeft).1 := by
  by_cases hfirst : machine.tape.pointer = 0
  · have hmove := Tape.left_of_eq_zero hfirst
    refine tallies_account (by simp only [perform, hmove]; rfl) ?_ ?_ ?_ ?_ <;>
      simp [hmove, Event.message, Event.level]
  · obtain ⟨hmove, -, hpointer⟩ := Tape.left_of_ne_zero hfirst
    have haway : machine.tape.pointer - 1 ≠ machine.tape.pointer := by omega
    refine tallies_account (by simp only [perform, hmove]; rfl) ?_ ?_ ?_ ?_ <;>
      simp [hpointer, haway, Event.message, Event.level]

/-- One instruction tells of one thing that it does, or of the move that it refuses. -/
theorem Settles.tallies {machine : Machine} {source rest : Source} {sink left : Sink}
    {instruction : Instruction} {action : Action}
    (h : Settles machine source sink instruction action rest left) :
    Tallies machine (machine.account instruction action) (machine.perform action).1 := by
  cases h with
  | moveRight => exact tallies_moveRight machine
  | moveLeft => exact tallies_moveLeft machine
  | _ => refine tallies_account rfl ?_ ?_ ?_ ?_ <;> simp [perform, Event.message, Event.level]

theorem tallies_of_step {c d : Configuration} {entries : List Entry}
    (hstep : step c = .advanced d entries) : Tallies c.machine entries d.machine := by
  cases takes_of_step hstep with
  | comment => exact ⟨rfl, rfl, rfl, rfl, rfl, fun _ => rfl⟩
  | perform _ hsettles => exact hsettles.tallies

theorem Path.tallies {n : Nat} {c d : Configuration} {entries : List Entry}
    (h : Path n c entries d) : Tallies c.machine entries d.machine := by
  induction h with
  | nil c => exact .nil c.machine
  | cons hstep _ ih => exact (tallies_of_step hstep).append ih

/-- The event with which a run may end is in none of the counts. -/
theorem tallies_farewell (machine : Machine) (outcome : Except Error Unit) :
    Tallies machine (machine.farewell outcome) { machine with buffer := #[] } := by
  cases outcome with
  | error => exact ⟨rfl, rfl, rfl, rfl, rfl, fun _ => rfl⟩
  | ok => constructor <;> simp [farewell, told, events, reports, logged, Event.message, Event.level,
      pointsAt, refusals]

theorem tallies_run {machine : Machine} {fuel : Nat} {source : Source} {sink : Sink} {result : Run}
    (hrun : machine.run fuel source sink = some result) :
    Tallies machine result.trace.toList result.machine := by
  obtain ⟨n, entries, e, outcome, d, -, hpath, hstops, rfl⟩ := run_eq_some_iff.mp hrun
  obtain ⟨outcome', htrace⟩ := exists_trace_conclude outcome d entries.toArray
  rw [htrace, conclude_machine, hstops.machine_eq]
  exact hpath.tallies.append (tallies_farewell e.machine outcome')

/-- No instruction tells that the program is finished. -/
theorem told_finished_account (machine : Machine) (instruction : Instruction) (action : Action) :
    told "program finished" (machine.account instruction action) = 0 := by
  rw [told_account (by simp)]
  cases action with
  | moveRight =>
      cases hmove : machine.tape.right.1 <;> simp [perform, hmove, Event.message]
  | moveLeft =>
      cases hmove : machine.tape.left.1 <;> simp [perform, hmove, Event.message]
  | _ => simp [perform, Event.message]

theorem Path.told_finished {n : Nat} {c d : Configuration} {entries : List Entry}
    (h : Path n c entries d) : told "program finished" entries = 0 := by
  induction h with
  | nil c => rfl
  | cons hstep _ ih =>
      rw [told_append, ih]
      cases takes_of_step hstep with
      | comment => rfl
      | perform => rw [told_finished_account]

/-- A run leaves what its instructions leave, and if it halts one more event at the very end. -/
theorem trace_conclude (outcome : Except Error Unit) (c : Configuration) (trace : Array Entry) :
    (conclude outcome c trace).trace.toList = trace.toList ++
      match (conclude outcome c trace).result with
      | .ok halted => [.event (.finished halted.executed halted.pointer halted.size)]
      | .error _ => [] := by
  obtain ⟨machine, source, sink⟩ := c
  simp only [conclude]
  split <;> simp

/-- A single instruction tells of itself at level `trace`, unless it is a move that is refused. -/
theorem length_logged_trace_of_step {c d : Configuration} {entries : List Entry}
    (hstep : step c = .advanced d entries) (hverbose : c.machine.verbose = true) {report : Report}
    (hreport : reports entries = [report]) :
    (logged .trace entries).length = if report.Stays .right c.machine.tape.pointer ∨
      report.Stays .left c.machine.tape.pointer then 0 else 1 := by
  have htrace := (tallies_of_step hstep).trace_eq hverbose
  simp only [hreport, refusals, List.length_singleton] at htrace
  by_cases hright : report.Stays .right c.machine.tape.pointer
  · rw [if_pos hright] at htrace
    rw [if_pos (.inl hright)]
    omega
  · by_cases hleft : report.Stays .left c.machine.tape.pointer
    · rw [if_pos hleft] at htrace
      rw [if_pos (.inr hleft)]
      omega
    · rw [if_neg hright, if_neg hleft] at htrace
      rw [if_neg (not_or.mpr ⟨hright, hleft⟩)]
      omega

/-- The log of a run accounts for it. The tape has grown as often as that is told, and as many moves
in either direction are told to be refused as reports show a pointer that has stayed where it was.
The end of the program is told if the run halts, then once and after everything else; nothing else
is told at level `debug`. A machine that is not verbose tells nothing at level `trace`. A verbose
one tells of every instruction that is executed, once, and of no other: not of a move that is
refused, and not of an instruction that fails. -/
theorem log_accounts_for_run {program : Program} {bound : Nat} {verbose : Bool} {machine : Machine}
    (hrested : Rested program bound verbose machine) {fuel : Nat} {source : Source} {sink : Sink}
    {result : Run} (hrun : machine.run fuel source sink = some result) :
    result.machine.tape.size = machine.tape.size + told "tape grew" result.trace.toList ∧
    told "move_right refused at tape bound" result.trace.toList =
      refusals .right machine.tape.pointer (reports result.trace.toList) ∧
    told "move_left attempted past start of tape" result.trace.toList =
      refusals .left machine.tape.pointer (reports result.trace.toList) ∧
    (∃ n entries c, Path n ⟨machine, source, sink⟩ entries c ∧
      told "program finished" entries = 0 ∧
      result.trace.toList = entries ++
        match result.result with
        | .ok halted => [.event (.finished halted.executed halted.pointer halted.size)]
        | .error _ => []) ∧
    (logged .debug result.trace.toList).length = told "tape grew" result.trace.toList +
      told "move_right refused at tape bound" result.trace.toList +
      told "move_left attempted past start of tape" result.trace.toList +
      told "program finished" result.trace.toList ∧
    (verbose = false → logged .trace result.trace.toList = []) ∧
    (verbose = true → (logged .trace result.trace.toList).length +
        (refusals .right machine.tape.pointer (reports result.trace.toList) +
          refusals .left machine.tape.pointer (reports result.trace.toList)) =
          (reports result.trace.toList).length ∧
      ∀ n entries c d more, Path n ⟨machine, source, sink⟩ entries c →
        step c = .advanced d more → ∀ report, reports more = [report] →
        (logged .trace more).length = if report.Stays .right c.machine.tape.pointer ∨
          report.Stays .left c.machine.tape.pointer then 0 else 1) := by
  have hmode := ((invariant_consistent program bound verbose).rested hrested).verbose_eq
  have htallies := tallies_run hrun
  refine ⟨htallies.size_eq, htallies.right_eq, htallies.left_eq, ?_, length_logged_debug _,
    fun hquiet => ?_, fun hverbose => ⟨htallies.trace_eq (hmode.trans hverbose),
      fun n entries c d more hpath hstep report hreport => ?_⟩⟩
  · obtain ⟨n, entries, e, outcome, d, -, hpath, hstops, rfl⟩ := run_eq_some_iff.mp hrun
    exact ⟨n, entries, e, hpath, hpath.told_finished, trace_conclude outcome d entries.toArray⟩
  · obtain ⟨n, entries, e, outcome, d, -, hpath, hstops, rfl⟩ := run_eq_some_iff.mp hrun
    obtain ⟨outcome', htrace⟩ := exists_trace_conclude outcome d entries.toArray
    rw [htrace, logged_append, hpath.logged_trace (hmode.trans hquiet), logged_trace_farewell,
      List.append_nil]
  · exact length_logged_trace_of_step hstep (hpath.verbose_eq.trans (hmode.trans hverbose)) hreport

/-- On two cells `<>>,>` has one move refused on the left, one on the right, and gains a cell; then
its read fails. The next run reads, has another move refused, and comes to the end. -/
theorem log_accounts_for_run_with_refusals :
    ∃ (program : Program) (first second : Run) (n : Nat) (entries : List Entry)
      (c : Configuration),
      program.text = [0x3c, 0x3e, 0x3e, 0x2c, 0x3e] ∧
      (start program 2 true).run 4 [.failure "gone"] {} = some first ∧
      first.result = .error (.io "gone") ∧ first.machine.tape.size = 2 ∧
      told "tape grew" first.trace.toList = 1 ∧
      told "move_right refused at tape bound" first.trace.toList = 1 ∧
      told "move_left attempted past start of tape" first.trace.toList = 1 ∧
      (reports first.trace.toList).length = 3 ∧ (logged .trace first.trace.toList).length = 1 ∧
      first.machine.run 3 [.data [7]] {} = some second ∧
      Path n ⟨first.machine, [.data [7]], {}⟩ entries c ∧
      second.trace.toList = entries ++ [.event (.finished 5 1 2)] ∧
      (logged .trace second.trace.toList).length = 1 := by
  obtain ⟨program, htext, first, hfirst, hfailed, hsize, hright, hleft, hcount, c, trace, hsecond,
      hsink, hhalted, hright', hleft', hcount'⟩ :
      ∃ program : Program, program.text = [0x3c, 0x3e, 0x3e, 0x2c, 0x3e] ∧ ∃ first,
        (start program 2 true).run 4 [.failure "gone"] {} = some first ∧
          first.result = .error (.io "gone") ∧ first.machine.tape.size = 2 ∧
          refusals .right 0 (reports first.trace.toList) = 1 ∧
          refusals .left 0 (reports first.trace.toList) = 1 ∧
          (reports first.trace.toList).length = 3 ∧ ∃ c trace,
          first.machine.run 3 [.data [7]] {} = some (conclude (.ok ()) c trace) ∧
            c.sink = {} ∧ c.machine.halted = ⟨5, 1, 2⟩ ∧
            refusals .right first.machine.tape.pointer (reports trace.toList) = 1 ∧
            refusals .left first.machine.tape.pointer (reports trace.toList) = 0 ∧
            (reports trace.toList).length = 2 :=
    ⟨⟨#[0x3c, 0x3e, 0x3e, 0x2c, 0x3e], by decide⟩, rfl, _, rfl, rfl, rfl, rfl, rfl, rfl, _, _, rfl,
      rfl, rfl, rfl, rfl, rfl⟩
  obtain ⟨hgrown, hright₁, hleft₁, -, -, -, htrace₁⟩ := log_accounts_for_run .start hfirst
  obtain ⟨-, -, -, ⟨n, entries, d, hpath, -, hend⟩, -, -, htrace₂⟩ :=
    log_accounts_for_run (.run .start hfirst) hsecond
  obtain ⟨left, hconclude⟩ :=
    exists_conclude_eq (hsink ▸ Sink.unfailing_default) (.ok ()) trace
  have hresult : (conclude (.ok ()) c trace).result = .ok ⟨5, 1, 2⟩ := by
    rw [hconclude, ← hhalted]
    rfl
  have hsum₁ := (htrace₁ rfl).1
  have hsum₂ := (htrace₂ rfl).1
  rw [hresult] at hend
  rw [reports_conclude, hright', hleft', hcount'] at hsum₂
  refine ⟨program, first, _, n, entries, d, htext, hfirst, hfailed, hsize, ?_, hright₁.trans hright,
    hleft₁.trans hleft, hcount, ?_, hsecond, hpath, hend, by omega⟩
  · have hblank : (start program 2 true).tape.size = 1 := rfl
    omega
  · rw [hcount] at hsum₁
    have hright₀ : refusals .right (start program 2 true).tape.pointer
        (reports first.trace.toList) = 1 := hright
    have hleft₀ : refusals .left (start program 2 true).tape.pointer
        (reports first.trace.toList) = 1 := hleft
    omega

end Machine

end ByteTape
