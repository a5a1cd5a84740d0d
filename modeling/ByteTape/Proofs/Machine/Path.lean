import ByteTape.Proofs.Machine.Step

/-!
# Paths

A path is a number of bytes taken one after the other, with the entries they leave. `dispatch` is a
path up to a configuration where the machine stops: `dispatch_eq_some_iff` and
`dispatch_eq_none_iff` say so, and take the number of steps it is given out of every later argument.

Between two runs a machine is `Rested`; between two bytes of a run it is `Reached`, with what is
left of the source and the sink. What holds of all of these is derived from what one step keeps,
through `Invariant`.
-/

namespace ByteTape

namespace Machine

/-- Taking `n` bytes leads from one configuration to another and leaves some entries. -/
inductive Path : Nat → Configuration → List Entry → Configuration → Prop where
  | nil (c : Configuration) : Path 0 c [] c
  | cons {n : Nat} {c d e : Configuration} {entries rest : List Entry}
      (hstep : step c = .advanced d entries) (hrest : Path n d rest e) :
      Path (n + 1) c (entries ++ rest) e

/-- The machine stops at a configuration: at the end of its program or at a failing instruction. -/
inductive Stops (c : Configuration) : Except Error Unit → Configuration → Prop where
  | halted {d : Configuration} (h : step c = .halted d) : Stops c (.ok ()) d
  | failed {error : Error} {d : Configuration} (h : step c = .failed error d) :
      Stops c (.error error) d

namespace Path

theorem append {m n : Nat} {c d e : Configuration} {entries rest : List Entry}
    (h : Path m c entries d) (h' : Path n d rest e) : Path (m + n) c (entries ++ rest) e := by
  induction h with
  | nil c => simpa using h'
  | cons hstep hrest ih =>
      rw [List.append_assoc, Nat.add_right_comm]
      exact .cons hstep (ih h')

theorem single {c d : Configuration} {entries : List Entry} (h : step c = .advanced d entries) :
    Path 1 c entries d := by
  simpa using Path.cons h (.nil d)

theorem unique {n : Nat} {c d d' : Configuration} {entries entries' : List Entry}
    (h : Path n c entries d) (h' : Path n c entries' d') : entries = entries' ∧ d = d' := by
  induction h generalizing entries' with
  | nil c =>
      cases h'
      exact ⟨rfl, rfl⟩
  | cons hstep hrest ih =>
      cases h' with
      | cons hstep' hrest' =>
          rw [hstep] at hstep'
          cases hstep'
          obtain ⟨rfl, rfl⟩ := ih hrest'
          exact ⟨rfl, rfl⟩

theorem split {m n : Nat} {c e : Configuration} {entries : List Entry}
    (h : Path (m + n) c entries e) :
    ∃ front back d, Path m c front d ∧ Path n d back e ∧ entries = front ++ back := by
  induction m generalizing c entries with
  | zero => exact ⟨[], entries, c, .nil c, by simpa using h, rfl⟩
  | succ m ih =>
      rw [Nat.add_right_comm] at h
      cases h with
      | cons hstep hrest =>
          obtain ⟨front, back, d, hfront, hback, rfl⟩ := ih hrest
          exact ⟨_, back, d, .cons hstep hfront, hback, by rw [List.append_assoc]⟩

theorem length_le_of_stops {m n : Nat} {c d d' e : Configuration} {entries entries' : List Entry}
    {outcome : Except Error Unit} (h : Path m c entries d) (hstops : Stops d outcome e)
    (h' : Path n c entries' d') : n ≤ m := by
  by_contra hlt
  obtain ⟨k, rfl⟩ : ∃ k, n = m + (k + 1) := ⟨n - m - 1, by omega⟩
  obtain ⟨front, back, middle, hfront, hback, -⟩ := h'.split
  obtain ⟨-, rfl⟩ := h.unique hfront
  cases hback with
  | cons hstep _ => cases hstops <;> simp_all

end Path

theorem Stops.unique {c d d' : Configuration} {outcome outcome' : Except Error Unit}
    (h : Stops c outcome d) (h' : Stops c outcome' d') : outcome = outcome' ∧ d = d' := by
  cases h <;> cases h' <;> simp_all

/-- There is one place where the machine stops and one way to it. -/
theorem Path.unique_of_stops {m n : Nat} {c d d' e e' : Configuration}
    {entries entries' : List Entry} {outcome outcome' : Except Error Unit}
    (h : Path m c entries d) (hstops : Stops d outcome e) (h' : Path n c entries' d')
    (hstops' : Stops d' outcome' e') : entries = entries' ∧ outcome = outcome' ∧ e = e' := by
  have hle := h'.length_le_of_stops hstops' h
  have hge := h.length_le_of_stops hstops h'
  obtain rfl : m = n := Nat.le_antisymm hle hge
  obtain ⟨rfl, rfl⟩ := h.unique h'
  exact ⟨rfl, hstops.unique hstops'⟩

/-- A dispatch that ends is a path to where the machine stops, shorter than the steps given. -/
theorem dispatch_eq_some_iff {fuel : Nat} {c d : Configuration} {trace trace' : Array Entry}
    {outcome : Except Error Unit} :
    dispatch fuel c trace = some (outcome, d, trace') ↔
      ∃ n entries e, n < fuel ∧ Path n c entries e ∧ Stops e outcome d ∧
        trace' = trace ++ entries := by
  induction fuel generalizing c trace with
  | zero => simp [dispatch]
  | succ fuel ih =>
      rw [dispatch]
      constructor
      · intro h
        split at h
        · rename_i hstep
          cases h
          exact ⟨0, [], c, by omega, .nil c, .halted hstep, by simp⟩
        · rename_i hstep
          cases h
          exact ⟨0, [], c, by omega, .nil c, .failed hstep, by simp⟩
        · rename_i hstep
          obtain ⟨n, rest, e, hlt, hpath, hstops, rfl⟩ := ih.mp h
          exact ⟨n + 1, _, e, by omega, .cons hstep hpath, hstops,
            Array.toList_inj.mp (by simp)⟩
      · rintro ⟨n, entries, e, hlt, hpath, hstops, rfl⟩
        cases hpath with
        | nil => cases hstops with
          | halted hstep => simp [hstep]
          | failed hstep => simp [hstep]
        | cons hstep hrest =>
            rw [hstep]
            exact ih.mpr ⟨_, _, e, by omega, hrest, hstops,
              Array.toList_inj.mp (by simp)⟩

/-- A dispatch that does not end within the steps given takes a byte with each of them. -/
theorem dispatch_eq_none_iff {fuel : Nat} {c : Configuration} {trace : Array Entry} :
    dispatch fuel c trace = none ↔ ∃ entries d, Path fuel c entries d := by
  induction fuel generalizing c trace with
  | zero => exact ⟨fun _ => ⟨[], c, .nil c⟩, fun _ => rfl⟩
  | succ fuel ih =>
      rw [dispatch]
      constructor
      · intro h
        split at h
        · cases h
        · cases h
        · rename_i hstep
          obtain ⟨rest, d, hpath⟩ := ih.mp h
          exact ⟨_, d, .cons hstep hpath⟩
      · rintro ⟨entries, d, hpath⟩
        cases hpath with
        | cons hstep hrest =>
            rw [hstep]
            exact ih.mpr ⟨_, _, hrest⟩

theorem run_eq_some_iff {fuel : Nat} {machine : Machine} {source : Source} {sink : Sink}
    {result : Run} :
    run fuel machine source sink = some result ↔
      ∃ n entries e outcome d, n < fuel ∧ Path n ⟨machine, source, sink⟩ entries e ∧
        Stops e outcome d ∧ result = conclude outcome d entries.toArray := by
  rw [run, Option.map_eq_some_iff]
  constructor
  · rintro ⟨⟨outcome, d, trace⟩, hdispatch, rfl⟩
    obtain ⟨n, entries, e, hlt, hpath, hstops, rfl⟩ := dispatch_eq_some_iff.mp hdispatch
    exact ⟨n, entries, e, outcome, d, hlt, hpath, hstops, by simp⟩
  · rintro ⟨n, entries, e, outcome, d, hlt, hpath, hstops, rfl⟩
    exact ⟨(outcome, d, entries.toArray),
      dispatch_eq_some_iff.mpr ⟨n, entries, e, hlt, hpath, hstops, by simp⟩, rfl⟩

theorem run_eq_none_iff {fuel : Nat} {machine : Machine} {source : Source} {sink : Sink} :
    run fuel machine source sink = none ↔
      ∃ entries d, Path fuel ⟨machine, source, sink⟩ entries d := by
  rw [run, Option.map_eq_none_iff, dispatch_eq_none_iff]

/-- There is no end to the bytes the machine takes. -/
def Endless (c : Configuration) : Prop := ∀ n, ∃ entries d, Path n c entries d

theorem run_eq_none_iff_endless {machine : Machine} {source : Source} {sink : Sink} :
    (∀ fuel, run fuel machine source sink = none) ↔ Endless ⟨machine, source, sink⟩ := by
  simp only [run_eq_none_iff, Endless]

theorem Path.endless_iff {n : Nat} {c d : Configuration} {entries : List Entry}
    (h : Path n c entries d) : Endless c ↔ Endless d := by
  constructor
  · intro hendless m
    obtain ⟨_, e, hpath⟩ := hendless (n + m)
    obtain ⟨front, back, d', hfront, hback, -⟩ := hpath.split
    obtain ⟨-, rfl⟩ := h.unique hfront
    exact ⟨back, e, hback⟩
  · intro hendless m
    obtain ⟨rest, e, hpath⟩ := hendless m
    have hlong := h.append hpath
    rw [Nat.add_comm] at hlong
    obtain ⟨front, back, d', hfront, -, -⟩ := hlong.split
    exact ⟨front, d', hfront⟩

/-- A machine as one run leaves it to the next. -/
inductive Rested (program : Program) (bound : Nat) (verbose : Bool) : Machine → Prop where
  | start : Rested program bound verbose (start program bound verbose)
  | run {fuel : Nat} {machine : Machine} {source : Source} {sink : Sink} {result : Run}
      (h : Rested program bound verbose machine)
      (hrun : machine.run fuel source sink = some result) :
      Rested program bound verbose result.machine

/-- A machine between two bytes of a run, with what is left of its source and its sink. -/
inductive Reached (program : Program) (bound : Nat) (verbose : Bool) : Configuration → Prop where
  | begin {machine : Machine} (h : Rested program bound verbose machine) (source : Source)
      (sink : Sink) : Reached program bound verbose ⟨machine, source, sink⟩
  | advance {c d : Configuration} {entries : List Entry} (h : Reached program bound verbose c)
      (hstep : step c = .advanced d entries) : Reached program bound verbose d

theorem Stops.machine_eq {c d : Configuration} {outcome : Except Error Unit}
    (h : Stops c outcome d) : d.machine = c.machine := by
  cases h with
  | halted h =>
      cases takes_of_step h
      rfl
  | failed h =>
      cases takes_of_step h
      rfl

theorem Stops.size_le {c d : Configuration} (h : Stops c (.ok ()) d) :
    c.machine.program.size ≤ c.machine.cursor := by
  cases h with
  | halted h =>
      cases takes_of_step h with
      | halt hsize => exact hsize

/-- However a run ends, it leaves the machine as it stopped, with nothing collected. -/
theorem conclude_machine (outcome : Except Error Unit) (c : Configuration) (trace : Array Entry) :
    (conclude outcome c trace).machine = { c.machine with buffer := #[] } := by
  obtain ⟨machine, source, sink⟩ := c
  simp only [conclude]
  split <;> rfl

theorem conclude_source (outcome : Except Error Unit) (c : Configuration) (trace : Array Entry) :
    (conclude outcome c trace).source = c.source := by
  obtain ⟨machine, source, sink⟩ := c
  simp only [conclude]
  split <;> rfl

theorem conclude_error_trace (error : Error) (c : Configuration) (trace : Array Entry) :
    (conclude (.error error) c trace).trace = trace := by
  simp only [conclude]

theorem Rested.buffer_eq {program : Program} {bound : Nat} {verbose : Bool} {machine : Machine}
    (h : Rested program bound verbose machine) : machine.buffer = #[] := by
  cases h with
  | start => rfl
  | run _ hrun =>
      obtain ⟨n, entries, e, outcome, d, -, -, -, rfl⟩ := run_eq_some_iff.mp hrun
      rw [conclude_machine]

theorem outcome_of_conclude_ok {outcome : Except Error Unit} {c : Configuration}
    {trace : Array Entry} {halted : Halted}
    (h : (conclude outcome c trace).result = .ok halted) : outcome = .ok () := by
  obtain ⟨machine, source, sink⟩ := c
  cases outcome with
  | ok _ => rfl
  | error error => simp [conclude] at h

/-- A run whose dispatch came to the end of the program fails because of its delivery. -/
theorem exists_deliver_of_conclude {c : Configuration} {trace : Array Entry} {error : Error}
    (h : (conclude (.ok ()) c trace).result = .error error) :
    ∃ cause, error = .io cause ∧ (deliver c.sink c.machine.buffer).1 = .error cause := by
  obtain ⟨machine, source, sink⟩ := c
  rcases hdelivered : (deliver sink machine.buffer).1 with cause | _
  · simp only [conclude, hdelivered, Except.error.injEq] at h
    exact ⟨cause, h.symm, rfl⟩
  · simp [conclude, hdelivered] at h

/-- A run that does not succeed either failed in its dispatch or could not deliver its output. -/
theorem outcome_of_conclude_error {outcome : Except Error Unit} {c : Configuration}
    {trace : Array Entry} {error : Error}
    (h : (conclude outcome c trace).result = .error error) :
    outcome = .error error ∨ outcome = .ok () ∧ ∃ cause, error = .io cause := by
  obtain ⟨machine, source, sink⟩ := c
  cases outcome with
  | ok _ =>
      right
      obtain ⟨cause, hcause, -⟩ := exists_deliver_of_conclude h
      exact ⟨rfl, cause, hcause⟩
  | error failure =>
      left
      simpa [conclude] using h

/-- A property of machines that holds at the start, is kept by taking a byte, and does not hang on
collected output. -/
structure Invariant (program : Program) (bound : Nat) (verbose : Bool) (P : Machine → Prop) :
    Prop where
  start : P (Machine.start program bound verbose)
  advance {c d : Configuration} {entries : List Entry} (h : P c.machine)
    (hstep : step c = .advanced d entries) : P d.machine
  clear {machine : Machine} (h : P machine) : P { machine with buffer := #[] }

namespace Invariant

variable {program : Program} {bound : Nat} {verbose : Bool} {P : Machine → Prop}

theorem path (hP : Invariant program bound verbose P) {n : Nat} {c d : Configuration}
    {entries : List Entry} (h : Path n c entries d) (hc : P c.machine) : P d.machine := by
  induction h with
  | nil c => exact hc
  | cons hstep _ ih => exact ih (hP.advance hc hstep)

theorem rested (hP : Invariant program bound verbose P) {machine : Machine}
    (h : Rested program bound verbose machine) : P machine := by
  induction h with
  | start => exact hP.start
  | run _ hrun ih =>
      obtain ⟨n, entries, e, outcome, d, -, hpath, hstops, rfl⟩ := run_eq_some_iff.mp hrun
      rw [conclude_machine, hstops.machine_eq]
      exact hP.clear (hP.path hpath ih)

theorem reached (hP : Invariant program bound verbose P) {c : Configuration}
    (h : Reached program bound verbose c) : P c.machine := by
  induction h with
  | begin h source sink => exact hP.rested h
  | advance _ hstep ih => exact hP.advance ih hstep

end Invariant

end Machine

end ByteTape
