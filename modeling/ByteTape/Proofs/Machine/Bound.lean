import ByteTape.Proofs.Machine.Depth

/-!
# The bound of the tape

The bound of a tape matters only where a move is refused because of it. A run that ends with fewer
cells than its bound allows was never refused one, and each of its moves to the right came to a cell
that was there at the end. So it is the same run under any bound that has room for those cells, even
if it has room for no more than them.

Since a tape never loses a cell, what holds of the tape at the end of a path bounds the tape at each
step of it. Under that bound one step is the same (`step_withBound`), and so is a path and a run.
-/

namespace ByteTape

namespace Tape

/-- The same cells and the same pointer under another bound. -/
def withBound (tape : Tape) (bound : Nat) (h : tape.size ≤ bound) : Tape :=
  { tape with bound, size_le := h }

theorem eq_withBound {tape tape' : Tape} {bound : Nat} (h : tape.size ≤ bound)
    (hcells : tape'.cells = tape.cells) (hpointer : tape'.pointer = tape.pointer)
    (hbound : tape'.bound = bound) : tape' = tape.withBound bound h := by
  obtain ⟨cells, pointer, bound', hlt, hle⟩ := tape'
  obtain rfl : cells = tape.cells := hcells
  obtain rfl : pointer = tape.pointer := hpointer
  obtain rfl : bound' = bound := hbound
  rfl

/-- A move that leaves room was not refused. -/
theorem ne_bound_of_right {tape : Tape} (hroom : tape.right.2.size < tape.bound) :
    tape.pointer + 1 ≠ tape.bound := by
  have hlt : tape.pointer < tape.size := tape.pointer_lt
  have hle := tape.size_le_right
  omega

/-- Away from the bound, a move to the right goes by cells and pointer. -/
theorem right_congr {tape tape' : Tape} (hcells : tape'.cells = tape.cells)
    (hpointer : tape'.pointer = tape.pointer) (hroom : tape.pointer + 1 ≠ tape.bound)
    (hroom' : tape'.pointer + 1 ≠ tape'.bound) :
    tape'.right.1 = tape.right.1 ∧ tape'.right.2.cells = tape.right.2.cells ∧
      tape'.right.2.pointer = tape.right.2.pointer := by
  obtain ⟨cells, pointer, bound, hlt, hle⟩ := tape'
  obtain rfl : cells = tape.cells := hcells
  obtain rfl : pointer = tape.pointer := hpointer
  simp only [right, dif_neg hroom, dif_neg hroom']
  split <;> exact ⟨rfl, rfl, rfl⟩

/-- A move to the right that leaves room is the same under any bound with room for where it ends. -/
theorem right_withBound {tape : Tape} {bound : Nat} (hroom : tape.right.2.size < tape.bound)
    (h : tape.right.2.size ≤ bound) :
    (tape.withBound bound (Nat.le_trans tape.size_le_right h)).right =
      (tape.right.1, tape.right.2.withBound bound h) := by
  have hlimit := ne_bound_of_right hroom
  have hbound : tape.pointer + 1 ≠ bound := by
    have hlt : tape.right.2.pointer < tape.right.2.size := tape.right.2.pointer_lt
    have hnext := right_pointer hlimit
    omega
  obtain ⟨hmove, hcells, hpointer⟩ :=
    @right_congr tape (tape.withBound bound (Nat.le_trans tape.size_le_right h)) rfl rfl hlimit
      hbound
  exact Prod.ext hmove (eq_withBound h hcells hpointer (right_bound _))

theorem left_withBound {tape : Tape} {bound : Nat} (h : tape.left.2.size ≤ bound) :
    (tape.withBound bound (Nat.le_trans (Nat.le_of_eq tape.left_size.symm) h)).left =
      (tape.left.1, tape.left.2.withBound bound h) := by
  obtain ⟨cells, pointer, limit, hpointer, hsize⟩ := tape
  cases pointer <;> rfl

end Tape

namespace Action

theorem size_le_onTape (action : Action) (tape : Tape) :
    tape.size ≤ (action.onTape tape).size := by
  cases action with
  | moveRight => exact tape.size_le_right
  | _ => simp

end Action

namespace Machine

/-- The same machine with another bound for its tape. -/
def withBound (machine : Machine) (bound : Nat) (h : machine.tape.size ≤ bound) : Machine :=
  { machine with tape := machine.tape.withBound bound h }

theorem size_le_perform (machine : Machine) (action : Action) :
    machine.tape.size ≤ (machine.perform action).1.tape.size := by
  rw [perform_fst]
  exact action.size_le_onTape machine.tape

theorem resolve_withBound {machine : Machine} {bound : Nat} (h : machine.tape.size ≤ bound)
    (source : Source) (sink : Sink) (instruction : Instruction) :
    (machine.withBound bound h).resolve source sink instruction =
      machine.resolve source sink instruction := by
  cases instruction <;> rfl

theorem perform_withBound {machine : Machine} {action : Action} {bound : Nat}
    (hroom : (machine.perform action).1.tape.size < machine.tape.bound)
    (h : (machine.perform action).1.tape.size ≤ bound) :
    (machine.withBound bound (Nat.le_trans (machine.size_le_perform action) h)).perform action =
      ((machine.perform action).1.withBound bound h, (machine.perform action).2) := by
  obtain ⟨program, tape, cursor, depth, verbose, buffer, executed⟩ := machine
  cases action with
  | moveRight =>
      simp only [perform, withBound] at hroom h ⊢
      -- The event of a refused move would tell the bound.
      have hunrefused := Tape.right_fst_ne_clamped (Tape.ne_bound_of_right hroom)
      rw [Tape.right_withBound hroom h]
      cases hmove : tape.right.1 with
      | clamped => exact absurd hmove hunrefused
      | moved => rfl
      | grew => rfl
  | moveLeft =>
      simp only [perform, withBound] at hroom h ⊢
      rw [Tape.left_withBound h]
      rfl
  | _ => rfl

theorem account_withBound {machine : Machine} {action : Action} {bound : Nat}
    (hroom : (machine.perform action).1.tape.size < machine.tape.bound)
    (h : (machine.perform action).1.tape.size ≤ bound) (instruction : Instruction) :
    (machine.withBound bound (Nat.le_trans (machine.size_le_perform action) h)).account instruction
      action = machine.account instruction action := by
  rw [account, perform_withBound hroom h]
  rfl

end Machine

/-- The same configuration with another bound for the tape. -/
def Configuration.withBound (c : Configuration) (bound : Nat) (h : c.machine.tape.size ≤ bound) :
    Configuration :=
  { c with machine := c.machine.withBound bound h }

namespace Machine

theorem size_le_of_step {c d : Configuration} {entries : List Entry}
    (hstep : step c = .advanced d entries) : c.machine.tape.size ≤ d.machine.tape.size := by
  cases takes_of_step hstep with
  | comment => exact Nat.le_refl _
  | perform => exact size_le_perform _ _

theorem bound_of_step {c d : Configuration} {entries : List Entry}
    (hstep : step c = .advanced d entries) : d.machine.tape.bound = c.machine.tape.bound := by
  cases takes_of_step hstep with
  | comment => rfl
  | perform =>
      rw [perform_fst]
      exact onTape_bound _ _

theorem Path.size_le {n : Nat} {c d : Configuration} {entries : List Entry}
    (h : Path n c entries d) : c.machine.tape.size ≤ d.machine.tape.size := by
  induction h with
  | nil c => exact Nat.le_refl _
  | cons hstep _ ih => exact Nat.le_trans (size_le_of_step hstep) ih

/-- A step that leaves room is the same under any bound with room for what it leaves. -/
theorem step_withBound {c d : Configuration} {entries : List Entry} {bound : Nat}
    (hstep : step c = .advanced d entries)
    (hroom : d.machine.tape.size < c.machine.tape.bound) (h : d.machine.tape.size ≤ bound) :
    step (c.withBound bound (Nat.le_trans (size_le_of_step hstep) h)) =
      .advanced (d.withBound bound h) entries := by
  cases takes_of_step hstep with
  | comment hbyte hcomment => exact step_of_comment hbyte hcomment
  | perform hbyte hsettles =>
      have hsettles' := settles_of_resolve
        ((resolve_withBound (Nat.le_trans (size_le_of_step hstep) h) _ _ _).trans
          hsettles.resolve_eq)
      have hstep' := step_of_settles (by exact hbyte) hsettles'
      rw [account_withBound hroom h, perform_withBound hroom h] at hstep'
      exact hstep'

theorem Path.withBound {n : Nat} {c d : Configuration} {entries : List Entry} {bound : Nat}
    (hpath : Path n c entries d) (hroom : d.machine.tape.size < c.machine.tape.bound)
    (h : d.machine.tape.size ≤ bound) :
    Path n (c.withBound bound (Nat.le_trans hpath.size_le h)) entries (d.withBound bound h) := by
  induction hpath with
  | nil c => exact .nil _
  | cons hstep hrest ih =>
      -- The tape is largest where the path ends, so there is as much room at each step before.
      have hnext := Nat.lt_of_le_of_lt hrest.size_le hroom
      rw [← bound_of_step hstep] at hroom
      exact .cons (step_withBound hstep hnext (Nat.le_trans hrest.size_le h)) (ih hroom h)

theorem Stops.withBound {c d : Configuration} {outcome : Except Error Unit} {bound : Nat}
    (hstops : Stops c outcome d) (h : c.machine.tape.size ≤ bound) :
    Stops (c.withBound bound h) outcome
      (d.withBound bound (Nat.le_trans (Nat.le_of_eq (by rw [hstops.machine_eq])) h)) := by
  cases hstops with
  | halted hstep =>
      cases takes_of_step hstep with
      | halt hsize => exact .halted (step_of_size_le hsize)
  | failed hstep =>
      cases takes_of_step hstep with
      | fail hbyte hfails =>
          have hfails' := fails_of_resolve
            ((resolve_withBound h _ _ _).trans hfails.resolve_eq)
          exact .failed (step_of_fails (by exact hbyte) hfails')

theorem size_conclude (outcome : Except Error Unit) (c : Configuration) (trace : Array Entry) :
    (conclude outcome c trace).machine.tape.size = c.machine.tape.size := by
  rw [conclude_machine]

theorem conclude_withBound (outcome : Except Error Unit) (c : Configuration) (trace : Array Entry)
    {bound : Nat} (h : c.machine.tape.size ≤ bound) :
    conclude outcome (c.withBound bound h) trace =
      { conclude outcome c trace with
        machine := (conclude outcome c trace).machine.withBound bound
          (Nat.le_trans (Nat.le_of_eq (size_conclude outcome c trace)) h) } := by
  obtain ⟨machine, source, sink⟩ := c
  cases outcome with
  | error error => rfl
  | ok =>
      cases hdelivered : (deliver sink machine.buffer).1 with
      | error cause => simp [conclude, Configuration.withBound, withBound, hdelivered]
      | ok =>
          simp only [conclude, Configuration.withBound, withBound, hdelivered]
          rfl

theorem start_withBound (program : Program) (bound : Nat) (verbose : Bool) {bound' : Nat}
    (h : 1 ≤ bound') :
    (start program bound verbose).withBound bound' h = start program bound' verbose := by
  simp [start, withBound, Tape.withBound, Tape.blank, Nat.max_eq_left h]

/-- The bound of the tape matters only if it is reached. A run that ends with fewer cells than its
bound allows is the same run under every bound with room for the cells it ends with: it ends after
as many steps, with the same result, the same rest of the source, the same sink, the same entries
and the same machine, which differs in the bound of its tape only. -/
theorem run_eq_withBound {program : Program} {bound bound' : Nat} {verbose : Bool} {fuel : Nat}
    {source : Source} {sink : Sink} {first : Run}
    (hrun : (start program bound verbose).run fuel source sink = some first)
    (hroom : first.machine.tape.size < bound) (h : first.machine.tape.size ≤ bound') :
    (start program bound' verbose).run fuel source sink =
      some { first with machine := first.machine.withBound bound' h } := by
  obtain ⟨n, entries, e, outcome, d, hlt, hpath, hstops, rfl⟩ := run_eq_some_iff.mp hrun
  have hsize : (conclude outcome d entries.toArray).machine.tape.size = e.machine.tape.size := by
    rw [size_conclude, hstops.machine_eq]
  have hbegin : 1 ≤ e.machine.tape.size := hpath.size_le
  have hfits : e.machine.tape.size ≤ bound' := by omega
  have hbelow : e.machine.tape.size < max bound 1 := by omega
  refine run_eq_some_iff.mpr ⟨n, entries, _, outcome, _, hlt, ?_, hstops.withBound hfits, ?_⟩
  · rw [← start_withBound program bound verbose (Nat.le_trans hbegin hfits)]
    exact hpath.withBound hbelow hfits
  · exact (conclude_withBound outcome d entries.toArray _).symm

/-- The run of `>+<,` has two cells when its read fails, so a bound of two will do, though the tape
cannot grow any more then. -/
theorem run_eq_withBound_at_edge :
    ∃ (program : Program) (first : Run) (h : first.machine.tape.size ≤ 2),
      program.text = [0x3e, 0x2b, 0x3c, 0x2c] ∧
      (start program 3 true).run 4 [.failure "gone"] {} = some first ∧
      first.machine.tape.size = 2 ∧ first.machine.executed = 3 ∧
      (start program 2 true).run 4 [.failure "gone"] {} =
        some { first with machine := first.machine.withBound 2 h } := by
  let program : Program := ⟨#[0x3e, 0x2b, 0x3c, 0x2c], by decide⟩
  obtain ⟨first, hrun, hsize, hexecuted⟩ : ∃ first,
      (start program 3 true).run 4 [.failure "gone"] {} = some first ∧
        first.machine.tape.size = 2 ∧ first.machine.executed = 3 := ⟨_, rfl, rfl, rfl⟩
  have hfits := Nat.le_of_eq hsize
  exact ⟨program, first, hfits, rfl, hrun, hsize, hexecuted,
    run_eq_withBound hrun (Nat.lt_succ_of_le hfits) hfits⟩

end Machine

end ByteTape
