import ByteTape.Machine
import Mathlib.Tactic.Common

/-!
# Blocks

A block is a program read as a tree: a sequence of operations and of loops around a body that is a
block again. Its meaning goes by its structure and knows no positions: an operation acts on the
store, and a loop runs its body while the current cell is not zero.

`Block.evaluate` is given the number of rounds each loop may go and answers `none` when that does
not suffice, so an evaluation that never ends is one for which no number suffices. The store counts
the instructions: one for each operation, one for the start of a loop, and one for the end of each
of its rounds.
-/

namespace ByteTape

/-- The instructions other than the brackets of a loop. -/
inductive Operation where
  | right
  | left
  | increment
  | decrement
  | output
  | input
  deriving DecidableEq, Repr

def Operation.toInstruction : Operation → Instruction
  | right => .right
  | left => .left
  | increment => .increment
  | decrement => .decrement
  | output => .output
  | input => .input

/-- A sequence of operations and loops. -/
inductive Block where
  | done
  | act (operation : Operation) (rest : Block)
  | loop (body rest : Block)
  deriving DecidableEq, Repr

/-- The instructions of a block in the order in which they are written. -/
def Block.instructions : Block → List Instruction
  | done => []
  | act operation rest => operation.toInstruction :: rest.instructions
  | loop body rest => .loopStart :: (body.instructions ++ .loopEnd :: rest.instructions)

/-- All that a block acts on. -/
structure Store where
  tape : Tape
  source : Source
  sink : Sink
  /-- Output collected so far. -/
  buffer : Array UInt8
  /-- How many instructions were executed. -/
  executed : Nat

/-- How an evaluation ended and with what store, unless some loop was not given enough rounds. -/
abbrev Evaluation := Option (Except Error Unit × Store)

/-- Goes on after an evaluation that succeeded. -/
def Evaluation.andThen (first : Evaluation) (next : Store → Evaluation) : Evaluation :=
  match first with
  | some (.ok (), store) => next store
  | some (.error error, store) => some (.error error, store)
  | none => none

namespace Store

def count (store : Store) : Store := { store with executed := store.executed + 1 }

/-- What an operation does. An operation that fails is not counted. -/
def obey (store : Store) (verbose : Bool) : Operation → Except Error Unit × Store
  | .right => (.ok (), { store with tape := store.tape.right.2 }.count)
  | .left => (.ok (), { store with tape := store.tape.left.2 }.count)
  | .increment => (.ok (), { store with tape := store.tape.increment }.count)
  | .decrement => (.ok (), { store with tape := store.tape.decrement }.count)
  | .output =>
      if verbose then
        (.ok (), { store with buffer := store.buffer.push store.tape.current }.count)
      else
        match store.sink.writeAll [store.tape.current] with
        | (.ok (), sink) => (.ok (), { store with sink }.count)
        | (.error cause, sink) => (.error (.io cause), { store with sink })
  | .input =>
      match store.source.next with
      | (.byte value, source) =>
          (.ok (), { store with tape := store.tape.write value, source }.count)
      | (.ended, source) => (.ok (), { store with source }.count)
      | (.failed cause, source) => (.error (.io cause), { store with source })

/-- Runs a body while the current cell is not zero, counting the end of each round. -/
def whileNonzero (body : Store → Evaluation) : (rounds : Nat) → Store → Evaluation
  | 0, _ => none
  | rounds + 1, store =>
      if store.tape.current = 0 then some (.ok (), store)
      else (body store).andThen fun store => whileNonzero body rounds store.count

end Store

/-- The meaning of a block, when no loop may go more than some number of rounds at a time. -/
def Block.evaluate (verbose : Bool) (rounds : Nat) : Block → Store → Evaluation
  | done, store => some (.ok (), store)
  | act operation rest, store =>
      Evaluation.andThen (some (store.obey verbose operation)) (rest.evaluate verbose rounds)
  | loop body rest, store =>
      (store.count.whileNonzero (body.evaluate verbose rounds) rounds).andThen
        (rest.evaluate verbose rounds)

namespace Operation

theorem toInstruction_ne_loopStart (operation : Operation) :
    operation.toInstruction ≠ .loopStart := by
  cases operation <;> simp [toInstruction]

theorem toInstruction_ne_loopEnd (operation : Operation) :
    operation.toInstruction ≠ .loopEnd := by
  cases operation <;> simp [toInstruction]

@[simp] theorem ofInstruction?_toInstruction (operation : Operation) :
    Bracket.ofInstruction? operation.toInstruction = none := by
  cases operation <;> rfl

theorem eq_of_toInstruction {operation other : Operation}
    (h : operation.toInstruction = other.toInstruction) : operation = other := by
  cases operation <;> cases other <;> simp_all [toInstruction]

end Operation

namespace Block

/-- Instructions at which a block that stands before them has ended. -/
def EndsAt (rest : List Instruction) : Prop :=
  ∀ instruction more, rest = instruction :: more → instruction = .loopEnd

theorem endsAt_nil : EndsAt [] := fun _ _ h => nomatch h

theorem endsAt_loopEnd (more : List Instruction) : EndsAt (.loopEnd :: more) := by
  rintro _ _ ⟨⟩
  rfl

/-- Two blocks that are written alike are the same, whatever follows them. -/
theorem eq_of_instructions_append {block other : Block} {rest rest' : List Instruction}
    (hrest : EndsAt rest) (hrest' : EndsAt rest')
    (h : block.instructions ++ rest = other.instructions ++ rest') :
    block = other ∧ rest = rest' := by
  induction block generalizing other rest rest' with
  | done =>
      cases other with
      | done => exact ⟨rfl, by simpa [instructions] using h⟩
      | act operation more =>
          exact absurd (hrest _ _ (by simpa [instructions] using h))
            operation.toInstruction_ne_loopEnd
      | loop body more => cases hrest _ _ (by simpa [instructions] using h)
  | act operation more ih =>
      cases other with
      | done =>
          exact absurd (hrest' _ _ (by simpa [instructions] using h.symm))
            operation.toInstruction_ne_loopEnd
      | act operation' more' =>
          obtain ⟨hhead, htail⟩ := List.cons.inj h
          obtain ⟨rfl, rfl⟩ := ih hrest hrest' htail
          rw [Operation.eq_of_toInstruction hhead]
          exact ⟨rfl, rfl⟩
      | loop body more' =>
          exact absurd (List.cons.inj h).1 operation.toInstruction_ne_loopStart
  | loop body more ihbody ihmore =>
      cases other with
      | done => cases hrest' _ _ (by simpa [instructions] using h.symm)
      | act operation more' =>
          exact absurd (List.cons.inj h).1.symm operation.toInstruction_ne_loopStart
      | loop body' more' =>
          simp only [instructions, List.cons_append, List.append_assoc, List.cons.injEq,
            true_and] at h
          obtain ⟨rfl, htail⟩ := ihbody (endsAt_loopEnd _) (endsAt_loopEnd _) h
          obtain ⟨rfl, rfl⟩ := ihmore hrest hrest' (List.cons.inj htail).2
          exact ⟨rfl, rfl⟩

theorem eq_of_instructions {block other : Block} (h : block.instructions = other.instructions) :
    block = other :=
  (eq_of_instructions_append endsAt_nil endsAt_nil (congrArg (· ++ []) h)).1

end Block

end ByteTape
