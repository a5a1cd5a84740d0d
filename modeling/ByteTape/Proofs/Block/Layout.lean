import ByteTape.Proofs.Block.Evaluation
import ByteTape.Proofs.Bracket.Grammar
import ByteTape.Proofs.Machine.Depth

/-!
# Where blocks lie

`Lies code first last block` says that the bytes from `first` to `last` are a block, with comments
between its instructions. A balanced text is a block wherever it stands, so every program is one
block from end to end, and by the way it is written no other. The brackets of a loop that lies in a
text are partners.
-/

namespace ByteTape

open ByteTape.Bracket

namespace Block

/-- A block fills the positions from `first` up to `last`, except for comments. -/
inductive Lies (code : Array UInt8) : (first last : Nat) → Block → Prop where
  | done (position : Nat) : Lies code position position done
  | comment {first last : Nat} {block : Block} {byte : UInt8} (hbyte : code[first]? = some byte)
      (hcomment : Instruction.ofByte? byte = none) (h : Lies code (first + 1) last block) :
      Lies code first last block
  | act {first last : Nat} {operation : Operation} {rest : Block}
      (hbyte : code[first]? = some operation.toInstruction.toByte)
      (hrest : Lies code (first + 1) last rest) : Lies code first last (act operation rest)
  | loop {first finish last : Nat} {body rest : Block}
      (hstart : code[first]? = some Instruction.loopStart.toByte)
      (hbody : Lies code (first + 1) finish body)
      (hfinish : code[finish]? = some Instruction.loopEnd.toByte)
      (hrest : Lies code (finish + 1) last rest) : Lies code first last (loop body rest)

theorem exists_operation {instruction : Instruction} (h : ofInstruction? instruction = none) :
    ∃ operation : Operation, operation.toInstruction = instruction := by
  cases instruction with
  | right => exact ⟨.right, rfl⟩
  | left => exact ⟨.left, rfl⟩
  | increment => exact ⟨.increment, rfl⟩
  | decrement => exact ⟨.decrement, rfl⟩
  | output => exact ⟨.output, rfl⟩
  | input => exact ⟨.input, rfl⟩
  | loopStart => cases h
  | loopEnd => cases h

theorem getElem?_length {code : Array UInt8} {front back : List UInt8} {byte : UInt8}
    (h : code.toList = front ++ byte :: back) : code[front.length]? = some byte := by
  rw [← Array.getElem?_toList, h]
  simp

/-- A balanced text is a block wherever it stands. -/
theorem exists_lies_of_balanced {text : List UInt8} (h : Balanced text) :
    ∃ block : Block, block.instructions = Instruction.ofBytes text ∧
      ∀ (code : Array UInt8) (front back : List UInt8), code.toList = front ++ (text ++ back) →
        Lies code front.length (front.length + text.length) block := by
  induction h with
  | nil => exact ⟨done, rfl, fun code front back _ => .done _⟩
  | plain hbyte hrest ih =>
      rename_i byte rest
      obtain ⟨block, hinstructions, hlies⟩ := ih
      have hnext (code : Array UInt8) (front back : List UInt8)
          (hcode : code.toList = front ++ (byte :: rest ++ back)) :
          Lies code (front.length + 1) (front.length + (byte :: rest).length) block := by
        have hlies' := hlies code (front ++ [byte]) back (by simp [hcode])
        simpa [Nat.add_assoc, Nat.add_comm 1] using hlies'
      rcases hinstruction : Instruction.ofByte? byte with _ | instruction
      · refine ⟨block, by simp [Instruction.ofBytes, hinstruction, hinstructions], ?_⟩
        intro code front back hcode
        exact .comment (getElem?_length hcode) hinstruction (hnext code front back hcode)
      · have hplain : ofInstruction? instruction = none := by
          simpa [ofByte?, hinstruction] using hbyte
        obtain ⟨operation, rfl⟩ := exists_operation hplain
        have hwritten := (Instruction.ofByte?_eq_some_iff byte _).mp hinstruction
        refine ⟨act operation block, ?_, ?_⟩
        · simp [instructions, Instruction.ofBytes, hinstruction, hinstructions]
        · intro code front back hcode
          exact .act (hwritten ▸ getElem?_length hcode) (hnext code front back hcode)
  | loop hbody hrest ihbody ihrest =>
      rename_i body rest
      obtain ⟨inner, hinner, hliesInner⟩ := ihbody
      obtain ⟨outer, houter, hliesOuter⟩ := ihrest
      refine ⟨loop inner outer, ?_, ?_⟩
      · simp [instructions, Instruction.ofBytes, hinner, houter, List.filterMap_append]
      · intro code front back hcode
        let opened := front ++ [Instruction.loopStart.toByte]
        have hopened : opened.length = front.length + 1 := by simp [opened]
        have hclosed : code.toList =
            (opened ++ body) ++ Instruction.loopEnd.toByte :: (rest ++ back) := by
          simp [hcode, opened]
        have hinside := hliesInner code opened (Instruction.loopEnd.toByte :: (rest ++ back))
          (by simp [hclosed])
        have hafter := hliesOuter code (opened ++ body ++ [Instruction.loopEnd.toByte]) back
          (by simp [hclosed])
        have hfinish := getElem?_length hclosed
        simp only [List.length_append, List.length_cons, List.length_nil, hopened]
          at hinside hafter hfinish ⊢
        have hlast : front.length + (body.length + (rest.length + 1) + 1) =
            front.length + 1 + body.length + (0 + 1) + rest.length := by omega
        rw [hlast]
        exact .loop (getElem?_length hcode) hinside hfinish hafter

/-- The profile of a block stays at or above the level at which it begins, and ends there. -/
theorem Lies.level {code : Array UInt8} {first last : Nat} {block : Block}
    (h : Lies code first last block) :
    first ≤ last ∧ nestingAt code last = nestingAt code first ∧
      Above code (nestingAt code first) first last := by
  induction h with
  | done position => exact ⟨Nat.le_refl _, rfl, Above.here (Int.le_refl _)⟩
  | comment hbyte hcomment _ ih =>
      obtain ⟨hle, hlevel, habove⟩ := ih
      have hstep := nestingAt_succ_of_none (at?_eq_none_of_comment hbyte hcomment)
      rw [hstep] at hlevel habove
      exact ⟨by omega, hlevel, Above.cons (Int.le_refl _) habove⟩
  | act hbyte _ ih =>
      rename_i operation _ _
      obtain ⟨hle, hlevel, habove⟩ := ih
      have hat := at?_eq_ofInstruction? hbyte
      rw [operation.ofInstruction?_toInstruction] at hat
      rw [nestingAt_succ_of_none hat] at hlevel habove
      exact ⟨by omega, hlevel, Above.cons (Int.le_refl _) habove⟩
  | @loop start finish _ _ _ hstart _ hfinish _ ihbody ihrest =>
      obtain ⟨hlebody, hlevelbody, habovebody⟩ := ihbody
      obtain ⟨hlerest, hlevelrest, haboverest⟩ := ihrest
      have hup := nestingAt_succ_of_opening (at?_eq_ofInstruction? hstart)
      have hdown := nestingAt_succ_of_closing (at?_eq_ofInstruction? hfinish)
      have hsame : nestingAt code (finish + 1) = nestingAt code start := by omega
      rw [hsame] at hlevelrest haboverest
      refine ⟨by omega, hlevelrest, Above.cons (Int.le_refl _) ?_⟩
      exact (habovebody.mono (by omega)).append haboverest

/-- The brackets of a loop that lies somewhere are partners. -/
theorem Lies.partners {code : Array UInt8} {first finish : Nat} {body : Block}
    (hstart : code[first]? = some Instruction.loopStart.toByte)
    (hbody : Lies code (first + 1) finish body)
    (hfinish : code[finish]? = some Instruction.loopEnd.toByte) :
    Partners code first finish := by
  obtain ⟨hle, hlevel, habove⟩ := hbody.level
  exact ⟨at?_eq_ofInstruction? hstart, at?_eq_ofInstruction? hfinish, hle, hlevel, habove⟩

end Block

namespace Program

/-- Every program is one block from end to end, and only one. -/
theorem exists_block (program : Program) :
    ∃ block : Block, Block.Lies program.code 0 program.size block ∧
      ∀ other : Block, other.instructions = Instruction.ofBytes program.text ↔ other = block := by
  obtain ⟨block, hinstructions, hlies⟩ :=
    Block.exists_lies_of_balanced (closes_of_firstUnmatchedFrom? program.balanced)
  refine ⟨block, ?_, fun other => ⟨fun h => ?_, fun h => ?_⟩⟩
  · simpa [size] using hlies program.code [] [] (by simp)
  · exact Block.eq_of_instructions (h.trans hinstructions.symm)
  · rw [h]
    exact hinstructions

end Program

end ByteTape
