import ByteTape.Program
import ByteTape.Proofs.Bracket.Nesting

/-!
# The grammar of balanced texts

A text passes the check for balance exactly if the grammar derives it. One direction rebuilds a
derivation from the stack of open loops: `Closes` is the grammar with loops still open, a balanced
text, the `]` of the innermost loop, and what closes the others. The other direction follows the
derivation: over a balanced part of a text the check ends with the stack with which it began,
whatever that is. So the texts that are programs are the balanced ones.
-/

namespace ByteTape

namespace Bracket

/-- Texts that close as many loops as are open, innermost first, and are balanced besides. -/
def Closes : (pending : List Nat) → (text : List UInt8) → Prop
  | [], text => Balanced text
  | _ :: outer, text => ∃ body rest, text = body ++ Instruction.loopEnd.toByte :: rest ∧
      Balanced body ∧ Closes outer rest

namespace Closes

theorem plain {pending : List Nat} {byte : UInt8} {rest : List UInt8}
    (hbyte : ofByte? byte = none) (h : Closes pending rest) : Closes pending (byte :: rest) := by
  cases pending with
  | nil => exact Balanced.plain hbyte h
  | cons start outer =>
      obtain ⟨body, rest, rfl, hbody, hrest⟩ := h
      exact ⟨byte :: body, rest, rfl, Balanced.plain hbyte hbody, hrest⟩

theorem opening {pending : List Nat} {start : Nat} {rest : List UInt8}
    (h : Closes (start :: pending) rest) :
    Closes pending (Instruction.loopStart.toByte :: rest) := by
  obtain ⟨body, rest, rfl, hbody, hrest⟩ := h
  cases pending with
  | nil => exact Balanced.loop hbody hrest
  | cons _ outer =>
      obtain ⟨next, rest, rfl, hnext, hrest⟩ := hrest
      exact ⟨_, rest, by simp, Balanced.loop hbody hnext, hrest⟩

theorem closing {outer : List Nat} {start : Nat} {rest : List UInt8} (h : Closes outer rest) :
    Closes (start :: outer) (Instruction.loopEnd.toByte :: rest) :=
  ⟨[], rest, rfl, Balanced.nil, h⟩

end Closes

theorem closes_of_firstUnmatchedFrom? {pending : List Nat} {position : Nat} {text : List UInt8}
    (h : firstUnmatchedFrom? pending position text = none) : Closes pending text := by
  fun_induction firstUnmatchedFrom? pending position text with
  | case1 pending position =>
      have hnil : pending = [] := by simpa using h
      subst hnil
      exact Balanced.nil
  | case2 pending position byte rest hbyte ih =>
      rw [(ofByte?_eq_some_iff byte .opening).mp hbyte]
      exact (ih h).opening
  | case3 position byte rest hbyte => cases h
  | case4 position byte rest start outer hbyte ih =>
      rw [(ofByte?_eq_some_iff byte .closing).mp hbyte]
      exact (ih h).closing
  | case5 pending position byte rest hbyte ih => exact (ih h).plain hbyte

/-- A balanced part of a text leaves the check with the loops that were open before it. -/
theorem Balanced.firstUnmatchedFrom?_append {text : List UInt8} (h : Balanced text)
    (pending : List Nat) (position : Nat) (rest : List UInt8) :
    firstUnmatchedFrom? pending position (text ++ rest) =
      firstUnmatchedFrom? pending (position + text.length) rest := by
  induction h generalizing pending position rest with
  | nil => rfl
  | plain hbyte _ ih =>
      simp only [List.cons_append, firstUnmatchedFrom?, hbyte, ih, List.length_cons,
        Nat.add_assoc, Nat.add_comm 1]
  | @loop body tail _ _ ihbody ihtail =>
      have hopening := (ofByte?_eq_some_iff Instruction.loopStart.toByte .opening).mpr rfl
      have hclosing := (ofByte?_eq_some_iff Instruction.loopEnd.toByte .closing).mpr rfl
      have hlength : position + 1 + body.length + 1 + tail.length =
          position + (body.length + (tail.length + 1) + 1) := by omega
      simp only [List.cons_append, List.append_assoc, firstUnmatchedFrom?, hopening, hclosing,
        ihbody, ihtail, List.length_cons, List.length_append, hlength]

theorem firstUnmatched?_eq_none_iff (text : List UInt8) :
    firstUnmatched? text = none ↔ Balanced text := by
  constructor
  · intro h
    exact closes_of_firstUnmatchedFrom? h
  · intro h
    have hempty := h.firstUnmatchedFrom?_append [] 0 []
    rwa [List.append_nil] at hempty

/-- A text is balanced if its profile stays above the ground and ends on it. -/
theorem balanced_iff_lands (text : List UInt8) : Balanced text ↔ Lands 0 text := by
  rw [← firstUnmatched?_eq_none_iff]
  constructor
  · intro h
    exact lands_of_firstUnmatchedFrom? h
  · intro h
    have hground : Lands ([] : List Nat).length text := h
    exact firstUnmatchedFrom?_of_lands hground

end Bracket

namespace Program

/-- The texts that are programs are the balanced ones. The program a text is taken as has that very
text, and a text that is refused is refused for a bracket without a partner. -/
theorem ofText_ok_iff_balanced (text : List UInt8) :
    ((∃ program, ofText text = .ok program) ↔ Bracket.Balanced text) ∧
      (∀ program, ofText text = .ok program → program.text = text) ∧
      ∀ error, ofText text = .error error → ∃ unmatched, error = .malformed unmatched := by
  refine ⟨?_, fun program h => (ofText_eq_ok_iff text program).mp h, fun error h => ?_⟩
  · rw [← Bracket.firstUnmatched?_eq_none_iff]
    constructor
    · rintro ⟨program, h⟩
      rw [← (ofText_eq_ok_iff text program).mp h]
      exact program.balanced
    · intro h
      exact ⟨⟨text.toArray, h⟩, (ofText_eq_ok_iff text _).mpr rfl⟩
  · obtain ⟨unmatched, -, rfl⟩ := (ofText_eq_error_iff text error).mp h
    exact ⟨unmatched, rfl⟩

end Program

end ByteTape
