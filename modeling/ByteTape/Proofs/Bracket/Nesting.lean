import ByteTape.Bracket.Balance
import ByteTape.Bracket.Partner
import Mathlib.Tactic.Common

/-!
# Nesting

The nesting of a text is the number of its `[` less the number of its `]`. Read at every position,
it is a profile of the text that goes up by one over a `[`, down by one over a `]` and stays level
over every other byte. Both walks to a partner and the check for balance count brackets, so each is
described here by that profile alone; whatever else is proved of brackets is then arithmetic on it.

A text that passes the check never has a negative nesting, and ends at nesting zero.
-/

namespace ByteTape

namespace Bracket

/-- How the nesting changes over a byte that is a bracket, or over one that is none. -/
def rise : Option Bracket → Int
  | some .opening => 1
  | some .closing => -1
  | none => 0

/-- The number of `[` in a text less the number of `]`. -/
def nesting (text : List UInt8) : Int :=
  (text.count Instruction.loopStart.toByte : Int) - text.count Instruction.loopEnd.toByte

/-- The nesting of what stands before a position. -/
def nestingAt (code : Array UInt8) (position : Nat) : Int :=
  nesting (code.toList.take position)

theorem ofByte?_eq_some_iff (byte : UInt8) (bracket : Bracket) :
    ofByte? byte = some bracket ↔ byte = bracket.toInstruction.toByte := by
  simp only [ofByte?, Option.bind_eq_some_iff, Instruction.ofByte?_eq_some_iff,
    ofInstruction?_eq_some_iff]
  constructor
  · rintro ⟨instruction, rfl, rfl⟩
    rfl
  · rintro rfl
    exact ⟨_, rfl, rfl⟩

/-- Every byte but two is no bracket. -/
theorem ofByte?_eq_none_iff (byte : UInt8) :
    ofByte? byte = none ↔
      byte ≠ Instruction.loopStart.toByte ∧ byte ≠ Instruction.loopEnd.toByte := by
  constructor
  · intro h
    constructor
    · intro hstart
      rw [(ofByte?_eq_some_iff byte .opening).mpr hstart] at h
      cases h
    · intro hend
      rw [(ofByte?_eq_some_iff byte .closing).mpr hend] at h
      cases h
  · rintro ⟨hstart, hend⟩
    rcases h : ofByte? byte with _ | _ | _
    · rfl
    · exact absurd ((ofByte?_eq_some_iff byte .opening).mp h) hstart
    · exact absurd ((ofByte?_eq_some_iff byte .closing).mp h) hend

@[simp] theorem nesting_nil : nesting [] = 0 := rfl

theorem nesting_cons (byte : UInt8) (rest : List UInt8) :
    nesting (byte :: rest) = rise (ofByte? byte) + nesting rest := by
  have hne : Instruction.loopStart.toByte ≠ Instruction.loopEnd.toByte := by decide
  rcases h : ofByte? byte with _ | _ | _
  · obtain ⟨hstart, hend⟩ := (ofByte?_eq_none_iff byte).mp h
    rw [nesting, List.count_cons_of_ne hstart, List.count_cons_of_ne hend, rise, nesting]
    omega
  · have heq : byte = Instruction.loopStart.toByte := (ofByte?_eq_some_iff byte .opening).mp h
    subst heq
    rw [nesting, List.count_cons_self, List.count_cons_of_ne hne, rise, nesting]
    omega
  · have heq : byte = Instruction.loopEnd.toByte := (ofByte?_eq_some_iff byte .closing).mp h
    subst heq
    rw [nesting, List.count_cons_self, List.count_cons_of_ne hne.symm, rise, nesting]
    omega

theorem nesting_append (front back : List UInt8) :
    nesting (front ++ back) = nesting front + nesting back := by
  simp only [nesting, List.count_append]
  omega

@[simp] theorem nestingAt_zero (code : Array UInt8) : nestingAt code 0 = 0 := rfl

theorem nestingAt_succ (code : Array UInt8) (position : Nat) :
    nestingAt code (position + 1) = nestingAt code position + rise (at? code position) := by
  rw [nestingAt, List.take_add_one, nesting_append, ← nestingAt, at?, Array.getElem?_toList]
  cases code[position]? with
  | none => rfl
  | some byte => simp [nesting_cons]

theorem nestingAt_succ_of_opening {code : Array UInt8} {position : Nat}
    (h : at? code position = some .opening) :
    nestingAt code (position + 1) = nestingAt code position + 1 := by
  rw [nestingAt_succ, h, rise]

theorem nestingAt_succ_of_closing {code : Array UInt8} {position : Nat}
    (h : at? code position = some .closing) :
    nestingAt code (position + 1) = nestingAt code position - 1 := by
  rw [nestingAt_succ, h, rise]
  omega

theorem nestingAt_succ_of_none {code : Array UInt8} {position : Nat}
    (h : at? code position = none) :
    nestingAt code (position + 1) = nestingAt code position := by
  rw [nestingAt_succ, h, rise]
  omega

theorem nestingAt_le (code : Array UInt8) (position : Nat) :
    nestingAt code position ≤ position := by
  have hcount : (code.toList.take position).count Instruction.loopStart.toByte ≤ position :=
    Nat.le_trans List.count_le_length (List.length_take_le _ _)
  rw [nestingAt, nesting]
  omega

theorem at?_eq_some_iff {code : Array UInt8} {position : Nat} {bracket : Bracket} :
    at? code position = some bracket ↔ code[position]? = some bracket.toInstruction.toByte := by
  simp only [at?, Option.bind_eq_some_iff, ofByte?_eq_some_iff, exists_eq_right]

theorem lt_size_of_at? {code : Array UInt8} {position : Nat} {bracket : Bracket}
    (h : at? code position = some bracket) : position < code.size := by
  by_contra hge
  rw [at?, Array.getElem?_eq_none (Nat.le_of_not_lt hge)] at h
  cases h

theorem at?_eq_ofInstruction? {code : Array UInt8} {position : Nat} {instruction : Instruction}
    (h : code[position]? = some instruction.toByte) :
    at? code position = ofInstruction? instruction := by
  simp [at?, h, ofByte?]

theorem at?_eq_none_of_comment {code : Array UInt8} {position : Nat} {byte : UInt8}
    (hbyte : code[position]? = some byte) (h : Instruction.ofByte? byte = none) :
    at? code position = none := by
  simp [at?, hbyte, ofByte?, h]

/-- Seen from the height at which a text begins, its profile stays above the ground and ends on
it. -/
structure Lands (height : Int) (text : List UInt8) : Prop where
  nonneg : ∀ k, 0 ≤ height + nesting (text.take k)
  ends : height + nesting text = 0

namespace Lands

theorem nil : Lands 0 [] := ⟨by simp, by simp⟩

theorem cons {height : Int} {byte : UInt8} {rest : List UInt8} (hheight : 0 ≤ height)
    (hrest : Lands (height + rise (ofByte? byte)) rest) : Lands height (byte :: rest) where
  nonneg := by
    rintro (_ | k)
    · simpa using hheight
    · have habove := hrest.nonneg k
      rw [List.take_succ_cons, nesting_cons]
      omega
  ends := by
    have hends := hrest.ends
    rw [nesting_cons]
    omega

theorem tail {height : Int} {byte : UInt8} {rest : List UInt8} (h : Lands height (byte :: rest)) :
    Lands (height + rise (ofByte? byte)) rest where
  nonneg k := by
    have habove := h.nonneg (k + 1)
    rw [List.take_succ_cons, nesting_cons] at habove
    omega
  ends := by
    have hends := h.ends
    rw [nesting_cons] at hends
    omega

/-- A text that begins with a `]` begins in a loop. -/
theorem height_pos {height : Int} {byte : UInt8} {rest : List UInt8}
    (h : Lands height (byte :: rest)) (hbyte : ofByte? byte = some .closing) : 0 < height := by
  have habove := h.tail.nonneg 0
  simp only [hbyte, rise, List.take_zero, nesting_nil] at habove
  omega

end Lands

/-- What the check for balance finds: a text passes it with some loops open if its profile lands
from the height of these loops. -/
theorem lands_of_firstUnmatchedFrom? {pending : List Nat} {position : Nat} {text : List UInt8}
    (h : firstUnmatchedFrom? pending position text = none) : Lands pending.length text := by
  fun_induction firstUnmatchedFrom? pending position text with
  | case1 pending position =>
      have hnil : pending = [] := by simpa using h
      subst hnil
      exact Lands.nil
  | case2 pending position byte rest hbyte ih =>
      refine Lands.cons (by omega) ?_
      rw [hbyte, rise]
      simpa using ih h
  | case3 position byte rest hbyte => cases h
  | case4 position byte rest start outer hbyte ih =>
      refine Lands.cons (by omega) ?_
      have hheight : ((start :: outer).length : Int) + -1 = outer.length := by
        rw [List.length_cons]
        omega
      rw [hbyte, rise, hheight]
      exact ih h
  | case5 pending position byte rest hbyte ih =>
      refine Lands.cons (by omega) ?_
      rw [hbyte, rise]
      simpa using ih h

theorem firstUnmatchedFrom?_of_lands {pending : List Nat} {position : Nat} {text : List UInt8}
    (h : Lands pending.length text) : firstUnmatchedFrom? pending position text = none := by
  fun_induction firstUnmatchedFrom? pending position text with
  | case1 pending position =>
      have hends := h.ends
      obtain rfl : pending = [] := by simpa using hends
      rfl
  | case2 pending position byte rest hbyte ih =>
      have hrest := h.tail
      rw [hbyte, rise] at hrest
      exact ih (by simpa using hrest)
  | case3 position byte rest hbyte => exact absurd (h.height_pos hbyte) (by simp)
  | case4 position byte rest start outer hbyte ih =>
      have hrest := h.tail
      rw [hbyte, rise] at hrest
      exact ih (by simpa [Int.add_neg_cancel_right] using hrest)
  | case5 pending position byte rest hbyte ih =>
      have hrest := h.tail
      rw [hbyte, rise] at hrest
      exact ih (by simpa using hrest)

end Bracket

end ByteTape
