import ByteTape.Proofs.Bracket.Nesting

/-!
# Counting in words

A word holds a number below `2 ^ 64`. `Word.add?` and `Word.sub?` are the sum and the difference of
two words where that is a word again, and nothing otherwise.

Here the walks to a partner count in words. They start on the bracket itself with a count of zero,
count one up at a bracket of its kind and one down at a bracket of the other kind, and stop when the
count is back at zero; the walk to the left moreover looks up each byte by its position. On every
text that is shorter than a word can count they find what the unbounded walks find, so no count
leaves the words and no look-up leaves the text.
-/

namespace ByteTape

namespace Word

/-- How many numbers a word can hold. -/
def capacity : Nat := UInt64.size

/-- The sum of two words, if it is a word. -/
def add? (a b : Nat) : Option Nat := if a + b < capacity then some (a + b) else none

def sub? (a b : Nat) : Option Nat := if b ≤ a then some (a - b) else none

theorem add?_eq_some {a b : Nat} (h : a + b < capacity) : add? a b = some (a + b) := if_pos h

theorem sub?_eq_some {a b : Nat} (h : b ≤ a) : sub? a b = some (a - b) := if_pos h

end Word

namespace Bracket

/-- The walk to the right, counting in words from `depth`: the position of the `]` at which the
count comes down to zero, if there is one, unless the count leaves the words before. -/
def closingFrom? (code : Array UInt8) (depth position : Nat) : Option (Option Nat) :=
  if position < code.size then
    match at? code position with
    | some .opening => do
        let depth ← Word.add? depth 1
        closingFrom? code depth (position + 1)
    | some .closing => do
        let depth ← Word.sub? depth 1
        if depth = 0 then some (some position) else closingFrom? code depth (position + 1)
    | none => closingFrom? code depth (position + 1)
  else
    some none
termination_by code.size - position

/-- The walk to the left over the positions below some last one, counting in words from `depth`. -/
def openingFrom? (code : Array UInt8) (depth : Nat) : (last : Nat) → Option (Option Nat)
  | 0 => some none
  | position + 1 => do
      let byte ← code[position]?
      match ofByte? byte with
      | some .closing =>
          let depth ← Word.add? depth 1
          openingFrom? code depth position
      | some .opening =>
          let depth ← Word.sub? depth 1
          if depth = 0 then some (some position) else openingFrom? code depth position
      | none => openingFrom? code depth position

/-- The partner of the `[` at `start`, found by counting in words. -/
def partnerAfter? (code : Array UInt8) (start : Nat) : Option (Except Unmatched Nat) :=
  match at? code start with
  | some .opening => do
      match ← closingFrom? code 0 start with
      | some position => some (.ok position)
      | none => some (.error ⟨.opening, start⟩)
  | _ => some (.error ⟨.opening, start⟩)

def partnerBefore? (code : Array UInt8) (start : Nat) : Option (Except Unmatched Nat) :=
  match at? code start with
  | some .closing => do
      match ← openingFrom? code 0 (start + 1) with
      | some position => some (.ok position)
      | none => some (.error ⟨.closing, start⟩)
  | _ => some (.error ⟨.closing, start⟩)

/-- The walk to the right counts one more than the loops still open inside, and never more than one
for each byte it has met. -/
theorem closingFrom?_eq_findClosing {code : Array UInt8} {depth position : Nat}
    (h : depth + 1 + (code.size - position) < Word.capacity) :
    closingFrom? code (depth + 1) position = some (findClosing code depth position) := by
  fun_induction findClosing code depth position with
  | case1 position hlt hat =>
      rw [closingFrom?, if_pos hlt, hat]
      simp [Word.sub?_eq_some]
  | case2 position hlt inner hat ih =>
      rw [closingFrom?, if_pos hlt, hat]
      simpa [Word.sub?_eq_some] using ih (by omega)
  | case3 depth position hlt hat ih =>
      rw [closingFrom?, if_pos hlt, hat]
      simpa [Word.add?_eq_some (show depth + 1 + 1 < Word.capacity by omega)] using ih (by omega)
  | case4 depth position hlt hat ih =>
      rw [closingFrom?, if_pos hlt, hat]
      exact ih (by omega)
  | case5 depth position hge => rw [closingFrom?, if_neg hge]

theorem openingFrom?_succ {code : Array UInt8} {depth position : Nat} (h : position < code.size) :
    openingFrom? code depth (position + 1) =
      match at? code position with
      | some .closing => do
          let depth ← Word.add? depth 1
          openingFrom? code depth position
      | some .opening => do
          let depth ← Word.sub? depth 1
          if depth = 0 then some (some position) else openingFrom? code depth position
      | none => openingFrom? code depth position := by
  have hbyte : code[position]? = some code[position] := Array.getElem?_eq_getElem h
  rw [openingFrom?, at?, hbyte]
  rfl

theorem openingFrom?_eq_findOpening {code : Array UInt8} {depth last : Nat}
    (hlast : last ≤ code.size) (h : depth + 1 + last < Word.capacity) :
    openingFrom? code (depth + 1) last = some (findOpening code depth last) := by
  fun_induction findOpening code depth last with
  | case1 depth => rfl
  | case2 position hat =>
      rw [openingFrom?_succ hlast, hat]
      simp [Word.sub?_eq_some]
  | case3 position inner hat ih =>
      rw [openingFrom?_succ hlast, hat]
      simpa [Word.sub?_eq_some] using ih (by omega) (by omega)
  | case4 depth position hat ih =>
      rw [openingFrom?_succ hlast, hat]
      simpa [Word.add?_eq_some (show depth + 1 + 1 < Word.capacity by omega)] using
        ih (by omega) (by omega)
  | case5 depth position hat ih =>
      rw [openingFrom?_succ hlast, hat]
      exact ih (by omega) (by omega)

theorem partnerAfter?_eq_partnerAfter {code : Array UInt8} (h : code.size < Word.capacity)
    (start : Nat) : partnerAfter? code start = some (partnerAfter code start) := by
  rcases hat : at? code start with _ | _ | _
  · simp only [partnerAfter?, partnerAfter, hat]
  · have hlt := lt_size_of_at? hat
    have hwalk : closingFrom? code 0 start = some (findClosing code 0 (start + 1)) := by
      rw [closingFrom?, if_pos hlt, hat]
      simpa [Word.add?_eq_some (show 0 + 1 < Word.capacity by decide)] using
        closingFrom?_eq_findClosing (by omega)
    simp only [partnerAfter?, partnerAfter, hat, hwalk]
    rcases findClosing code 0 (start + 1) with _ | position <;> rfl
  · simp only [partnerAfter?, partnerAfter, hat]

theorem partnerBefore?_eq_partnerBefore {code : Array UInt8} (h : code.size < Word.capacity)
    (start : Nat) : partnerBefore? code start = some (partnerBefore code start) := by
  rcases hat : at? code start with _ | _ | _
  · simp only [partnerBefore?, partnerBefore, hat]
  · simp only [partnerBefore?, partnerBefore, hat]
  · have hlt := lt_size_of_at? hat
    have hwalk : openingFrom? code 0 (start + 1) = some (findOpening code 0 start) := by
      rw [openingFrom?_succ hlt, hat]
      simpa [Word.add?_eq_some (show 0 + 1 < Word.capacity by decide)] using
        openingFrom?_eq_findOpening (by omega) (by omega)
    simp only [partnerBefore?, partnerBefore, hat, hwalk]
    rcases findOpening code 0 start with _ | position <;> rfl

end Bracket

end ByteTape
