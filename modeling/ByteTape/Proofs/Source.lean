import ByteTape.Source
import Mathlib.Data.List.TakeDrop
import Mathlib.Tactic.Common

/-!
# What a read leaves

A read takes events from the front of a source and does not look at those it leaves. So a failure
that is still ahead after some reads can be taken out, with no difference to what those reads meet.
Of the events that it takes, a read makes no more than the first item (`next_items`): how the items
are divided into events is not seen.

A line goes up to the first newline, or up to the end if there is none (`takeLine_append_newline`,
`takeLine_of_not_mem`).
-/

namespace ByteTape

/-- What a read makes of the item it meets. Where there is none it meets the end. -/
def Read.ofItem? : Option SourceItem → Read
  | some (.byte value) => .byte value
  | some (.failure cause) => .failed cause
  | some .endOfInput => .ended
  | none => .ended

namespace Source

/-- A read meets the first item of a source and leaves the others. -/
theorem next_items (source : Source) :
    source.next.1 = .ofItem? source.items.head? ∧ source.next.2.items = source.items.tail := by
  fun_induction next source with
  | case1 => exact ⟨rfl, rfl⟩
  | case2 rest ih => exact ih
  | case3 byte bytes rest => exact ⟨rfl, rfl⟩
  | case4 cause rest => exact ⟨rfl, rfl⟩
  | case5 rest ih => exact ih
  | case6 rest => exact ⟨rfl, rfl⟩

/-- A source that gives some bytes at once has nothing but these. -/
theorem items_data (bytes : List UInt8) : items [.data bytes] = bytes.map .byte := by
  simp [items]

/-- A source of which no read fails. -/
def Unfailing (source : Source) : Prop := ∀ cause, .failure cause ∉ source.items

theorem unfailing_of_bytes {source : Source} {bytes : List UInt8}
    (hbytes : source.items = bytes.map .byte) : source.Unfailing := by
  simp [Unfailing, hbytes]

theorem Unfailing.next_ne_failed {source rest : Source} (h : source.Unfailing) (cause : String) :
    source.next ≠ (.failed cause, rest) := by
  intro hnext
  have hread := (next_items source).1
  rw [hnext] at hread
  rcases hfirst : source.items.head? with _ | _ | failure | _ <;> rw [hfirst] at hread
  case failure => exact h failure (List.mem_of_mem_head? hfirst)
  all_goals cases hread

/-- Sources that begin with the same item read alike. -/
theorem next_congr {source source' : Source} (h : source'.items.take 1 = source.items.take 1) :
    source'.next.1 = source.next.1 := by
  have hhead : source'.items.head? = source.items.head? := by
    simpa [List.head?_take] using congrArg List.head? h
  rw [(next_items source').1, (next_items source).1, hhead]

/-- Bytes up to the first newline, or up to the end where there is none. -/
theorem span_line {line rest : List UInt8} (hline : 0x0a ∉ line)
    (hrest : ∀ byte ∈ rest.head?, byte = 0x0a) :
    (line ++ rest).span (· != 0x0a) = (line, rest) := by
  have hpass : ∀ byte ∈ line, (byte != 0x0a) = true :=
    fun byte hbyte => bne_iff_ne.mpr (ne_of_mem_of_not_mem hbyte hline)
  rw [List.span_eq_takeWhile_dropWhile, List.takeWhile_append_of_pos hpass,
    List.dropWhile_append_of_pos hpass]
  cases rest with
  | nil => simp
  | cons byte rest =>
      obtain rfl := hrest byte rfl
      simp

/-- A line ends with the first newline, and what follows that is left. -/
theorem takeLine_append_newline {line : List UInt8} (hline : 0x0a ∉ line) (rest : List UInt8)
    (more : Source) :
    takeLine (.data (line ++ 0x0a :: rest) :: more) = (.ok ⟨line, true⟩, .data rest :: more) := by
  have hspan : (line ++ 0x0a :: rest).span (· != 0x0a) = (line, 0x0a :: rest) :=
    span_line hline (by simp)
  rw [takeLine]
  simp only [hspan]

/-- A line without a newline is all that there is. -/
theorem takeLine_of_not_mem {line : List UInt8} (hline : 0x0a ∉ line) :
    takeLine [.data line] = (.ok ⟨line, false⟩, []) := by
  have hspan : (line ++ []).span (· != 0x0a) = (line, []) := span_line hline (by simp)
  rw [List.append_nil] at hspan
  rw [takeLine]
  simp only [hspan, takeLine, List.append_nil]

/-- A read that leaves a failure ahead meets the same, and leaves the same before it, whatever
stands in place of the failure and of what follows it. -/
theorem exists_append_of_next {source left rest : Source} {read : Read} {cause : String}
    (h : source.next = (read, left ++ .failure cause :: rest)) :
    ∃ front, source = front ++ .failure cause :: rest ∧
      ∀ tail, next (front ++ tail) = (read, left ++ tail) := by
  fun_induction next source with
  | case1 => simp at h
  | case2 more ih =>
      obtain ⟨front, rfl, hfront⟩ := ih h
      exact ⟨.data [] :: front, rfl, fun tail => by rw [← hfront tail, List.cons_append, next]⟩
  | case3 byte bytes more =>
      obtain ⟨rfl, hleft⟩ := Prod.mk.inj h
      cases left with
      | nil => simp at hleft
      | cons event left =>
          simp only [List.cons_append, List.cons.injEq] at hleft
          obtain ⟨rfl, rfl⟩ := hleft
          exact ⟨.data (byte :: bytes) :: left, rfl, fun tail => rfl⟩
  | case4 cause' more =>
      obtain ⟨rfl, rfl⟩ := Prod.mk.inj h
      exact ⟨.failure cause' :: left, rfl, fun tail => rfl⟩
  | case5 more ih =>
      obtain ⟨front, rfl, hfront⟩ := ih h
      exact ⟨.interrupt :: front, rfl, fun tail => by rw [← hfront tail, List.cons_append, next]⟩
  | case6 more =>
      obtain ⟨rfl, rfl⟩ := Prod.mk.inj h
      exact ⟨.endOfInput :: left, rfl, fun tail => rfl⟩

/-- What stands before a failure that is met does not matter to a read that does not meet it. -/
theorem exists_append_of_failed {source rest : Source} {cause : String}
    (h : source.next = (.failed cause, rest)) :
    ∃ front, source = front ++ .failure cause :: rest ∧
      ∀ tail, next (front ++ tail) = next tail := by
  fun_induction next source with
  | case1 => cases h
  | case2 more ih =>
      obtain ⟨front, rfl, hfront⟩ := ih h
      exact ⟨.data [] :: front, rfl, fun tail => by rw [← hfront tail, List.cons_append, next]⟩
  | case3 => cases h
  | case4 =>
      cases h
      exact ⟨[], rfl, fun tail => rfl⟩
  | case5 more ih =>
      obtain ⟨front, rfl, hfront⟩ := ih h
      exact ⟨.interrupt :: front, rfl, fun tail => by rw [← hfront tail, List.cons_append, next]⟩
  | case6 => cases h

end Source

end ByteTape
