import ByteTape.Program
import ByteTape.Proofs.Bracket.Nesting

/-!
# Partners

Two brackets are partners when the profile of the text between them stays at or above the level just
inside them and is back at that level before the `]`. `partnerAfter_eq_ok_iff` and
`partnerBefore_eq_ok_iff` say that the two walks find partners in this sense and miss none, on every
text; so each walk undoes the other. In a program, where the profile lands, every bracket has a
partner.
-/

namespace ByteTape

namespace Bracket

/-- The profile does not go below `level` anywhere from `first` to `last`. -/
def Above (code : Array UInt8) (level : Int) (first last : Nat) : Prop :=
  ∀ k, first ≤ k → k ≤ last → level ≤ nestingAt code k

theorem Above.here {code : Array UInt8} {level : Int} {position : Nat}
    (h : level ≤ nestingAt code position) : Above code level position position := by
  intro k hfirst hlast
  have heq : k = position := by omega
  rwa [heq]

theorem Above.cons {code : Array UInt8} {level : Int} {first last : Nat}
    (h : level ≤ nestingAt code first) (hrest : Above code level (first + 1) last) :
    Above code level first last := by
  intro k hfirst hlast
  rcases Nat.eq_or_lt_of_le hfirst with heq | hlt
  · rwa [← heq]
  · exact hrest k hlt hlast

theorem Above.concat {code : Array UInt8} {level : Int} {first last : Nat}
    (hrest : Above code level first last) (h : level ≤ nestingAt code (last + 1)) :
    Above code level first (last + 1) := by
  intro k hfirst hlast
  rcases Nat.eq_or_lt_of_le hlast with heq | hlt
  · rwa [heq]
  · exact hrest k hfirst (by omega)

theorem Above.append {code : Array UInt8} {level : Int} {first middle last : Nat}
    (hfront : Above code level first middle) (hback : Above code level (middle + 1) last) :
    Above code level first last := by
  intro k hfirst hlast
  rcases Nat.lt_or_ge middle k with hlt | hge
  · exact hback k hlt hlast
  · exact hfront k hfirst hge

theorem Above.mono {code : Array UInt8} {level lower : Int} {first last : Nat}
    (h : Above code level first last) (hle : lower ≤ level) : Above code lower first last :=
  fun k hfirst hlast => Int.le_trans hle (h k hfirst hlast)

/-- The `[` at `start` and the `]` at `finish` belong together. -/
structure Partners (code : Array UInt8) (start finish : Nat) : Prop where
  opens : at? code start = some .opening
  closes : at? code finish = some .closing
  lt : start < finish
  level : nestingAt code finish = nestingAt code (start + 1)
  above : Above code (nestingAt code (start + 1)) (start + 1) finish

/-- A walk to the right keeps sight of the level of the loop to be closed, which is `depth` below
the walk, and stops where the profile is about to go below it. -/
theorem findClosing_eq_some {code : Array UInt8} (level : Int) {depth position found : Nat}
    (hlevel : nestingAt code position = level + depth)
    (h : findClosing code depth position = some found) :
    position ≤ found ∧ at? code found = some .closing ∧ nestingAt code found = level ∧
      Above code level position found := by
  fun_induction findClosing code depth position with
  | case1 position hlt hat =>
      cases h
      exact ⟨Nat.le_refl _, hat, by omega, Above.here (by omega)⟩
  | case2 position hlt inner hat ih =>
      obtain ⟨hle, hcloses, hfound, habove⟩ :=
        ih (by rw [nestingAt_succ_of_closing hat]; omega) h
      exact ⟨by omega, hcloses, hfound, Above.cons (by omega) habove⟩
  | case3 depth position hlt hat ih =>
      obtain ⟨hle, hcloses, hfound, habove⟩ :=
        ih (by rw [nestingAt_succ_of_opening hat]; omega) h
      exact ⟨by omega, hcloses, hfound, Above.cons (by omega) habove⟩
  | case4 depth position hlt hat ih =>
      obtain ⟨hle, hcloses, hfound, habove⟩ :=
        ih (by rw [nestingAt_succ_of_none hat]; omega) h
      exact ⟨by omega, hcloses, hfound, Above.cons (by omega) habove⟩
  | case5 depth position hge => cases h

theorem findClosing_eq_none {code : Array UInt8} (level : Int) {depth position : Nat}
    (hlevel : nestingAt code position = level + depth)
    (h : findClosing code depth position = none) : Above code level position code.size := by
  fun_induction findClosing code depth position with
  | case1 position hlt hat => cases h
  | case2 position hlt inner hat ih =>
      exact Above.cons (by omega) (ih (by rw [nestingAt_succ_of_closing hat]; omega) h)
  | case3 depth position hlt hat ih =>
      exact Above.cons (by omega) (ih (by rw [nestingAt_succ_of_opening hat]; omega) h)
  | case4 depth position hlt hat ih =>
      exact Above.cons (by omega) (ih (by rw [nestingAt_succ_of_none hat]; omega) h)
  | case5 depth position hge =>
      intro k hfirst hlast
      have heq : k = position := by omega
      rw [heq]
      omega

/-- A walk to the left keeps sight of the level just inside the loop to be opened, and stops where
the profile comes up to it. -/
theorem findOpening_eq_some {code : Array UInt8} (level : Int) {depth position found : Nat}
    (hlevel : nestingAt code position = level + depth)
    (h : findOpening code depth position = some found) :
    found < position ∧ at? code found = some .opening ∧ nestingAt code (found + 1) = level ∧
      Above code level (found + 1) position := by
  fun_induction findOpening code depth position with
  | case1 depth => cases h
  | case2 position hat =>
      cases h
      rw [Nat.succ_eq_add_one] at hlevel ⊢
      exact ⟨by omega, hat, by omega, Above.here (by omega)⟩
  | case3 position inner hat ih =>
      have hstep := nestingAt_succ_of_opening hat
      rw [Nat.succ_eq_add_one] at hlevel
      obtain ⟨hlt, hopens, hfound, habove⟩ := ih (by omega) h
      exact ⟨by omega, hopens, hfound, Above.concat habove (by omega)⟩
  | case4 depth position hat ih =>
      have hstep := nestingAt_succ_of_closing hat
      rw [Nat.succ_eq_add_one] at hlevel
      obtain ⟨hlt, hopens, hfound, habove⟩ := ih (by omega) h
      exact ⟨by omega, hopens, hfound, Above.concat habove (by omega)⟩
  | case5 depth position hat ih =>
      have hstep := nestingAt_succ_of_none hat
      rw [Nat.succ_eq_add_one] at hlevel
      obtain ⟨hlt, hopens, hfound, habove⟩ := ih (by omega) h
      exact ⟨by omega, hopens, hfound, Above.concat habove (by omega)⟩

theorem findOpening_eq_none {code : Array UInt8} (level : Int) {depth position : Nat}
    (hlevel : nestingAt code position = level + depth)
    (h : findOpening code depth position = none) : Above code level 0 position := by
  fun_induction findOpening code depth position with
  | case1 depth => exact Above.here (by omega)
  | case2 position hat => cases h
  | case3 position inner hat ih =>
      rw [Nat.succ_eq_add_one, nestingAt_succ_of_opening hat] at hlevel
      exact Above.concat (ih (by omega) h) (by rw [nestingAt_succ_of_opening hat]; omega)
  | case4 depth position hat ih =>
      rw [Nat.succ_eq_add_one, nestingAt_succ_of_closing hat] at hlevel
      exact Above.concat (ih (by omega) h) (by rw [nestingAt_succ_of_closing hat]; omega)
  | case5 depth position hat ih =>
      rw [Nat.succ_eq_add_one, nestingAt_succ_of_none hat] at hlevel
      exact Above.concat (ih (by omega) h) (by rw [nestingAt_succ_of_none hat]; omega)

namespace Partners

theorem finish_le {code : Array UInt8} {start finish other : Nat}
    (h : Partners code start finish) (hother : Partners code start other) : finish ≤ other := by
  by_contra hlt
  have hbelow := nestingAt_succ_of_closing hother.closes
  have habove := h.above (other + 1) (by have := hother.lt; omega) (by omega)
  have hlevel := hother.level
  omega

theorem start_le {code : Array UInt8} {start other finish : Nat}
    (h : Partners code start finish) (hother : Partners code other finish) : start ≤ other := by
  by_contra hlt
  have hbelow := nestingAt_succ_of_opening h.opens
  have habove := hother.above start (by omega) (by have := h.lt; omega)
  have hlevel := h.level
  have hlevel' := hother.level
  omega

/-- The nesting on both sides of a loop is the same. -/
theorem nestingAt_finish_succ {code : Array UInt8} {start finish : Nat}
    (h : Partners code start finish) :
    nestingAt code (finish + 1) = nestingAt code start := by
  rw [nestingAt_succ_of_closing h.closes, h.level, nestingAt_succ_of_opening h.opens]
  omega

end Partners

/-- The walk to the right finds the partner of a `[`, whatever the text. -/
theorem partnerAfter_eq_ok_iff (code : Array UInt8) (start finish : Nat) :
    partnerAfter code start = .ok finish ↔ Partners code start finish := by
  have hsound : ∀ found, at? code start = some .opening →
      findClosing code 0 (start + 1) = some found → Partners code start found := by
    intro found hopens hfound
    obtain ⟨hle, hcloses, hlevel, habove⟩ :=
      findClosing_eq_some (nestingAt code (start + 1)) (by simp) hfound
    exact ⟨hopens, hcloses, hle, hlevel, habove⟩
  constructor
  · intro h
    unfold partnerAfter at h
    split at h
    · rename_i hopens
      split at h
      · rename_i found hfound
        cases h
        exact hsound _ hopens hfound
      · cases h
    · cases h
  · intro h
    rw [partnerAfter, h.opens]
    rcases hfound : findClosing code 0 (start + 1) with _ | found
    · have habove := findClosing_eq_none (nestingAt code (start + 1)) (by simp) hfound
      have hat := habove (finish + 1) (by have := h.lt; omega) (lt_size_of_at? h.closes)
      have hbelow := nestingAt_succ_of_closing h.closes
      have hlevel := h.level
      omega
    · have hother := hsound found h.opens hfound
      have heq : found = finish := Nat.le_antisymm (hother.finish_le h) (h.finish_le hother)
      simp [heq]

theorem partnerBefore_eq_ok_iff (code : Array UInt8) (start finish : Nat) :
    partnerBefore code finish = .ok start ↔ Partners code start finish := by
  have hsound : ∀ found, at? code finish = some .closing →
      findOpening code 0 finish = some found → Partners code found finish := by
    intro found hcloses hfound
    obtain ⟨hlt, hopens, hlevel, habove⟩ :=
      findOpening_eq_some (nestingAt code finish) (by simp) hfound
    exact ⟨hopens, hcloses, hlt, hlevel.symm, hlevel ▸ habove⟩
  constructor
  · intro h
    unfold partnerBefore at h
    split at h
    · rename_i hcloses
      split at h
      · rename_i found hfound
        cases h
        exact hsound _ hcloses hfound
      · cases h
    · cases h
  · intro h
    rw [partnerBefore, h.closes]
    rcases hfound : findOpening code 0 finish with _ | found
    · have habove := findOpening_eq_none (nestingAt code finish) (by simp) hfound
      have hat := habove start (by omega) (by have := h.lt; omega)
      have hbelow := nestingAt_succ_of_opening h.opens
      have hlevel := h.level
      omega
    · have hother := hsound found h.closes hfound
      have heq : found = start := Nat.le_antisymm (hother.start_le h) (h.start_le hother)
      simp [heq]

end Bracket

namespace Program

open ByteTape.Bracket

theorem nestingAt_nonneg (program : Program) (position : Nat) :
    0 ≤ nestingAt program.code position := by
  have hlands := lands_of_firstUnmatchedFrom? program.balanced
  simpa [nestingAt] using hlands.nonneg position

theorem nestingAt_of_size_le (program : Program) {position : Nat} (h : program.size ≤ position) :
    nestingAt program.code position = 0 := by
  have hlands := lands_of_firstUnmatchedFrom? program.balanced
  rw [nestingAt, List.take_of_length_le (by simpa [size] using h)]
  simpa using hlands.ends

theorem exists_partners_of_opening (program : Program) {start : Nat}
    (h : at? program.code start = some .opening) :
    ∃ finish, Partners program.code start finish := by
  rcases hfound : findClosing program.code 0 (start + 1) with _ | finish
  · have habove := findClosing_eq_none (nestingAt program.code (start + 1)) (by simp) hfound
    have hend := habove program.size (lt_size_of_at? h) (Nat.le_refl _)
    have hground := program.nestingAt_of_size_le (Nat.le_refl program.size)
    have hnonneg := program.nestingAt_nonneg start
    have hstep := nestingAt_succ_of_opening h
    omega
  · refine ⟨finish, (partnerAfter_eq_ok_iff _ _ _).mp ?_⟩
    rw [partnerAfter, h, hfound]

theorem exists_partners_of_closing (program : Program) {finish : Nat}
    (h : at? program.code finish = some .closing) :
    ∃ start, Partners program.code start finish := by
  rcases hfound : findOpening program.code 0 finish with _ | start
  · have habove := findOpening_eq_none (nestingAt program.code finish) (by simp) hfound
    have hstart := habove 0 (Nat.le_refl _) (Nat.zero_le _)
    have hnonneg := program.nestingAt_nonneg (finish + 1)
    have hstep := nestingAt_succ_of_closing h
    simp only [nestingAt_zero] at hstart
    omega
  · refine ⟨start, (partnerBefore_eq_ok_iff _ _ _).mp ?_⟩
    rw [partnerBefore, h, hfound]

end Program

end ByteTape
