import ByteTape.Proofs.Bracket.Diagnosis
import ByteTape.Proofs.Bracket.Grammar
import ByteTape.Proofs.Checked.Partner

/-!
# Pairs

A `[` and a `]` after it are a pair when the text between them is balanced, in the sense of the
grammar. The walks to a partner know nothing of the grammar; they count. Yet from every position of
every text, balanced or not, a walk comes to the other bracket of a pair if there is one, and fails
if there is none (`partner_iff_encloses`). What connects the two is the profile of the text: it is
level over a stretch of a text exactly if that stretch is balanced (`level_iff_balanced`).

It follows that the two walks undo each other, and that of two pairs the one either lies within the
other or apart from it.
-/

namespace ByteTape

namespace Bracket

section

variable {code : Array UInt8} {first last : Nat}

/-- The profile of a stretch of a text is that of the text, seen from where the stretch begins. -/
theorem nesting_take_extract {k : Nat} (hk : first + k ≤ last) :
    nesting ((code.extract first last).toList.take k) =
      nestingAt code (first + k) - nestingAt code first := by
  have hshort : min k (last - first) = k := by omega
  rw [Array.toList_extract, List.extract_eq_take_drop, List.take_take, hshort, nestingAt,
    nestingAt, List.take_add, nesting_append]
  omega

/-- A stretch of a text is balanced if the profile of the text is level over it. -/
theorem level_iff_balanced (hle : first ≤ last) :
    Level code first last ↔ Balanced (code.extract first last).toList := by
  have hwhole : (code.extract first last).toList.take (last - first) =
      (code.extract first last).toList := by
    rw [Array.toList_extract, List.extract_eq_take_drop, List.take_take, Nat.min_self]
  have hnesting : nesting (code.extract first last).toList =
      nestingAt code last - nestingAt code first := by
    rw [← hwhole, nesting_take_extract (by omega), show first + (last - first) = last by omega]
  rw [balanced_iff_lands]
  constructor
  · intro h
    refine ⟨fun k => ?_, ?_⟩
    · rcases Nat.le_total k (last - first) with hk | hk
      · rw [nesting_take_extract (by omega)]
        have habove := h.above (first + k) (by omega) (by omega)
        omega
      · rw [← hwhole, List.take_take, Nat.min_eq_right hk, hwhole, hnesting, h.ends]
        omega
    · rw [hnesting, h.ends]
      omega
  · intro h
    refine ⟨hle, ?_, fun k hfirst hlast => ?_⟩
    · have hends := h.ends
      omega
    · have hnonneg := h.nonneg (k - first)
      rw [nesting_take_extract (by omega), show first + (k - first) = k by omega] at hnonneg
      omega

end

/-- A `[` and a `]` around a balanced text. -/
structure Encloses (code : Array UInt8) (start finish : Nat) : Prop where
  opens : code[start]? = some Instruction.loopStart.toByte
  closes : code[finish]? = some Instruction.loopEnd.toByte
  lt : start < finish
  balanced : Balanced (code.extract (start + 1) finish).toList

theorem partners_iff_encloses {code : Array UInt8} {start finish : Nat} :
    Partners code start finish ↔ Encloses code start finish := by
  constructor
  · intro h
    have hlevel : Level code (start + 1) finish := ⟨h.lt, h.level, h.above⟩
    exact ⟨at?_eq_some_iff.mp h.opens, at?_eq_some_iff.mp h.closes, h.lt,
      (level_iff_balanced h.lt).mp hlevel⟩
  · intro h
    have hlevel : Level code (start + 1) finish := (level_iff_balanced h.lt).mpr h.balanced
    exact hlevel.partners (at?_eq_some_iff.mpr h.opens) (at?_eq_some_iff.mpr h.closes)

theorem partner_eq_error_iff (code : Array UInt8) (bracket : Bracket) (start : Nat) :
    partner code bracket start = .error ⟨bracket, start⟩ ↔
      ∀ position, partner code bracket start ≠ .ok position := by
  rw [← exists_eq_error_iff]
  constructor
  · intro h
    exact ⟨_, h⟩
  · rintro ⟨unmatched, h⟩
    rw [h, partner_eq_error h]

/-- From every position of every text, the walk to the right comes to the `]` of a pair whose `[` it
starts from, the walk to the left comes to the `[` of a pair whose `]` it starts from, and where
there is no such pair a walk fails and names the bracket that it should have started from and the
position. On a text that words can count, a count in words that starts from zero never goes below
zero on any of these walks, nor out of the words, and finds the same. -/
theorem partner_iff_encloses (code : Array UInt8) (start : Nat) :
    (∀ finish, partnerAfter code start = .ok finish ↔ Encloses code start finish) ∧
    (∀ opening, partnerBefore code start = .ok opening ↔ Encloses code opening start) ∧
    (partnerAfter code start = .error ⟨.opening, start⟩ ↔
      ∀ finish, ¬Encloses code start finish) ∧
    (partnerBefore code start = .error ⟨.closing, start⟩ ↔
      ∀ opening, ¬Encloses code opening start) ∧
    (code.size < Word.capacity →
      partnerAfter? code start = some (partnerAfter code start) ∧
      partnerBefore? code start = some (partnerBefore code start)) := by
  have hafter (finish : Nat) : partnerAfter code start = .ok finish ↔ Encloses code start finish :=
    (partnerAfter_eq_ok_iff code start finish).trans partners_iff_encloses
  have hbefore (opening : Nat) :
      partnerBefore code start = .ok opening ↔ Encloses code opening start :=
    (partnerBefore_eq_ok_iff code opening start).trans partners_iff_encloses
  refine ⟨hafter, hbefore, ?_, ?_, fun hsize =>
    ⟨partnerAfter?_eq_partnerAfter hsize start, partnerBefore?_eq_partnerBefore hsize start⟩⟩
  · simp only [← hafter]
    exact partner_eq_error_iff code .opening start
  · simp only [← hbefore]
    exact partner_eq_error_iff code .closing start

/-- In `][[+]` the second `[` and the last `]` are a pair, and the other two brackets are strays. -/
theorem partner_iff_encloses_between_strays :
    (#[0x5d, 0x5b, 0x5b, 0x2b, 0x5d] : Array UInt8).size < Word.capacity ∧
    partnerAfter #[0x5d, 0x5b, 0x5b, 0x2b, 0x5d] 2 = .ok 4 ∧
    partnerAfter? #[0x5d, 0x5b, 0x5b, 0x2b, 0x5d] 2 = some (.ok 4) ∧
    partnerBefore #[0x5d, 0x5b, 0x5b, 0x2b, 0x5d] 4 = .ok 2 ∧
    (∀ finish, ¬Encloses #[0x5d, 0x5b, 0x5b, 0x2b, 0x5d] 1 finish) ∧
    partnerBefore? #[0x5d, 0x5b, 0x5b, 0x2b, 0x5d] 0 = some (.error ⟨.closing, 0⟩) := by
  have hsize : (#[0x5d, 0x5b, 0x5b, 0x2b, 0x5d] : Array UInt8).size < Word.capacity := by decide
  have hpair : Encloses #[0x5d, 0x5b, 0x5b, 0x2b, 0x5d] 2 4 :=
    ⟨rfl, rfl, by decide, .plain rfl .nil⟩
  obtain ⟨hafter, -, -, -, hwords⟩ := partner_iff_encloses #[0x5d, 0x5b, 0x5b, 0x2b, 0x5d] 2
  obtain ⟨-, hbefore, -⟩ := partner_iff_encloses #[0x5d, 0x5b, 0x5b, 0x2b, 0x5d] 4
  obtain ⟨-, -, hunclosed, -⟩ := partner_iff_encloses #[0x5d, 0x5b, 0x5b, 0x2b, 0x5d] 1
  obtain ⟨-, -, -, -, hwords'⟩ := partner_iff_encloses #[0x5d, 0x5b, 0x5b, 0x2b, 0x5d] 0
  have hfound := (hafter 4).mpr hpair
  refine ⟨hsize, hfound, hfound ▸ (hwords hsize).1, (hbefore 2).mpr hpair,
    hunclosed.mp (by decide +kernel), ?_⟩
  rw [(hwords' hsize).2]
  rfl

namespace Partners

variable {code : Array UInt8} {start finish start' finish' : Nat}

/-- A pair that begins later than another ends before it does, or begins after its end. -/
theorem lt_or_lt (h : Partners code start finish) (h' : Partners code start' finish')
    (hlt : start < start') : finish < start' ∨ finish' < finish := by
  by_contra hcross
  obtain ⟨hinside, hbeyond⟩ := not_or.mp hcross
  -- Between its brackets the second pair keeps above the level just inside it, which is above that
  -- of the first pair; but behind the `]` of the first pair the profile is below that.
  have hne : start' ≠ finish := by
    rintro rfl
    cases h.closes.symm.trans h'.opens
  have hne' : finish ≠ finish' := by
    rintro rfl
    have hle := h'.start_le h
    omega
  have hdeeper := h.above start' hlt (by omega)
  have hbehind := h'.above (finish + 1) (by omega) (by omega)
  rw [nestingAt_succ_of_opening h.opens] at hdeeper
  rw [nestingAt_succ_of_opening h'.opens, h.nestingAt_finish_succ] at hbehind
  omega

end Partners

/-- The two walks undo each other, on every text, and pairs never cross: of two of them, the one
that begins later either begins behind the end of the other or ends within it. -/
theorem partner_inverse_never_crosses (code : Array UInt8) :
    (∀ start finish, partnerAfter code start = .ok finish ↔
      partnerBefore code finish = .ok start) ∧
    ∀ start finish start' finish', partnerAfter code start = .ok finish →
      partnerAfter code start' = .ok finish' → start < start' →
      finish < start' ∨ finish' < finish := by
  refine ⟨fun start finish => ?_, fun start finish start' finish' h h' hlt => ?_⟩
  · rw [partnerAfter_eq_ok_iff, partnerBefore_eq_ok_iff]
  · rw [partnerAfter_eq_ok_iff] at h h'
    exact h.lt_or_lt h' hlt

/-- In `]+[[-][>]][` the two inner loops are apart, and the outer one goes around both of them. -/
theorem partner_inverse_never_crosses_in_nested_loops :
    ∃ code : Array UInt8,
      code.toList = [0x5d, 0x2b, 0x5b, 0x5b, 0x2d, 0x5d, 0x5b, 0x3e, 0x5d, 0x5d, 0x5b] ∧
      partnerBefore code 9 = .ok 2 ∧ partnerAfter code 2 = .ok 9 ∧
      partnerAfter code 3 = .ok 5 ∧ partnerAfter code 6 = .ok 8 ∧
      (9 < 3 ∨ 5 < 9) ∧ (5 < 6 ∨ 8 < 5) := by
  let code : Array UInt8 := #[0x5d, 0x2b, 0x5b, 0x5b, 0x2d, 0x5d, 0x5b, 0x3e, 0x5d, 0x5d, 0x5b]
  obtain ⟨hinverse, hapart⟩ := partner_inverse_never_crosses code
  have hlast : partnerBefore code 9 = .ok 2 := by decide
  have houter := (hinverse 2 9).mpr hlast
  have hfirst := (hinverse 3 5).mpr (by decide)
  have hsecond := (hinverse 6 8).mpr (by decide)
  exact ⟨code, rfl, hlast, houter, hfirst, hsecond,
    hapart 2 9 3 5 houter hfirst (by decide), hapart 3 5 6 8 hfirst hsecond (by decide)⟩

end Bracket

end ByteTape
