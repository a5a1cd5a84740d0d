import ByteTape.Proofs.Bracket.Partner
import Mathlib.Order.Bounds.Basic

/-!
# The bracket to blame

The check for balance names one bracket when it fails. It goes through the text once, with a stack
of open loops, and never walks to a partner; yet what it names is a bracket from which the walk
fails, and the first of its kind: the first `]` without a partner, or else the first `[` without
one.

`Opened code pending position` says what the stack means at a position: the text between one open
`[` and the next is level, and so is the text from the innermost one to the position. A `]` met
there is therefore the partner of the innermost open `[`, or has none if the stack is empty, and
the loops that are open at the end of the text are never closed. `Accounted` adds that no other
bracket before the position is without a partner.
-/

namespace ByteTape

namespace Bracket

/-- The walk from a bracket to its partner. -/
def partner (code : Array UInt8) : Bracket → Nat → Except Unmatched Nat
  | .opening => partnerAfter code
  | .closing => partnerBefore code

/-- The positions of one kind of bracket from which the walk fails. -/
def unpaired (code : Array UInt8) (bracket : Bracket) : Set Nat :=
  {position | at? code position = some bracket ∧
    ∃ unmatched, partner code bracket position = .error unmatched}

/-- A walk that fails names the bracket from which it started. -/
theorem partner_eq_error {code : Array UInt8} {bracket : Bracket} {position : Nat}
    {unmatched : Unmatched} (h : partner code bracket position = .error unmatched) :
    unmatched = ⟨bracket, position⟩ := by
  cases bracket with
  | opening =>
      simp only [partner, partnerAfter] at h
      split at h
      · split at h <;> cases h
        rfl
      · cases h
        rfl
  | closing =>
      simp only [partner, partnerBefore] at h
      split at h
      · split at h <;> cases h
        rfl
      · cases h
        rfl

theorem partner_of_mem_unpaired {code : Array UInt8} {bracket : Bracket} {position : Nat}
    (h : position ∈ unpaired code bracket) :
    partner code bracket position = .error ⟨bracket, position⟩ := by
  obtain ⟨-, unmatched, hpartner⟩ := h
  rwa [partner_eq_error hpartner] at hpartner

theorem exists_eq_error_iff {result : Except Unmatched Nat} :
    (∃ unmatched, result = .error unmatched) ↔ ∀ position, result ≠ .ok position := by
  cases result <;> simp

theorem mem_unpaired_opening_iff {code : Array UInt8} {start : Nat} :
    start ∈ unpaired code .opening ↔
      at? code start = some .opening ∧ ∀ finish, ¬Partners code start finish := by
  simp only [unpaired, Set.mem_ofPred_eq, exists_eq_error_iff, ne_eq, partner,
    partnerAfter_eq_ok_iff]

theorem mem_unpaired_closing_iff {code : Array UInt8} {finish : Nat} :
    finish ∈ unpaired code .closing ↔
      at? code finish = some .closing ∧ ∀ start, ¬Partners code start finish := by
  simp only [unpaired, Set.mem_ofPred_eq, exists_eq_error_iff, ne_eq, partner,
    partnerBefore_eq_ok_iff]

/-- The profile ends between two positions where it begins and does not go below that. -/
structure Level (code : Array UInt8) (first last : Nat) : Prop where
  le : first ≤ last
  ends : nestingAt code last = nestingAt code first
  above : Above code (nestingAt code first) first last

namespace Level

variable {code : Array UInt8} {first last : Nat}

theorem refl (code : Array UInt8) (position : Nat) : Level code position position :=
  ⟨Nat.le_refl _, rfl, Above.here (Int.le_refl _)⟩

theorem plain (h : Level code first last) (hat : at? code last = none) :
    Level code first (last + 1) := by
  have hstep := nestingAt_succ_of_none hat
  refine ⟨Nat.le_succ_of_le h.le, hstep.trans h.ends, h.above.concat ?_⟩
  rw [hstep, h.ends]

theorem loop {start finish : Nat} (h : Level code first start)
    (hpartners : Partners code start finish) : Level code first (finish + 1) := by
  have hup := nestingAt_succ_of_opening hpartners.opens
  have hends := hpartners.nestingAt_finish_succ.trans h.ends
  have hinside : Above code (nestingAt code first) (start + 1) finish := by
    refine hpartners.above.mono ?_
    rw [hup, h.ends]
    exact Int.le_add_one (Int.le_refl _)
  refine ⟨?_, hends, (h.above.append hinside).concat (Int.le_of_eq hends.symm)⟩
  exact Nat.le_trans h.le (Nat.le_succ_of_le (Nat.le_of_lt hpartners.lt))

theorem partners {start : Nat} (h : Level code (start + 1) last)
    (hopens : at? code start = some .opening) (hcloses : at? code last = some .closing) :
    Partners code start last :=
  ⟨hopens, hcloses, h.le, h.ends, h.above⟩

end Level

/-- The loops that are open at a position, innermost first. -/
inductive Opened (code : Array UInt8) : (pending : List Nat) → (position : Nat) → Prop where
  | outside {position : Nat} (h : Level code 0 position) : Opened code [] position
  | inside {outer : List Nat} {start position : Nat} (hopens : at? code start = some .opening)
      (h : Level code (start + 1) position) (houter : Opened code outer start) :
      Opened code (start :: outer) position

namespace Opened

variable {code : Array UInt8} {pending : List Nat} {position : Nat}

theorem plain (h : Opened code pending position) (hat : at? code position = none) :
    Opened code pending (position + 1) := by
  cases h with
  | outside h => exact .outside (h.plain hat)
  | inside hopens h houter => exact .inside hopens (h.plain hat) houter

theorem opening (h : Opened code pending position) (hat : at? code position = some .opening) :
    Opened code (position :: pending) (position + 1) :=
  .inside hat (Level.refl code (position + 1)) h

/-- A `]` closes the innermost open loop. -/
theorem closing {start : Nat} (h : Opened code (start :: pending) position)
    (hat : at? code position = some .closing) :
    Partners code start position ∧ Opened code pending (position + 1) := by
  cases h with
  | inside hopens hlevel houter =>
      have hpartners := hlevel.partners hopens hat
      refine ⟨hpartners, ?_⟩
      cases houter with
      | outside h => exact .outside (h.loop hpartners)
      | inside hopens' h houter => exact .inside hopens' (h.loop hpartners) houter

/-- A `]` that is met with no loop open has no partner: the profile was never below the ground, and
before that partner it would have been. -/
theorem not_partners (h : Opened code [] position) (start : Nat) :
    ¬Partners code start position := by
  intro hpartners
  cases h with
  | outside hlevel =>
      have habove := hlevel.above start (Nat.zero_le _) (Nat.le_of_lt hpartners.lt)
      have hup := nestingAt_succ_of_opening hpartners.opens
      have hends := hlevel.ends
      have hinside := hpartners.level
      omega

theorem lt (h : Opened code pending position) {start : Nat} (hmem : start ∈ pending) :
    start < position := by
  induction h with
  | outside => cases hmem
  | inside _ hlevel _ ih =>
      rcases List.mem_cons.mp hmem with rfl | hmem
      · exact hlevel.le
      · exact Nat.lt_trans (ih hmem) hlevel.le

theorem at?_eq (h : Opened code pending position) {start : Nat} (hmem : start ∈ pending) :
    at? code start = some .opening := by
  induction h with
  | outside => cases hmem
  | inside hopens _ _ ih =>
      rcases List.mem_cons.mp hmem with rfl | hmem
      · exact hopens
      · exact ih hmem

/-- A loop that is open has not been closed yet. -/
theorem above (h : Opened code pending position) {start : Nat} (hmem : start ∈ pending) :
    Above code (nestingAt code (start + 1)) (start + 1) position := by
  induction h with
  | outside => cases hmem
  | @inside outer inner position hopens hlevel houter ih =>
      rcases List.mem_cons.mp hmem with rfl | hmem
      · exact hlevel.above
      · have hbelow := ih hmem inner (houter.lt hmem) (Nat.le_refl _)
        refine (ih hmem).append (hlevel.above.mono ?_)
        rw [nestingAt_succ_of_opening hopens]
        omega

/-- A loop that is open at the end of the text is never closed. -/
theorem not_partners_of_mem (h : Opened code pending position) (hsize : code.size ≤ position)
    {start : Nat} (hmem : start ∈ pending) (finish : Nat) : ¬Partners code start finish := by
  intro hpartners
  have hlt := hpartners.lt
  have hend := lt_size_of_at? hpartners.closes
  have habove := h.above hmem (finish + 1) (by omega) (by omega)
  have hdown := nestingAt_succ_of_closing hpartners.closes
  have hinside := hpartners.level
  omega

theorem outermost_le (h : Opened code pending position) {outermost start : Nat}
    (hlast : pending.getLast? = some outermost) (hmem : start ∈ pending) :
    outermost ≤ start := by
  induction h with
  | outside => cases hmem
  | @inside outer inner _ _ _ houter ih =>
      cases outer with
      | nil =>
          cases hlast
          rcases List.mem_cons.mp hmem with rfl | hmem
          · exact Nat.le_refl _
          · cases hmem
      | cons next rest =>
          rw [List.getLast?_cons_cons] at hlast
          rcases List.mem_cons.mp hmem with rfl | hmem
          · exact Nat.le_of_lt (houter.lt (List.mem_of_getLast? hlast))
          · exact ih hlast hmem

end Opened

/-- Every bracket before a position has a partner or opens a loop that is still open. -/
structure Accounted (code : Array UInt8) (pending : List Nat) (position : Nat) : Prop where
  opened : Opened code pending position
  closings : ∀ finish < position, finish ∉ unpaired code .closing
  openings : ∀ start < position, start ∈ unpaired code .opening → start ∈ pending

namespace Accounted

variable {code : Array UInt8} {pending : List Nat} {position : Nat}

theorem empty (code : Array UInt8) : Accounted code [] 0 :=
  ⟨.outside (Level.refl code 0), by simp, by simp⟩

/-- The next byte is accounted for as well if it is no `]` without a partner, and if the loops that
may be without one are among those now open. -/
theorem extend (h : Accounted code pending position) {pending' : List Nat}
    (hopened : Opened code pending' (position + 1))
    (hclosing : position ∉ unpaired code .closing)
    (hopening : ∀ start ∈ unpaired code .opening, start ∈ position :: pending →
      start ∈ pending') :
    Accounted code pending' (position + 1) where
  opened := hopened
  closings finish hlt := by
    rcases Nat.lt_succ_iff_lt_or_eq.mp hlt with hlt | rfl
    · exact h.closings finish hlt
    · exact hclosing
  openings start hlt hmem := by
    apply hopening start hmem
    rcases Nat.lt_succ_iff_lt_or_eq.mp hlt with hlt | rfl
    · exact List.mem_cons_of_mem _ (h.openings start hlt hmem)
    · exact List.mem_cons_self

theorem plain (h : Accounted code pending position) (hat : at? code position = none) :
    Accounted code pending (position + 1) := by
  apply h.extend (h.opened.plain hat)
  · rintro ⟨hcloses, -⟩
    rw [hat] at hcloses
    cases hcloses
  · rintro start ⟨hopens, -⟩ hmem
    rcases List.mem_cons.mp hmem with rfl | hmem
    · rw [hat] at hopens
      cases hopens
    · exact hmem

theorem opening (h : Accounted code pending position)
    (hat : at? code position = some .opening) :
    Accounted code (position :: pending) (position + 1) := by
  apply h.extend (h.opened.opening hat)
  · rintro ⟨hcloses, -⟩
    rw [hat] at hcloses
    cases hcloses
  · exact fun start _ hmem => hmem

theorem closing {start : Nat} (h : Accounted code (start :: pending) position)
    (hat : at? code position = some .closing) : Accounted code pending (position + 1) := by
  obtain ⟨hpartners, hopened⟩ := h.opened.closing hat
  apply h.extend hopened
  · intro hmem
    exact (mem_unpaired_closing_iff.mp hmem).2 start hpartners
  · intro other hunpaired hmem
    obtain ⟨hopens, hnone⟩ := mem_unpaired_opening_iff.mp hunpaired
    rcases List.mem_cons.mp hmem with rfl | hmem
    · rw [hat] at hopens
      cases hopens
    · rcases List.mem_cons.mp hmem with rfl | hmem
      · exact absurd hpartners (hnone position)
      · exact hmem

theorem unpaired_closing_eq (h : Accounted code pending position) (hsize : code.size ≤ position) :
    unpaired code .closing = ∅ := by
  apply Set.eq_empty_of_forall_notMem
  intro finish hmem
  exact h.closings finish (Nat.lt_of_lt_of_le (lt_size_of_at? hmem.1) hsize) hmem

/-- At the end of the text the loops without a partner are those still open. -/
theorem mem_unpaired_opening_iff (h : Accounted code pending position)
    (hsize : code.size ≤ position) (start : Nat) :
    start ∈ unpaired code .opening ↔ start ∈ pending := by
  constructor
  · intro hmem
    exact h.openings start (Nat.lt_of_lt_of_le (lt_size_of_at? hmem.1) hsize) hmem
  · intro hmem
    exact Bracket.mem_unpaired_opening_iff.mpr
      ⟨h.opened.at?_eq hmem, h.opened.not_partners_of_mem hsize hmem⟩

end Accounted

/-- What the check should find in a text: the first `]` without a partner, or else the first `[`
without one, or else nothing. -/
def Blames (code : Array UInt8) : Option Unmatched → Prop
  | some ⟨.closing, position⟩ => IsLeast (unpaired code .closing) position
  | some ⟨.opening, position⟩ =>
      unpaired code .closing = ∅ ∧ IsLeast (unpaired code .opening) position
  | none => unpaired code .closing = ∅ ∧ unpaired code .opening = ∅

theorem getElem?_of_drop {code : Array UInt8} {position : Nat} {byte : UInt8} {rest : List UInt8}
    (h : code.toList.drop position = byte :: rest) :
    code[position]? = some byte ∧ code.toList.drop (position + 1) = rest := by
  constructor
  · rw [← Array.getElem?_toList, ← List.head?_drop, h, List.head?_cons]
  · rw [← List.tail_drop, h, List.tail_cons]

theorem at?_of_drop {code : Array UInt8} {position : Nat} {byte : UInt8} {rest : List UInt8}
    (h : code.toList.drop position = byte :: rest) :
    at? code position = ofByte? byte ∧ code.toList.drop (position + 1) = rest := by
  obtain ⟨hbyte, hrest⟩ := getElem?_of_drop h
  exact ⟨by rw [at?, hbyte, Option.bind_some], hrest⟩

/-- The check blames the right bracket from any position where the brackets before it are accounted
for. -/
theorem Accounted.blames {code : Array UInt8} {pending : List Nat} {position : Nat}
    {text : List UInt8} (h : Accounted code pending position)
    (htext : code.toList.drop position = text) :
    Blames code (firstUnmatchedFrom? pending position text) := by
  fun_induction firstUnmatchedFrom? pending position text with
  | case1 pending position =>
      have hsize : code.size ≤ position := by simpa using htext
      have hclosing := h.unpaired_closing_eq hsize
      have hopening := h.mem_unpaired_opening_iff hsize
      cases hlast : pending.getLast? with
      | none =>
          refine ⟨hclosing, Set.eq_empty_of_forall_notMem fun start hmem => ?_⟩
          rw [hopening, List.getLast?_eq_none_iff.mp hlast] at hmem
          cases hmem
      | some outermost =>
          refine ⟨hclosing, (hopening _).mpr (List.mem_of_getLast? hlast), fun start hmem => ?_⟩
          exact h.opened.outermost_le hlast ((hopening start).mp hmem)
  | case2 pending position byte rest hbyte ih =>
      obtain ⟨hat, hrest⟩ := at?_of_drop htext
      exact ih (h.opening (hat.trans hbyte)) hrest
  | case3 position byte rest hbyte =>
      obtain ⟨hat, -⟩ := at?_of_drop htext
      refine ⟨mem_unpaired_closing_iff.mpr ⟨hat.trans hbyte, h.opened.not_partners⟩, ?_⟩
      intro finish hmem
      by_contra hlt
      exact h.closings finish (Nat.lt_of_not_le hlt) hmem
  | case4 position byte rest start outer hbyte ih =>
      obtain ⟨hat, hrest⟩ := at?_of_drop htext
      exact ih (h.closing (hat.trans hbyte)) hrest
  | case5 pending position byte rest hbyte ih =>
      obtain ⟨hat, hrest⟩ := at?_of_drop htext
      exact ih (h.plain (hat.trans hbyte)) hrest

theorem blames_firstUnmatched? (text : List UInt8) :
    Blames text.toArray (firstUnmatched? text) :=
  (Accounted.empty text.toArray).blames rfl

/-- The bracket that the check names stands where it says. -/
theorem at?_of_firstUnmatched? {text : List UInt8} {bracket : Bracket} {position : Nat}
    (h : firstUnmatched? text = some ⟨bracket, position⟩) :
    at? text.toArray position = some bracket := by
  have hblames := blames_firstUnmatched? text
  rw [h] at hblames
  cases bracket with
  | opening => exact hblames.2.1.1
  | closing => exact hblames.1.1

/-- The check names the first `]` without a partner; if every `]` has one, the first `[` without a
partner; and nothing if every bracket has one. What it says of a bracket is what the walk from that
bracket says. -/
theorem firstUnmatched?_names_first (text : List UInt8) :
    (∃ position, IsLeast (unpaired text.toArray .closing) position ∧
      firstUnmatched? text = some ⟨.closing, position⟩ ∧
      partnerBefore text.toArray position = .error ⟨.closing, position⟩) ∨
    (unpaired text.toArray .closing = ∅ ∧
      ∃ position, IsLeast (unpaired text.toArray .opening) position ∧
        firstUnmatched? text = some ⟨.opening, position⟩ ∧
        partnerAfter text.toArray position = .error ⟨.opening, position⟩) ∨
    unpaired text.toArray .closing = ∅ ∧ unpaired text.toArray .opening = ∅ ∧
      firstUnmatched? text = none := by
  match hverdict : firstUnmatched? text, blames_firstUnmatched? text with
  | some ⟨.closing, position⟩, hleast =>
      exact .inl ⟨position, hleast, rfl, partner_of_mem_unpaired hleast.1⟩
  | some ⟨.opening, position⟩, ⟨hclosing, hleast⟩ =>
      exact .inr (.inl ⟨hclosing, position, hleast, rfl, partner_of_mem_unpaired hleast.1⟩)
  | none, ⟨hclosing, hopening⟩ => exact .inr (.inr ⟨hclosing, hopening, rfl⟩)

end Bracket

end ByteTape
