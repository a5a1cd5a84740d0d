import ByteTape.Text.Utf8
import Mathlib.Tactic.Common

/-!
# Well-formed UTF-8

`decode` reads a character from its encoding (`decode_utf8EncodeChar_append`), and every part that
it does not call ill-formed is the encoding of a character (`eq_utf8EncodeChar_append`). So bytes
are well-formed if and only if they are the encoding of a text (`isWellFormed_iff`).

Both directions go by the cases of `announced?`, where everything comes down to arithmetic on the
values of the bytes: the first byte gives the leading bits of a code point, every other one six
more.
-/

namespace ByteTape

namespace Text

namespace Utf8

theorem ByteRange.contains_iff (range : ByteRange) (byte : UInt8) :
    range.contains byte = true ↔
      range.first.toNat ≤ byte.toNat ∧ byte.toNat ≤ range.last.toNat := by
  simp [contains, UInt8.le_iff_toNat_le]

@[simp] theorem toNat_tail_first : tail.first.toNat = 0x80 := rfl

@[simp] theorem toNat_tail_last : tail.last.toNat = 0xbf := rfl

/-- What a byte announces, by its value. -/
theorem announced?_eq (byte : UInt8) :
    announced? byte =
      if byte.toNat ≤ 0x7f then some (byte.toNat, [])
      else if 0xc2 ≤ byte.toNat ∧ byte.toNat ≤ 0xdf then some (byte.toNat % 32, [tail])
      else if byte.toNat = 0xe0 then some (0, [⟨0xa0, 0xbf⟩, tail])
      else if byte.toNat = 0xed then some (13, [⟨0x80, 0x9f⟩, tail])
      else if 0xe1 ≤ byte.toNat ∧ byte.toNat ≤ 0xef then some (byte.toNat % 16, [tail, tail])
      else if byte.toNat = 0xf0 then some (0, [⟨0x90, 0xbf⟩, tail, tail])
      else if 0xf1 ≤ byte.toNat ∧ byte.toNat ≤ 0xf3 then some (byte.toNat % 8, [tail, tail, tail])
      else if byte.toNat = 0xf4 then some (4, [⟨0x80, 0x8f⟩, tail, tail])
      else none := by
  simp only [announced?, UInt8.le_iff_toNat_le, ← UInt8.toNat_inj, UInt8.reduceToNat]

/-- A byte that may come next adds its six bits. -/
theorem follow_cons_ofNat {range : ByteRange} {value : Nat}
    (h : range.first.toNat ≤ value ∧ value ≤ range.last.toNat) (ranges : List ByteRange)
    (bits : Nat) (rest : List UInt8) :
    follow (range :: ranges) bits (UInt8.ofNat value :: rest) =
      follow ranges (bits * 64 + value % 64) rest := by
  have hvalue : (UInt8.ofNat value).toNat = value := by
    have := range.last.toNat_lt
    exact UInt8.toNat_ofNat_of_lt' (by rw [UInt8.size]; omega)
  rw [follow, if_pos ((range.contains_iff _).mpr (by rwa [hvalue])), hvalue]

theorem follow_tail_ofNat {value : Nat} (h : value < 64) (ranges : List ByteRange) (bits : Nat)
    (rest : List UInt8) :
    follow (tail :: ranges) bits (UInt8.ofNat (value + 128) :: rest) =
      follow ranges (bits * 64 + value) rest := by
  have hbits : (value + 128) % 64 = value := by omega
  rw [follow_cons_ofNat (by simp only [toNat_tail_first, toNat_tail_last]; omega), hbits]

/-- Only a byte that may come next is taken. -/
theorem exists_of_follow_cons {range : ByteRange} {ranges : List ByteRange} {bits code : Nat}
    {rest left : List UInt8} (h : follow (range :: ranges) bits rest = (some code, left)) :
    ∃ next rest', rest = next :: rest' ∧
      (range.first.toNat ≤ next.toNat ∧ next.toNat ≤ range.last.toNat) ∧
      follow ranges (bits * 64 + next.toNat % 64) rest' = (some code, left) := by
  cases rest with
  | nil => simp [follow] at h
  | cons next rest' =>
      rw [follow] at h
      split at h
      · rename_i hcontains
        exact ⟨next, rest', rfl, (range.contains_iff next).mp hcontains, h⟩
      · cases h

theorem decode_cons {byte : UInt8} {rest left : List UInt8} {bits code : Nat}
    {ranges : List ByteRange} (hannounced : announced? byte = some (bits, ranges))
    (hfollow : follow ranges bits rest = (some code, left)) :
    decode (byte :: rest) = some (Char.ofNat code) :: decode left := by
  rw [decode, hannounced]
  simp only [hfollow, Option.map_some]

theorem decode_two {lead : UInt8} {bits second code : Nat}
    (hlead : announced? lead = some (bits, [tail])) (hsecond : second < 64)
    (hcode : bits * 64 + second = code) (rest : List UInt8) :
    decode (lead :: UInt8.ofNat (second + 128) :: rest) = some (Char.ofNat code) :: decode rest :=
  decode_cons hlead (by rw [follow_tail_ofNat hsecond, follow, hcode])

theorem decode_three {lead : UInt8} {bits second third code : Nat} {range : ByteRange}
    (hlead : announced? lead = some (bits, [range, tail]))
    (h : range.first.toNat ≤ second ∧ second ≤ range.last.toNat) (hthird : third < 64)
    (hcode : (bits * 64 + second % 64) * 64 + third = code) (rest : List UInt8) :
    decode (lead :: UInt8.ofNat second :: UInt8.ofNat (third + 128) :: rest) =
      some (Char.ofNat code) :: decode rest :=
  decode_cons hlead (by rw [follow_cons_ofNat h, follow_tail_ofNat hthird, follow, hcode])

theorem decode_four {lead : UInt8} {bits second third fourth code : Nat} {range : ByteRange}
    (hlead : announced? lead = some (bits, [range, tail, tail]))
    (h : range.first.toNat ≤ second ∧ second ≤ range.last.toNat) (hthird : third < 64)
    (hfourth : fourth < 64)
    (hcode : ((bits * 64 + second % 64) * 64 + third) * 64 + fourth = code) (rest : List UInt8) :
    decode (lead :: UInt8.ofNat second :: UInt8.ofNat (third + 128) ::
        UInt8.ofNat (fourth + 128) :: rest) = some (Char.ofNat code) :: decode rest :=
  decode_cons hlead (by
    rw [follow_cons_ofNat h, follow_tail_ofNat hthird, follow_tail_ofNat hfourth, follow, hcode])

/-- A character is read from its encoding. -/
theorem decode_utf8EncodeChar_append (char : Char) (rest : List UInt8) :
    decode (String.utf8EncodeChar char ++ rest) = some char :: decode rest := by
  have hchar : Char.ofNat char.val.toNat = char := Char.ofNat_toNat char
  have hvalid : char.val.toNat < 0xd800 ∨ 0xdfff < char.val.toNat ∧ char.val.toNat < 0x110000 :=
    char.valid
  have hbyte {value : Nat} (h : value < 256) : (UInt8.ofNat value).toNat = value :=
    UInt8.toNat_ofNat_of_lt' h
  rw [String.utf8EncodeChar]
  generalize char.val.toNat = code at hchar hvalid
  subst hchar
  split
  · have hlead := announced?_eq (UInt8.ofNat code)
    rw [hbyte (by omega), if_pos (by omega)] at hlead
    exact decode_cons hlead rfl
  split
  · have hlead := announced?_eq (UInt8.ofNat (code / 64 % 32 + 192))
    rw [hbyte (by omega), if_neg (by omega), if_pos (by omega)] at hlead
    exact decode_two hlead (by omega) (by omega) rest
  split
  -- The range of the second byte is closer after the first bytes of overlong forms and surrogates.
  · have hlead := announced?_eq (UInt8.ofNat (code / 4096 % 16 + 224))
    rw [hbyte (by omega), if_neg (by omega), if_neg (by omega)] at hlead
    split at hlead
    · exact decode_three hlead (by simp only [UInt8.reduceToNat]; omega) (by omega) (by omega) rest
    split at hlead
    · exact decode_three hlead (by simp only [UInt8.reduceToNat]; omega) (by omega) (by omega) rest
    rw [if_pos (by omega)] at hlead
    exact decode_three hlead (by rw [toNat_tail_first, toNat_tail_last]; omega) (by omega)
      (by omega) rest
  -- It is closer after the first bytes of overlong forms and of what is beyond U+10FFFF.
  · have hlead := announced?_eq (UInt8.ofNat (code / 262144 % 8 + 240))
    rw [hbyte (by omega), if_neg (by omega), if_neg (by omega), if_neg (by omega),
      if_neg (by omega), if_neg (by omega)] at hlead
    split at hlead
    · exact decode_four hlead (by simp only [UInt8.reduceToNat]; omega) (by omega) (by omega)
        (by omega) rest
    split at hlead
    · exact decode_four hlead (by rw [toNat_tail_first, toNat_tail_last]; omega) (by omega)
        (by omega) (by omega) rest
    rw [if_pos (by omega)] at hlead
    exact decode_four hlead (by simp only [UInt8.reduceToNat]; omega) (by omega) (by omega)
      (by omega) rest

theorem toNat_val_ofNat {code : Nat} (h : code.isValidChar) :
    (Char.ofNat code).val.toNat = code := by
  rw [Char.ofNat, dif_pos h]
  rfl

theorem ofNat_eq (byte : UInt8) {value : Nat} (h : value = byte.toNat) :
    UInt8.ofNat value = byte := by
  rw [h, UInt8.ofNat_toNat]

theorem encode_two {lead : UInt8} {bits code : Nat} {rest left : List UInt8}
    (hfollow : follow [tail] bits rest = (some code, left)) (hlead : lead.toNat = bits + 192)
    (hbits : 2 ≤ bits ∧ bits < 32) :
    lead :: rest = String.utf8EncodeChar (Char.ofNat code) ++ left := by
  obtain ⟨second, rest, rfl, hsecond, hfollow⟩ := exists_of_follow_cons hfollow
  rw [toNat_tail_first, toNat_tail_last] at hsecond
  cases hfollow
  rw [String.utf8EncodeChar, toNat_val_ofNat (.inl (by omega)), if_neg (by omega),
    if_pos (by omega), ofNat_eq lead (by omega), ofNat_eq second (by omega)]
  rfl

/-- The range of the second byte has to shut out overlong forms and surrogates. -/
theorem encode_three {lead : UInt8} {range : ByteRange} {bits code : Nat}
    {rest left : List UInt8} (hfollow : follow [range, tail] bits rest = (some code, left))
    (hlead : lead.toNat = bits + 224) (hbits : bits < 16)
    (hrange : 0x80 ≤ range.first.toNat ∧ range.last.toNat ≤ 0xbf)
    (hlow : bits = 0 → 0xa0 ≤ range.first.toNat)
    (hvalid : bits = 13 → range.last.toNat ≤ 0x9f) :
    lead :: rest = String.utf8EncodeChar (Char.ofNat code) ++ left := by
  obtain ⟨second, rest, rfl, hsecond, hfollow⟩ := exists_of_follow_cons hfollow
  obtain ⟨third, rest, rfl, hthird, hfollow⟩ := exists_of_follow_cons hfollow
  rw [toNat_tail_first, toNat_tail_last] at hthird
  cases hfollow
  rw [String.utf8EncodeChar, toNat_val_ofNat (by rw [Nat.isValidChar]; omega), if_neg (by omega),
    if_neg (by omega), if_pos (by omega), ofNat_eq lead (by omega), ofNat_eq second (by omega),
    ofNat_eq third (by omega)]
  rfl

/-- The range of the second byte has to shut out overlong forms and what is beyond U+10FFFF. -/
theorem encode_four {lead : UInt8} {range : ByteRange} {bits code : Nat}
    {rest left : List UInt8} (hfollow : follow [range, tail, tail] bits rest = (some code, left))
    (hlead : lead.toNat = bits + 240) (hbits : bits < 5)
    (hrange : 0x80 ≤ range.first.toNat ∧ range.last.toNat ≤ 0xbf)
    (hlow : bits = 0 → 0x90 ≤ range.first.toNat)
    (hvalid : bits = 4 → range.last.toNat ≤ 0x8f) :
    lead :: rest = String.utf8EncodeChar (Char.ofNat code) ++ left := by
  obtain ⟨second, rest, rfl, hsecond, hfollow⟩ := exists_of_follow_cons hfollow
  obtain ⟨third, rest, rfl, hthird, hfollow⟩ := exists_of_follow_cons hfollow
  obtain ⟨fourth, rest, rfl, hfourth, hfollow⟩ := exists_of_follow_cons hfollow
  rw [toNat_tail_first, toNat_tail_last] at hthird hfourth
  cases hfollow
  rw [String.utf8EncodeChar, toNat_val_ofNat (by rw [Nat.isValidChar]; omega), if_neg (by omega),
    if_neg (by omega), if_neg (by omega), ofNat_eq lead (by omega), ofNat_eq second (by omega),
    ofNat_eq third (by omega), ofNat_eq fourth (by omega)]
  rfl

/-- A part that is not ill-formed is the encoding of a character. -/
theorem eq_utf8EncodeChar_append {byte : UInt8} {rest left : List UInt8} {bits code : Nat}
    {ranges : List ByteRange} (hannounced : announced? byte = some (bits, ranges))
    (hfollow : follow ranges bits rest = (some code, left)) :
    byte :: rest = String.utf8EncodeChar (Char.ofNat code) ++ left := by
  rw [announced?_eq] at hannounced
  split at hannounced
  · cases hannounced
    cases hfollow
    rw [String.utf8EncodeChar, toNat_val_ofNat (.inl (by omega)), if_pos (by omega),
      UInt8.ofNat_toNat]
    rfl
  split at hannounced
  · cases hannounced
    exact encode_two hfollow (by omega) (by omega)
  split at hannounced
  · cases hannounced
    exact encode_three hfollow (by omega) (by decide) (by decide) (by decide) (by decide)
  split at hannounced
  · cases hannounced
    exact encode_three hfollow (by omega) (by decide) (by decide) (by decide) (by decide)
  split at hannounced
  · cases hannounced
    exact encode_three hfollow (by omega) (by omega) (by decide) (by omega) (by omega)
  split at hannounced
  · cases hannounced
    exact encode_four hfollow (by omega) (by decide) (by decide) (by decide) (by decide)
  split at hannounced
  · cases hannounced
    exact encode_four hfollow (by omega) (by omega) (by decide) (by omega) (by omega)
  split at hannounced
  · cases hannounced
    exact encode_four hfollow (by omega) (by decide) (by decide) (by decide) (by decide)
  · cases hannounced

theorem decode_flatMap_utf8EncodeChar (text : List Char) :
    decode (text.flatMap String.utf8EncodeChar) = text.map some := by
  induction text with
  | nil => rw [List.flatMap_nil, decode, List.map_nil]
  | cons char text ih => rw [List.flatMap_cons, decode_utf8EncodeChar_append, ih, List.map_cons]

theorem exists_text_of_isWellFormed {bytes : List UInt8} (h : isWellFormed bytes = true) :
    ∃ text : List Char, bytes = text.flatMap String.utf8EncodeChar := by
  rw [isWellFormed] at h
  fun_induction decode bytes with
  | case1 => exact ⟨[], rfl⟩
  | case2 byte rest hnone ih => simp at h
  | case3 byte rest bits ranges hannounced hle followed ih =>
      rw [List.all_cons, Bool.and_eq_true, Option.isSome_map, Option.isSome_iff_exists] at h
      obtain ⟨⟨code, hcode⟩, hrest⟩ := h
      obtain ⟨text, htext⟩ := ih hrest
      refine ⟨Char.ofNat code :: text, ?_⟩
      rw [List.flatMap_cons, ← htext]
      exact eq_utf8EncodeChar_append hannounced (Prod.ext hcode rfl)

/-- Bytes are well-formed if and only if some text is encoded in them. -/
theorem isWellFormed_iff (bytes : List UInt8) :
    isWellFormed bytes = true ↔ bytes.toByteArray.IsValidUTF8 := by
  constructor
  · intro h
    obtain ⟨text, rfl⟩ := exists_text_of_isWellFormed h
    exact ⟨text, rfl⟩
  · rintro ⟨text, htext⟩
    obtain rfl := List.toByteArray_inj.mp htext
    rw [isWellFormed, decode_flatMap_utf8EncodeChar, List.all_map]
    exact List.all_eq_true.mpr fun _ _ => rfl

end Utf8

end Text

end ByteTape
