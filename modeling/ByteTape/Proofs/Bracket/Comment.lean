import ByteTape.Proofs.Bracket.Diagnosis

/-!
# Brackets between comments

The rank of a position is the number of instructions before it, so that two positions of the same
rank in two texts are told apart by comments only. `stripped code` is a text without its comments:
there every position is its own rank.

Both walks to a partner and the check for balance pass over comments. So each of them, seen through
the ranks, does in a text what it does in the stripped one: `map_rank_findClosing`,
`map_rank_findOpening` and `map_renumber_firstUnmatchedFrom?` say so. Two texts with the same
instructions have the same stripped text, so they agree on partners and on the bracket to blame.
-/

namespace ByteTape

namespace Instruction

/-- How many instructions stand before a position. -/
def rank (code : Array UInt8) (position : Nat) : Nat :=
  (ofBytes (code.toList.take position)).length

/-- A text without its comments. -/
def stripped (code : Array UInt8) : Array UInt8 := ((ofBytes code.toList).map toByte).toArray

/-- Two positions at which the same instruction stands, and as the same one in order. -/
structure SamePlace (code code' : Array UInt8) (position position' : Nat) : Prop where
  stands : ∃ instruction : Instruction, code[position]? = some instruction.toByte ∧
    code'[position']? = some instruction.toByte
  rank_eq : rank code position = rank code' position'

@[simp] theorem rank_zero (code : Array UInt8) : rank code 0 = 0 := rfl

theorem ofBytes_cons_toByte (instruction : Instruction) (rest : List UInt8) :
    ofBytes (instruction.toByte :: rest) = instruction :: ofBytes rest := by
  simp [ofBytes]

theorem ofBytes_cons_of_comment {byte : UInt8} (h : ofByte? byte = none) (rest : List UInt8) :
    ofBytes (byte :: rest) = ofBytes rest := by
  simp [ofBytes, h]

section

variable {code : Array UInt8} {position : Nat}

theorem rank_succ_of_comment {byte : UInt8} (hbyte : code[position]? = some byte)
    (h : ofByte? byte = none) : rank code (position + 1) = rank code position := by
  rw [rank, List.take_add_one, Array.getElem?_toList, hbyte, ofBytes_append]
  simp [ofBytes, h, rank]

theorem rank_succ {instruction : Instruction}
    (h : code[position]? = some instruction.toByte) :
    rank code (position + 1) = rank code position + 1 := by
  rw [rank, List.take_add_one, Array.getElem?_toList, h, ofBytes_append]
  simp [ofBytes, rank]

theorem rank_of_size_le (h : code.size ≤ position) :
    rank code position = (stripped code).size := by
  rw [rank, List.take_of_length_le (by simpa using h)]
  simp [stripped]

theorem rank_mono (code : Array UInt8) {first last : Nat} (h : first ≤ last) :
    rank code first ≤ rank code last :=
  ((List.take_prefix_take_left h).sublist.filterMap ofByte?).length_le

/-- An instruction of a text stands in the stripped text at its rank. -/
theorem getElem?_stripped {instruction : Instruction}
    (h : code[position]? = some instruction.toByte) :
    (stripped code)[rank code position]? = some instruction.toByte := by
  have hlist : code.toList[position]? = some instruction.toByte := by
    rw [Array.getElem?_toList, h]
  obtain ⟨hlt, hbyte⟩ := List.getElem?_eq_some_iff.mp hlist
  have hsplit : ofBytes code.toList = ofBytes (code.toList.take position) ++
      instruction :: ofBytes (code.toList.drop (position + 1)) := by
    conv_lhs => rw [← List.take_append_drop position code.toList, List.drop_eq_getElem_cons hlt,
      hbyte, ofBytes_append]
    simp [ofBytes]
  simp [stripped, hsplit, rank]

theorem rank_lt_size_stripped {instruction : Instruction}
    (h : code[position]? = some instruction.toByte) :
    rank code position < (stripped code).size :=
  (Array.getElem?_eq_some_iff.mp (getElem?_stripped h)).1

theorem comment_or_instruction (h : position < code.size) :
    (∃ byte, code[position]? = some byte ∧ ofByte? byte = none) ∨
      ∃ instruction : Instruction, code[position]? = some instruction.toByte := by
  have hbyte : code[position]? = some code[position] := Array.getElem?_eq_getElem h
  cases hinstruction : ofByte? code[position] with
  | none => exact .inl ⟨_, hbyte, hinstruction⟩
  | some instruction =>
      rw [(ofByte?_eq_some_iff _ instruction).mp hinstruction] at hbyte
      exact .inr ⟨instruction, hbyte⟩

theorem SamePlace.rank_succ {code' : Array UInt8} {position' : Nat}
    (h : SamePlace code code' position position') :
    rank code (position + 1) = rank code' (position' + 1) := by
  obtain ⟨⟨instruction, hbyte, hbyte'⟩, hrank⟩ := h
  rw [Instruction.rank_succ hbyte, Instruction.rank_succ hbyte', hrank]

end

end Instruction

namespace Program

open Instruction

theorem instructionCount_eq_length (program : Program) :
    program.instructionCount = (ofBytes program.text).length := by
  rw [instructionCount, ← Array.countP_toList, ofBytes, List.length_filterMap_eq_countP]
  rfl

/-- All instructions of a program stand before its end. -/
theorem rank_size (program : Program) :
    rank program.code program.size = program.instructionCount := by
  rw [program.instructionCount_eq_length, size, rank_of_size_le (Nat.le_refl _)]
  simp [stripped, text]

theorem rank_le_instructionCount (program : Program) (position : Nat) :
    rank program.code position ≤ program.instructionCount := by
  rw [← program.rank_size]
  rcases Nat.le_total position program.size with hle | hge
  · exact rank_mono program.code hle
  · rw [size, rank_of_size_le hge, rank_of_size_le (Nat.le_refl _)]

end Program

namespace Bracket

open Instruction

section

variable {code : Array UInt8} {position : Nat}

theorem at?_stripped {instruction : Instruction} (h : code[position]? = some instruction.toByte) :
    at? (stripped code) (rank code position) = at? code position := by
  rw [at?_eq_ofInstruction? h, at?_eq_ofInstruction? (getElem?_stripped h)]

/-- At an instruction, the walk in the stripped text goes by what stands in the text itself. -/
theorem findClosing_stripped {instruction : Instruction}
    (h : code[position]? = some instruction.toByte) (depth : Nat) :
    findClosing (stripped code) depth (rank code position) =
      match at? code position, depth with
      | some .closing, 0 => some (rank code position)
      | some .closing, inner + 1 => findClosing (stripped code) inner (rank code (position + 1))
      | some .opening, _ => findClosing (stripped code) (depth + 1) (rank code (position + 1))
      | none, _ => findClosing (stripped code) depth (rank code (position + 1)) := by
  rewrite [findClosing.eq_def (stripped code), if_pos (rank_lt_size_stripped h), at?_stripped h,
    rank_succ h]
  rfl

theorem findOpening_stripped {instruction : Instruction}
    (h : code[position]? = some instruction.toByte) (depth : Nat) :
    findOpening (stripped code) depth (rank code (position + 1)) =
      match at? code position, depth with
      | some .opening, 0 => some (rank code position)
      | some .opening, inner + 1 => findOpening (stripped code) inner (rank code position)
      | some .closing, _ => findOpening (stripped code) (depth + 1) (rank code position)
      | none, _ => findOpening (stripped code) depth (rank code position) := by
  rewrite [rank_succ h, findOpening.eq_def (stripped code)]
  dsimp only
  rewrite [at?_stripped h]
  rfl

end

/-- Passing over comments, the walk to the right goes as it does in the stripped text. -/
theorem map_rank_findClosing (code : Array UInt8) (depth position : Nat) :
    (findClosing code depth position).map (rank code) =
      findClosing (stripped code) depth (rank code position) := by
  fun_induction findClosing code depth position with
  | case1 position hlt hat =>
      rw [findClosing_stripped (at?_eq_some_iff.mp hat), hat]
      rfl
  | case2 position hlt inner hat ih => rw [findClosing_stripped (at?_eq_some_iff.mp hat), hat, ih]
  | case3 depth position hlt hat ih => rw [findClosing_stripped (at?_eq_some_iff.mp hat), hat, ih]
  | case4 depth position hlt hat ih =>
      rcases comment_or_instruction hlt with ⟨byte, hbyte, hcomment⟩ | ⟨instruction, hbyte⟩
      · rw [ih, rank_succ_of_comment hbyte hcomment]
      · rw [findClosing_stripped hbyte, hat, ih]
  | case5 depth position hge =>
      rw [findClosing.eq_def (stripped code), rank_of_size_le (Nat.le_of_not_lt hge),
        if_neg (Nat.lt_irrefl _)]
      rfl

theorem map_rank_findOpening {code : Array UInt8} {depth position : Nat}
    (hle : position ≤ code.size) :
    (findOpening code depth position).map (rank code) =
      findOpening (stripped code) depth (rank code position) := by
  fun_induction findOpening code depth position with
  | case1 depth => rw [rank_zero, findOpening, Option.map_none]
  | case2 position hat =>
      rw [findOpening_stripped (at?_eq_some_iff.mp hat), hat]
      rfl
  | case3 position inner hat ih =>
      rw [findOpening_stripped (at?_eq_some_iff.mp hat), hat, ih (Nat.le_of_succ_le hle)]
  | case4 depth position hat ih =>
      rw [findOpening_stripped (at?_eq_some_iff.mp hat), hat, ih (Nat.le_of_succ_le hle)]
  | case5 depth position hat ih =>
      rcases comment_or_instruction hle with ⟨byte, hbyte, hcomment⟩ | ⟨instruction, hbyte⟩
      · rw [ih (Nat.le_of_succ_le hle), rank_succ_of_comment hbyte hcomment]
      · rw [findOpening_stripped hbyte, hat, ih (Nat.le_of_succ_le hle)]

theorem partnerAfter_eq_ok {code : Array UInt8} {start finish : Nat}
    (h : partnerAfter code start = .ok finish) :
    at? code start = some .opening ∧ findClosing code 0 (start + 1) = some finish := by
  have hopens := ((partnerAfter_eq_ok_iff code start finish).mp h).opens
  rw [partnerAfter, hopens] at h
  cases hfound : findClosing code 0 (start + 1) <;> simp_all

theorem partnerBefore_eq_ok {code : Array UInt8} {start finish : Nat}
    (h : partnerBefore code finish = .ok start) :
    at? code finish = some .closing ∧ findOpening code 0 finish = some start := by
  have hcloses := ((partnerBefore_eq_ok_iff code start finish).mp h).closes
  rw [partnerBefore, hcloses] at h
  cases hfound : findOpening code 0 finish <;> simp_all

section

variable {code code' : Array UInt8}

theorem at?_eq_of_samePlace {position position' : Nat}
    (h : SamePlace code code' position position') : at? code position = at? code' position' := by
  obtain ⟨⟨instruction, hbyte, hbyte'⟩, -⟩ := h
  rw [at?_eq_ofInstruction? hbyte, at?_eq_ofInstruction? hbyte']

theorem samePlace_of_at? {position position' : Nat} {bracket : Bracket}
    (h : at? code position = some bracket) (h' : at? code' position' = some bracket)
    (hrank : rank code position = rank code' position') :
    SamePlace code code' position position' :=
  ⟨⟨bracket.toInstruction, at?_eq_some_iff.mp h, at?_eq_some_iff.mp h'⟩, hrank⟩

/-- In texts with the same instructions, the same `[` has the same partner. -/
theorem exists_partnerAfter_of_samePlace (hstripped : stripped code = stripped code')
    {start start' finish : Nat} (hplace : SamePlace code code' start start')
    (h : partnerAfter code start = .ok finish) :
    ∃ finish', partnerAfter code' start' = .ok finish' ∧ SamePlace code code' finish finish' := by
  obtain ⟨hopens, hfound⟩ := partnerAfter_eq_ok h
  have hmap : (findClosing code' 0 (start' + 1)).map (rank code') = some (rank code finish) := by
    rw [map_rank_findClosing, ← hstripped, ← hplace.rank_succ, ← map_rank_findClosing, hfound,
      Option.map_some]
  obtain ⟨finish', hfound', hrank⟩ := Option.map_eq_some_iff.mp hmap
  have hpartner : partnerAfter code' start' = .ok finish' := by
    rw [partnerAfter, ← at?_eq_of_samePlace hplace, hopens, hfound']
  have hcloses := ((partnerAfter_eq_ok_iff code start finish).mp h).closes
  have hcloses' := ((partnerAfter_eq_ok_iff code' start' finish').mp hpartner).closes
  exact ⟨finish', hpartner, samePlace_of_at? hcloses hcloses' hrank.symm⟩

theorem exists_partnerBefore_of_samePlace (hstripped : stripped code = stripped code')
    {finish finish' start : Nat} (hplace : SamePlace code code' finish finish')
    (h : partnerBefore code finish = .ok start) :
    ∃ start', partnerBefore code' finish' = .ok start' ∧ SamePlace code code' start start' := by
  obtain ⟨hcloses, hfound⟩ := partnerBefore_eq_ok h
  have hcloses' := (at?_eq_of_samePlace hplace).symm.trans hcloses
  have hle := Nat.le_of_lt (lt_size_of_at? hcloses)
  have hle' := Nat.le_of_lt (lt_size_of_at? hcloses')
  have hmap : (findOpening code' 0 finish').map (rank code') = some (rank code start) := by
    rw [map_rank_findOpening hle', ← hstripped, ← hplace.rank_eq, ← map_rank_findOpening hle,
      hfound, Option.map_some]
  obtain ⟨start', hfound', hrank⟩ := Option.map_eq_some_iff.mp hmap
  have hpartner : partnerBefore code' finish' = .ok start' := by
    rw [partnerBefore, hcloses', hfound']
  have hopens := ((partnerBefore_eq_ok_iff code start finish).mp h).opens
  have hopens' := ((partnerBefore_eq_ok_iff code' start' finish').mp hpartner).opens
  exact ⟨start', hpartner, samePlace_of_at? hopens hopens' hrank.symm⟩

end

/-- A bracket of a text as it is named in the stripped text. -/
def renumber (code : Array UInt8) (unmatched : Unmatched) : Unmatched :=
  { unmatched with position := rank code unmatched.position }

theorem map_renumber_firstUnmatchedFrom? {code : Array UInt8} {pending : List Nat}
    {position : Nat} {text : List UInt8} (htext : code.toList.drop position = text) :
    (firstUnmatchedFrom? pending position text).map (renumber code) =
      firstUnmatchedFrom? (pending.map (rank code)) (rank code position)
        ((ofBytes text).map toByte) := by
  fun_induction firstUnmatchedFrom? pending position text with
  | case1 pending position =>
      cases hlast : pending.getLast? <;>
        simp [firstUnmatchedFrom?, hlast, renumber]
  | case2 pending position byte rest hbyte ih =>
      obtain ⟨hat, hrest⟩ := getElem?_of_drop htext
      obtain rfl := (ofByte?_eq_some_iff byte .opening).mp hbyte
      rw [ih hrest, rank_succ hat, ofBytes_cons_toByte, List.map_cons, List.map_cons]
      simp only [firstUnmatchedFrom?, hbyte]
  | case3 position byte rest hbyte =>
      obtain rfl := (ofByte?_eq_some_iff byte .closing).mp hbyte
      rw [ofBytes_cons_toByte, List.map_cons]
      simp only [firstUnmatchedFrom?, hbyte, List.map_nil, Option.map_some, renumber]
  | case4 position byte rest start outer hbyte ih =>
      obtain ⟨hat, hrest⟩ := getElem?_of_drop htext
      obtain rfl := (ofByte?_eq_some_iff byte .closing).mp hbyte
      rw [ih hrest, rank_succ hat, ofBytes_cons_toByte, List.map_cons, List.map_cons]
      simp only [firstUnmatchedFrom?, hbyte]
  | case5 pending position byte rest hbyte ih =>
      obtain ⟨hat, hrest⟩ := getElem?_of_drop htext
      rw [ih hrest]
      cases hinstruction : Instruction.ofByte? byte with
      | none => rw [rank_succ_of_comment hat hinstruction, ofBytes_cons_of_comment hinstruction]
      | some instruction =>
          obtain rfl := (Instruction.ofByte?_eq_some_iff byte instruction).mp hinstruction
          rw [rank_succ hat, ofBytes_cons_toByte, List.map_cons]
          simp only [firstUnmatchedFrom?, hbyte]

/-- In texts with the same instructions, the check names the same bracket. -/
theorem exists_firstUnmatched?_of_ofBytes {text text' : List UInt8}
    (h : ofBytes text = ofBytes text') {bracket : Bracket} {position : Nat}
    (hblamed : firstUnmatched? text = some ⟨bracket, position⟩) :
    ∃ position', firstUnmatched? text' = some ⟨bracket, position'⟩ ∧
      SamePlace text.toArray text'.toArray position position' := by
  have hmap (text : List UInt8) : (firstUnmatched? text).map (renumber text.toArray) =
      firstUnmatched? ((ofBytes text).map toByte) := by
    have htext : text.toArray.toList.drop 0 = text := rfl
    exact map_renumber_firstUnmatchedFrom? htext
  have hsame : (firstUnmatched? text').map (renumber text'.toArray) =
      some (renumber text.toArray ⟨bracket, position⟩) := by
    rw [hmap, ← h, ← hmap, hblamed, Option.map_some]
  obtain ⟨⟨bracket', position'⟩, hblamed', heq⟩ := Option.map_eq_some_iff.mp hsame
  obtain ⟨rfl, hrank⟩ := Unmatched.mk.inj heq
  exact ⟨position', hblamed', samePlace_of_at? (at?_of_firstUnmatched? hblamed)
    (at?_of_firstUnmatched? hblamed') hrank.symm⟩

end Bracket

namespace Program

open ByteTape.Bracket ByteTape.Instruction

theorem exists_ofText_error_of_ofBytes {text text' : List UInt8} (h : ofBytes text = ofBytes text')
    {error : Error} (herror : ofText text = .error error) :
    ∃ bracket position position', error = .malformed ⟨bracket, position⟩ ∧
      ofText text' = .error (.malformed ⟨bracket, position'⟩) ∧
      SamePlace text.toArray text'.toArray position position' := by
  obtain ⟨⟨bracket, position⟩, hblamed, rfl⟩ := (ofText_eq_error_iff text error).mp herror
  obtain ⟨position', hblamed', hplace⟩ := exists_firstUnmatched?_of_ofBytes h hblamed
  exact ⟨bracket, position, position', rfl,
    (ofText_eq_error_iff text' _).mpr ⟨_, hblamed', rfl⟩, hplace⟩

theorem exists_ofText_ok_of_ofBytes {text text' : List UInt8} (h : ofBytes text = ofBytes text')
    (hok : ∃ program, ofText text = .ok program) : ∃ program, ofText text' = .ok program := by
  obtain ⟨program, hprogram⟩ := hok
  cases hresult : ofText text' with
  | ok program' => exact ⟨program', rfl⟩
  | error error =>
      obtain ⟨_, _, _, -, herror, -⟩ := exists_ofText_error_of_ofBytes h.symm hresult
      rw [hprogram] at herror
      cases herror

end Program

end ByteTape
