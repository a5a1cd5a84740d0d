import ByteTape.Program
import ByteTape.Proofs.Source
import Mathlib.Data.List.TakeWhile

/-!
# Line by line

Programs can be taken from one source in turn, a line for each of them. What each line takes are
items of the source: the bytes up to the first newline, end or failure, and that item too, or all
that is left if there is none. So the items are all that matters of a source, and what a line leaves
to the next is the rest of them, whether the line was a program, was none, or was cut short.

`Cut` says how a line is cut off by the item that follows its bytes, `LineOf` what becomes of one
line, and `Lines` of one line after the other. Some items have only one first line
(`LineOf.unique`), and so taking lines from a source is exactly what `Lines` says
(`takeLines_iff_lines`).
-/

namespace ByteTape

namespace Source

/-- How a line is cut off whose bytes are followed by the items `tail`, and the items behind it. -/
inductive Cut (bytes : List UInt8) :
    (tail : List SourceItem) → Except String SourceLine → (rest : List SourceItem) → Prop where
  | newline (rest : List SourceItem) : Cut bytes (.byte 0x0a :: rest) (.ok ⟨bytes, true⟩) rest
  | endOfInput (rest : List SourceItem) : Cut bytes (.endOfInput :: rest) (.ok ⟨bytes, false⟩) rest
  | failure (cause : String) (rest : List SourceItem) :
      Cut bytes (.failure cause :: rest) (.error cause) rest
  | nothing : Cut bytes [] (.ok ⟨bytes, false⟩) []

/-- Bytes in front of a line belong to it, and it is cut off by the same item. -/
theorem Cut.append {bytes : List UInt8} {tail rest : List SourceItem}
    {outcome : Except String SourceLine} (front : List UInt8) (h : Cut bytes tail outcome rest) :
    Cut (front ++ bytes) tail
      (outcome.map fun line => { line with bytes := front ++ line.bytes }) rest := by
  cases h <;> constructor

/-- The bytes before the first newline, and the newline with what follows it. -/
theorem eq_append_of_span {bytes front back : List UInt8}
    (h : bytes.span (· != 0x0a) = (front, back)) :
    bytes = front ++ back ∧ 0x0a ∉ front ∧ ∀ byte ∈ back.head?, byte = 0x0a := by
  rw [List.span_eq_takeWhile_dropWhile, Prod.mk.injEq] at h
  obtain ⟨rfl, rfl⟩ := h
  refine ⟨List.takeWhile_append_dropWhile.symm, fun hmem => ?_, fun byte hbyte => ?_⟩
  · have hpassed := List.mem_takeWhile_imp hmem
    simp at hpassed
  · have hstop := List.head?_dropWhile_not (· != 0x0a) bytes
    rw [Option.mem_def.mp hbyte] at hstop
    simpa using hstop

/-- Taking a line from a source takes the bytes up to the first item that cuts it off. -/
theorem exists_cut (source : Source) :
    ∃ bytes tail, 0x0a ∉ bytes ∧ source.items = bytes.map .byte ++ tail ∧
      Cut bytes tail source.takeLine.1 source.takeLine.2.items := by
  fun_induction takeLine source with
  | case1 => exact ⟨[], [], List.not_mem_nil, rfl, .nothing⟩
  | case2 bytes rest front newline back hspan =>
      obtain ⟨rfl, hfront, hnewline⟩ := eq_append_of_span hspan
      obtain rfl := hnewline newline rfl
      exact ⟨front, .byte 0x0a :: items (.data back :: rest), hfront, by simp [items], .newline _⟩
  | case3 bytes rest front hspan line left htake ih =>
      obtain ⟨rfl, hfront, -⟩ := eq_append_of_span hspan
      obtain ⟨more, tail, hmore, hitems, hcut⟩ := ih
      rw [htake] at hcut
      exact ⟨front ++ more, tail, by simp [hfront, hmore], by simp [items, hitems],
        hcut.append front⟩
  | case4 bytes rest front hspan cause left htake ih =>
      obtain ⟨rfl, hfront, -⟩ := eq_append_of_span hspan
      obtain ⟨more, tail, hmore, hitems, hcut⟩ := ih
      rw [htake] at hcut
      exact ⟨front ++ more, tail, by simp [hfront, hmore], by simp [items, hitems],
        hcut.append front⟩
  | case5 cause rest => exact ⟨[], _, List.not_mem_nil, rfl, .failure cause _⟩
  | case6 rest ih => exact ih
  | case7 rest => exact ⟨[], _, List.not_mem_nil, rfl, .endOfInput _⟩

end Source

namespace Program

/-- Takes some lines from a source as programs, one after the other. -/
def takeLines : (count : Nat) → Source → List (Except Error Program) × Source
  | 0, source => ([], source)
  | count + 1, source =>
      match takeLine source with
      | (outcome, rest) =>
          match takeLines count rest with
          | (outcomes, left) => (outcome :: outcomes, left)

/-- What becomes of the bytes of a line by the items `tail` that follow them, and which of these are
left. A newline does not belong to the text of the line, and neither does the carriage return right
before it; but a carriage return before any other end does. A failure loses the bytes. -/
inductive Yields : (bytes : List UInt8) → (tail : List SourceItem) → Except Error Program →
    (rest : List SourceItem) → Prop where
  | newline {text : List UInt8} (hlast : text.getLast? ≠ some 0x0d) (rest : List SourceItem) :
      Yields text (.byte 0x0a :: rest) (ofText text) rest
  | carriageReturn (text : List UInt8) (rest : List SourceItem) :
      Yields (text ++ [0x0d]) (.byte 0x0a :: rest) (ofText text) rest
  | endOfInput (text : List UInt8) (rest : List SourceItem) :
      Yields text (.endOfInput :: rest) (ofText text) rest
  | failure (lost : List UInt8) (cause : String) (rest : List SourceItem) :
      Yields lost (.failure cause :: rest) (.error (.io cause)) rest
  | nothing (text : List UInt8) : Yields text [] (ofText text) []

/-- What becomes of the first line of some items, and which of them it leaves. -/
def LineOf (items : List SourceItem) (outcome : Except Error Program) (rest : List SourceItem) :
    Prop :=
  ∃ bytes tail, 0x0a ∉ bytes ∧ items = bytes.map .byte ++ tail ∧ Yields bytes tail outcome rest

/-- What becomes of the first lines of some items, and which of these they leave. -/
inductive Lines : List SourceItem → List (Except Error Program) → (rest : List SourceItem) →
    Prop where
  | nil (items : List SourceItem) : Lines items [] items
  | cons {items middle rest : List SourceItem} {outcome : Except Error Program}
      {outcomes : List (Except Error Program)} (hline : LineOf items outcome middle)
      (hrest : Lines middle outcomes rest) : Lines items (outcome :: outcomes) rest

theorem yields_of_cut {bytes : List UInt8} {tail rest : List SourceItem} {line : SourceLine}
    (h : Source.Cut bytes tail (.ok line) rest) : Yields bytes tail (ofText line.text) rest := by
  cases h with
  | newline =>
      rcases List.eq_nil_or_concat bytes with rfl | ⟨text, last, rfl⟩
      · exact .newline (by simp) rest
      · by_cases hreturn : last = 0x0d
        · subst hreturn
          simpa [SourceLine.text] using Yields.carriageReturn text rest
        · have hlast : (text ++ [last]).getLast? ≠ some 0x0d := by simpa using hreturn
          simpa [SourceLine.text, hreturn] using Yields.newline hlast rest
  | endOfInput => exact .endOfInput bytes rest
  | nothing => exact .nothing bytes

theorem yields_of_cut_error {bytes : List UInt8} {tail rest : List SourceItem} {cause : String}
    (h : Source.Cut bytes tail (.error cause) rest) :
    Yields bytes tail (.error (.io cause)) rest := by
  cases h with
  | failure => exact .failure bytes cause rest

/-- Taking a line as a program takes the first line of what there is. -/
theorem takeLine_lineOf (source : Source) :
    LineOf source.items (takeLine source).1 (takeLine source).2.items := by
  obtain ⟨bytes, tail, hbytes, hitems, hcut⟩ := source.exists_cut
  refine ⟨bytes, tail, hbytes, hitems, ?_⟩
  rw [takeLine]
  rcases htake : source.takeLine with ⟨cause | line, left⟩
  · rw [htake] at hcut
    exact yields_of_cut_error hcut
  · rw [htake] at hcut
    exact yields_of_cut hcut

theorem takeLines_lines (count : Nat) (source : Source) :
    Lines source.items (takeLines count source).1 (takeLines count source).2.items ∧
      (takeLines count source).1.length = count := by
  induction count generalizing source with
  | zero => exact ⟨.nil _, rfl⟩
  | succ count ih =>
      obtain ⟨hlines, hlength⟩ := ih (takeLine source).2
      exact ⟨.cons (takeLine_lineOf source) hlines, congrArg Nat.succ hlength⟩

section

variable {items tail rest rest' : List SourceItem} {outcome outcome' : Except Error Program}

/-- The item that cuts off a line is no byte other than a newline. -/
theorem Yields.eq_newline {bytes : List UInt8} {byte : UInt8}
    (h : Yields bytes (.byte byte :: tail) outcome rest) : byte = 0x0a := by
  cases h <;> rfl

theorem Yields.unique {bytes : List UInt8} (h : Yields bytes tail outcome rest)
    (h' : Yields bytes tail outcome' rest') : outcome = outcome' ∧ rest = rest' := by
  cases h with
  | newline hlast =>
      cases h' with
      | newline => exact ⟨rfl, rfl⟩
      | carriageReturn => simp at hlast
  | carriageReturn text =>
      generalize hbytes : text ++ [0x0d] = bytes at h'
      cases h' with
      | newline hlast => simp [← hbytes] at hlast
      | carriageReturn text' =>
          obtain ⟨rfl, -⟩ := List.append_inj' hbytes rfl
          exact ⟨rfl, rfl⟩
  | endOfInput =>
      cases h'
      exact ⟨rfl, rfl⟩
  | failure =>
      cases h'
      exact ⟨rfl, rfl⟩
  | nothing =>
      cases h'
      exact ⟨rfl, rfl⟩

/-- The bytes of a line go up to the item that cuts it off, so the items say which they are. -/
theorem eq_of_map_byte_append {bytes bytes' : List UInt8} {tail tail' : List SourceItem}
    (hbytes : 0x0a ∉ bytes) (hbytes' : 0x0a ∉ bytes')
    (htail : ∀ byte more, tail = .byte byte :: more → byte = 0x0a)
    (htail' : ∀ byte more, tail' = .byte byte :: more → byte = 0x0a)
    (h : bytes.map .byte ++ tail = bytes'.map .byte ++ tail') : bytes = bytes' ∧ tail = tail' := by
  induction bytes generalizing bytes' with
  | nil =>
      cases bytes' with
      | nil => exact ⟨rfl, h⟩
      | cons byte more =>
          obtain rfl := htail byte _ h
          exact absurd List.mem_cons_self hbytes'
  | cons byte more ih =>
      cases bytes' with
      | nil =>
          obtain rfl := htail' byte _ h.symm
          exact absurd List.mem_cons_self hbytes
      | cons byte' more' =>
          obtain ⟨hhead, hrest⟩ := List.cons.inj h
          obtain rfl := SourceItem.byte.inj hhead
          obtain ⟨rfl, rfl⟩ := ih (List.not_mem_of_not_mem_cons hbytes)
            (List.not_mem_of_not_mem_cons hbytes') hrest
          exact ⟨rfl, rfl⟩

/-- Some items have one first line only, since it ends with the first item at which it can end. -/
theorem LineOf.unique (h : LineOf items outcome rest) (h' : LineOf items outcome' rest') :
    outcome = outcome' ∧ rest = rest' := by
  obtain ⟨bytes, tail, hbytes, rfl, hyields⟩ := h
  obtain ⟨bytes', tail', hbytes', hsame, hyields'⟩ := h'
  obtain ⟨rfl, rfl⟩ := eq_of_map_byte_append hbytes hbytes'
    (fun _ _ htail => (htail ▸ hyields).eq_newline)
    (fun _ _ htail => (htail ▸ hyields').eq_newline) hsame
  exact hyields.unique hyields'

theorem Lines.unique {outcomes outcomes' : List (Except Error Program)}
    (h : Lines items outcomes rest) (h' : Lines items outcomes' rest')
    (hlength : outcomes.length = outcomes'.length) : outcomes = outcomes' ∧ rest = rest' := by
  induction h generalizing outcomes' with
  | nil items =>
      obtain rfl := List.length_eq_zero_iff.mp hlength.symm
      cases h'
      exact ⟨rfl, rfl⟩
  | cons hline _ ih =>
      cases h' with
      | nil => cases hlength
      | cons hline' hrest' =>
          obtain ⟨rfl, rfl⟩ := hline.unique hline'
          obtain ⟨rfl, rfl⟩ := ih hrest' (Nat.succ.inj hlength)
          exact ⟨rfl, rfl⟩

end

/-- Programs are taken from a source exactly line by line. However many are taken, and in whatever
pieces and with whatever interruptions the source gives its items: each comes of the next line of
these items, and the items that are left are those behind the last line. A line that is no program
and a line that is cut short by a failure are taken like any other. -/
theorem takeLines_iff_lines (count : Nat) (source : Source) (outcomes : List (Except Error Program))
    (rest : List SourceItem) :
    (takeLines count source).1 = outcomes ∧ (takeLines count source).2.items = rest ↔
      Lines source.items outcomes rest ∧ outcomes.length = count := by
  obtain ⟨hlines, hlength⟩ := takeLines_lines count source
  constructor
  · rintro ⟨rfl, rfl⟩
    exact ⟨hlines, hlength⟩
  · rintro ⟨hlines', hlength'⟩
    exact hlines.unique hlines' (hlength.trans hlength'.symm)

/-- The second line is no program and the third one fails, but each takes its own items only. -/
example :
    (takeLines 3 [.data [0x2b, 0x0d], .interrupt, .data [0x0a, 0x5d, 0x0a, 0x2b],
      .failure "reset", .data [0x2e]]).2.items = [.byte 0x2e] := by decide

end Program

end ByteTape
