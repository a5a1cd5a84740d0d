import ByteTape.Listing
import Mathlib.Tactic.Common

/-!
# What a listing shows

A listing shows the instructions of a text, all of them and in order (`ofBytes_ofText`). Everything
else that is on its lines is a comment again: the blanks of the indentation and the newlines. So a
listing, taken as a text, has the listing that it is itself, and two texts have the same listing
exactly if they have the same instructions (`listing_is_canonical`).

The layout goes instruction by instruction, so what a draft shows so far is followed from one
instruction to the next: its finished lines, and then the run that is not written out yet.
-/

namespace ByteTape

/-- The instructions of a text, written as bytes again, are those of its bytes that are no
comments. -/
theorem Instruction.map_toByte_ofBytes (text : List UInt8) :
    (ofBytes text).map toByte = text.filter isInstruction := by
  induction text with
  | nil => rfl
  | cons byte rest ih =>
      cases h : ofByte? byte with
      | none => simpa [ofBytes, isInstruction, h] using ih
      | some instruction =>
          have hwritten := (ofByte?_eq_some_iff byte instruction).mp h
          simpa [ofBytes, isInstruction, h, ← hwritten] using ih

theorem Instruction.ofBytes_filter_isInstruction (text : List UInt8) :
    ofBytes (text.filter isInstruction) = ofBytes text := by
  rw [← map_toByte_ofBytes, ofBytes_map_toByte]

namespace Listing

namespace Draft

/-- The instructions that a draft has taken. -/
def instructions (draft : Draft) : List Instruction :=
  draft.lines.toList.flatMap Line.instructions ++ draft.run.toList

theorem finish_run (draft : Draft) : draft.finish.run = #[] := by
  rw [finish]
  split
  · rename_i hrun
    simpa using hrun
  · rfl

@[simp] theorem instructions_finish (draft : Draft) :
    draft.finish.instructions = draft.instructions := by
  rw [finish]
  split
  · rfl
  · simp [instructions]

/-- A finished draft shows all it has taken on its lines. -/
theorem flatMap_lines_finish (draft : Draft) :
    draft.finish.lines.toList.flatMap Line.instructions = draft.instructions := by
  rw [← instructions_finish, instructions, finish_run, List.append_nil]

theorem instructions_add (draft : Draft) (instruction : Instruction) :
    (draft.add instruction).instructions = draft.instructions ++ [instruction] := by
  cases instruction with
  | loopStart => simp [add, instructions, finish_run, flatMap_lines_finish]
  | loopEnd => simp [add, instructions, finish_run, flatMap_lines_finish]
  | _ => simp [add, instructions]

theorem instructions_foldl (draft : Draft) (taken : List Instruction) :
    (taken.foldl add draft).instructions = draft.instructions ++ taken := by
  induction taken generalizing draft with
  | nil => simp
  | cons instruction rest ih =>
      rw [List.foldl_cons, ih, instructions_add, List.append_assoc, List.singleton_append]

end Draft

/-- The lines of a listing show all instructions in order. -/
theorem flatMap_lines (instructions : List Instruction) :
    (lines instructions).flatMap Line.instructions = instructions := by
  rw [lines, Draft.flatMap_lines_finish, Draft.instructions_foldl]
  rfl

theorem Line.ofBytes_toBytes (line : Line) :
    Instruction.ofBytes line.toBytes = line.instructions := by
  have hblanks : Instruction.ofBytes (List.replicate (2 * line.indent) 0x20) = [] := by
    simp [Instruction.ofBytes, Instruction.ofByte?]
  rw [toBytes, Instruction.ofBytes_append, Instruction.ofBytes_append, hblanks,
    Instruction.ofBytes_map_toByte]
  exact List.append_nil _

/-- The listing of a text has its instructions. -/
theorem ofBytes_ofText (text : List UInt8) :
    Instruction.ofBytes (ofText text) = Instruction.ofBytes text := by
  have hline : (fun line : Line => Instruction.ofBytes line.toBytes) = Line.instructions :=
    funext Line.ofBytes_toBytes
  calc Instruction.ofBytes (ofText text)
      = (lines (Instruction.ofBytes text)).flatMap fun line => Instruction.ofBytes line.toBytes :=
        List.filterMap_flatMap
    _ = Instruction.ofBytes text := by rw [hline, flatMap_lines]

/-- Texts with the same instructions have the same listing. -/
theorem ofText_congr {text text' : List UInt8}
    (h : Instruction.ofBytes text = Instruction.ofBytes text') : ofText text = ofText text' := by
  rw [ofText, ofText, h]

/-- A line has no bytes but its instructions, the blanks before them and the newline. -/
theorem Line.mem_toBytes {line : Line} {byte : UInt8} (h : byte ∈ line.toBytes) :
    Instruction.isInstruction byte = true ∨ byte = 0x20 ∨ byte = 0x0a := by
  simp only [toBytes, List.mem_append, List.mem_replicate, List.mem_map, List.mem_singleton] at h
  rcases h with ⟨-, hblank⟩ | ⟨instruction, -, rfl⟩ | hnewline
  · exact .inr (.inl hblank)
  · exact .inl (by simp [Instruction.isInstruction])
  · exact .inr (.inr hnewline)

/-- A listing loses nothing of a text but its comments, and these it loses entirely. The bytes of
the listing that are instructions are those of the text, in order, and all others are blanks and
newlines. So a listing is its own listing, and texts have the same listing if, and only if, they
differ in their comments alone. -/
theorem listing_is_canonical (text : List UInt8) :
    (ofText text).filter Instruction.isInstruction = text.filter Instruction.isInstruction ∧
    (∀ byte ∈ ofText text, Instruction.isInstruction byte = false → byte = 0x20 ∨ byte = 0x0a) ∧
    ofText (ofText text) = ofText text ∧
    ∀ text' : List UInt8, ofText text = ofText text' ↔
      text.filter Instruction.isInstruction = text'.filter Instruction.isInstruction := by
  refine ⟨?_, fun byte hbyte hcomment => ?_, ofText_congr (ofBytes_ofText text),
    fun text' => ⟨fun h => ?_, fun h => ?_⟩⟩
  · rw [← Instruction.map_toByte_ofBytes, ofBytes_ofText, Instruction.map_toByte_ofBytes]
  · obtain ⟨line, -, hline⟩ := List.mem_flatMap.mp hbyte
    exact (Line.mem_toBytes hline).resolve_left (by simp [hcomment])
  · rw [← Instruction.map_toByte_ofBytes, ← Instruction.map_toByte_ofBytes, ← ofBytes_ofText, h,
      ofBytes_ofText]
  · apply ofText_congr
    rw [← Instruction.ofBytes_filter_isInstruction, h, Instruction.ofBytes_filter_isInstruction]

/-- In the listing of `]a+[` the stray bracket, the plain instruction and the loop that is never
closed each have a line, and none of them is indented. The text `] +;[` has the same listing. -/
theorem listing_is_canonical_of_strays :
    ofText [0x5d, 0x61, 0x2b, 0x5b] = [0x5d, 0x0a, 0x2b, 0x0a, 0x5b, 0x0a] ∧
    (ofText [0x5d, 0x61, 0x2b, 0x5b]).filter Instruction.isInstruction = [0x5d, 0x2b, 0x5b] ∧
    (0x0a ∈ ofText [0x5d, 0x61, 0x2b, 0x5b] ∧ Instruction.isInstruction 0x0a = false ∧
      ((0x0a : UInt8) = 0x20 ∨ (0x0a : UInt8) = 0x0a)) ∧
    ofText (ofText [0x5d, 0x61, 0x2b, 0x5b]) = ofText [0x5d, 0x61, 0x2b, 0x5b] ∧
    ofText [0x5d, 0x61, 0x2b, 0x5b] = ofText [0x5d, 0x20, 0x2b, 0x3b, 0x5b] := by
  obtain ⟨hkept, hothers, hagain, hsame⟩ := listing_is_canonical [0x5d, 0x61, 0x2b, 0x5b]
  have hmem : 0x0a ∈ ofText [0x5d, 0x61, 0x2b, 0x5b] := by decide
  exact ⟨by decide, hkept.trans (by decide), ⟨hmem, by decide, hothers 0x0a hmem (by decide)⟩,
    hagain, (hsame _).mpr (by decide)⟩

end Listing

end ByteTape
