import ByteTape.Sink
import Mathlib.Algebra.Order.Floor.Div
import Mathlib.Tactic.Common

/-!
# What a sink takes

However many calls it takes to hand over some bytes, the sink takes a front part of them in order,
and all of them exactly if nothing is refused. If the sink takes something with each call, that
front part is what its limit leaves room for (`taken_writeAll`), whatever the size of the calls. The
settings of a sink never change, so a sink that takes whatever it is given stays such a sink.

Such a sink takes some bytes in as few parts as it can, and the calls are one for each part and one
for each interruption (`Ample.handsOver`).
-/

namespace ByteTape

namespace Sink

/-- A sink that takes whatever it is given. -/
structure Ample (sink : Sink) : Prop where
  limit_eq : sink.limit = none
  chunk_ne : sink.chunk ≠ some 0

/-- A sink that never fails, neither to take bytes nor to pass them on. -/
structure Unfailing (sink : Sink) : Prop extends Ample sink where
  flushFails_eq : sink.flushFails = false

/-- A sink without any restriction never fails. -/
theorem unfailing_default : Unfailing {} := ⟨⟨rfl, by simp⟩, rfl⟩

theorem accepts_append_drop (sink : Sink) (bytes : List UInt8) :
    sink.accepts bytes ++ bytes.drop (sink.accepts bytes).length = bytes := by
  rw [← List.prefix_iff_eq_append, accepts]
  cases sink.allowance with
  | none => exact List.prefix_rfl
  | some count => exact List.take_prefix count bytes

/-- The sink takes a front part of what it is handed, and all of it unless it refuses. -/
theorem exists_taken_of_writeAll {sink left : Sink} {bytes : List UInt8}
    {outcome : Except String Unit} (h : sink.writeAll bytes = (outcome, left)) :
    ∃ front back, bytes = front ++ back ∧ left.taken = sink.taken ++ front ∧
      (outcome = .ok () ↔ back = []) := by
  fun_induction writeAll sink bytes with
  | case1 sink bytes hbytes =>
      cases h
      exact ⟨[], [], by simpa using hbytes, by simp, by simp⟩
  | case2 sink bytes _ _ ih => exact ih h
  | case3 sink bytes hbytes _ _ =>
      cases h
      exact ⟨[], bytes, rfl, by simp [refused], by simpa using hbytes⟩
  | case4 sink bytes _ _ _ ih =>
      obtain ⟨front, back, hback, htaken, houtcome⟩ := ih h
      refine ⟨sink.accepts bytes ++ front, back, ?_, ?_, houtcome⟩
      · rw [List.append_assoc, ← hback, accepts_append_drop]
      · rw [htaken]
        exact Array.toList_inj.mp (by simp [take])

theorem taken_of_writeAll_ok {sink left : Sink} {bytes : List UInt8}
    (h : sink.writeAll bytes = (.ok (), left)) : left.taken = sink.taken ++ bytes := by
  obtain ⟨front, back, rfl, htaken, hback⟩ := exists_taken_of_writeAll h
  rw [htaken, hback.mp rfl, List.append_nil]

theorem taken_of_writeAll_error {sink left : Sink} {byte : UInt8} {cause : String}
    (h : sink.writeAll [byte] = (.error cause, left)) : left.taken = sink.taken := by
  obtain ⟨front, back, hbytes, htaken, hback⟩ := exists_taken_of_writeAll h
  cases front with
  | nil => simpa using htaken
  | cons first front =>
      obtain ⟨-, htail⟩ := List.cons.inj hbytes
      have hnil := (List.append_eq_nil_iff.mp htail.symm).2
      cases hback.mpr hnil

namespace Ample

theorem accepts_ne_nil {sink : Sink} (h : sink.Ample) {bytes : List UInt8} (hbytes : bytes ≠ []) :
    sink.accepts bytes ≠ [] := by
  obtain ⟨hlimit, hchunk⟩ := h
  rw [accepts, allowance, hlimit]
  cases hcount : sink.chunk with
  | none => simpa using hbytes
  | some count =>
      have hpos : count ≠ 0 := fun hzero => hchunk (hzero ▸ hcount)
      simpa [hpos] using hbytes

theorem exists_writeAll {sink : Sink} (h : sink.Ample) (bytes : List UInt8) :
    ∃ left, sink.writeAll bytes = (.ok (), left) ∧ left.Ample ∧
      left.flushFails = sink.flushFails := by
  fun_induction writeAll sink bytes with
  | case1 sink bytes _ => exact ⟨sink, rfl, h, rfl⟩
  | case2 sink bytes _ _ ih => exact ih ⟨h.limit_eq, h.chunk_ne⟩
  | case3 sink bytes hbytes _ hfront =>
      exact absurd (by simpa using hfront) (h.accepts_ne_nil (by simpa using hbytes))
  | case4 sink bytes _ _ _ ih => exact ih ⟨h.limit_eq, h.chunk_ne⟩

end Ample

/-- The front part of some bytes that there is room for, if they are handed over now. -/
def fitting (sink : Sink) (bytes : List UInt8) : List UInt8 :=
  match sink.limit with
  | none => bytes
  | some limit => bytes.take (limit - sink.taken.size)

@[simp] theorem fitting_nil (sink : Sink) : sink.fitting [] = [] := by
  cases hlimit : sink.limit <;> simp [fitting, hlimit]

theorem length_accepts_le {sink : Sink} {limit : Nat} (hlimit : sink.limit = some limit)
    (bytes : List UInt8) : (sink.accepts bytes).length ≤ limit - sink.taken.size := by
  cases hchunk : sink.chunk <;> simp only [accepts, allowance, hchunk, hlimit, List.length_take] <;>
    omega

/-- A sink that takes something with each call refuses only if there is no room. -/
theorem fitting_eq_nil_of_accepts {sink : Sink} (hchunk : sink.chunk ≠ some 0)
    {bytes : List UInt8} (h : sink.accepts bytes = []) : sink.fitting bytes = [] := by
  cases hlimit : sink.limit with
  | none =>
      by_contra hne
      rw [fitting, hlimit] at hne
      exact Ample.accepts_ne_nil ⟨hlimit, hchunk⟩ hne h
  | some limit =>
      cases hcount : sink.chunk with
      | none => simpa [accepts, allowance, fitting, hlimit, hcount] using h
      | some count =>
          have hpos : count ≠ 0 := fun hzero => hchunk (hzero ▸ hcount)
          simp only [accepts, allowance, fitting, hlimit, hcount, List.take_eq_nil_iff] at h ⊢
          exact h.imp_left fun hnone => by omega

/-- What one call takes is the beginning of what there is room for. -/
theorem accepts_append_fitting (sink : Sink) (bytes : List UInt8) :
    sink.accepts bytes ++
        (sink.take (sink.accepts bytes)).fitting (bytes.drop (sink.accepts bytes).length) =
      sink.fitting bytes := by
  have hsplit := sink.accepts_append_drop bytes
  cases hlimit : sink.limit with
  | none => simpa [fitting, take, hlimit] using hsplit
  | some limit =>
      have hle := length_accepts_le hlimit bytes
      have hsize : (sink.taken ++ sink.accepts bytes).size =
          sink.taken.size + (sink.accepts bytes).length := by
        simp [← Array.length_toList]
      simp only [fitting, take, hlimit, hsize]
      calc sink.accepts bytes ++ List.take (limit - (sink.taken.size + (sink.accepts bytes).length))
              (bytes.drop (sink.accepts bytes).length)
          = (sink.accepts bytes ++ bytes.drop (sink.accepts bytes).length).take
              (limit - sink.taken.size) := by
            rw [List.take_append, List.take_of_length_le hle, Nat.sub_sub]
        _ = bytes.take (limit - sink.taken.size) := by rw [hsplit]

/-- However many calls it takes, a sink that takes something with each of them ends up with what
there was room for. -/
theorem taken_writeAll {sink : Sink} (hchunk : sink.chunk ≠ some 0) (bytes : List UInt8) :
    (sink.writeAll bytes).2.taken.toList = sink.taken.toList ++ sink.fitting bytes := by
  fun_induction writeAll sink bytes with
  | case1 sink bytes hbytes =>
      obtain rfl : bytes = [] := by simpa using hbytes
      simp
  | case2 sink bytes _ _ ih => exact ih hchunk
  | case3 sink bytes _ _ hfront =>
      rw [fitting_eq_nil_of_accepts hchunk (by simpa using hfront), List.append_nil]
      rfl
  | case4 sink bytes _ _ _ ih =>
      rw [ih hchunk, ← accepts_append_fitting sink bytes, ← List.append_assoc]
      congr 1
      simp [take]

@[simp] theorem flush_taken (sink : Sink) : sink.flush.2.taken = sink.taken := by
  rw [flush]
  split <;> rfl

@[simp] theorem flush_writes (sink : Sink) : sink.flush.2.writes = sink.writes := by
  rw [flush]
  split <;> rfl

@[simp] theorem flush_flushes (sink : Sink) : sink.flush.2.flushes = sink.flushes + 1 := by
  rw [flush]
  split <;> rfl

theorem Unfailing.exists_writeAll {sink : Sink} (h : sink.Unfailing) (bytes : List UInt8) :
    ∃ left, sink.writeAll bytes = (.ok (), left) ∧ left.Unfailing := by
  obtain ⟨left, hwrite, hample, hflush⟩ := h.toAmple.exists_writeAll bytes
  exact ⟨left, hwrite, hample, hflush.trans h.flushFails_eq⟩

theorem Unfailing.writeAll_fst {sink : Sink} (h : sink.Unfailing) (bytes : List UInt8) :
    (sink.writeAll bytes).1 = .ok () := by
  obtain ⟨left, hwrite, -⟩ := h.exists_writeAll bytes
  rw [hwrite]

/-- In how many parts some bytes are taken by a sink that takes whatever it is given. -/
def parts (sink : Sink) (count : Nat) : Nat :=
  match sink.chunk with
  | none => min count 1
  | some chunk => count ⌈/⌉ chunk

/-- How many calls it takes to hand over some parts: one for each of them, after those that are
interrupted. -/
def calls (sink : Sink) (parts : Nat) : Nat := if parts = 0 then 0 else parts + sink.interrupts

@[simp] theorem parts_zero (sink : Sink) : sink.parts 0 = 0 := by
  cases hchunk : sink.chunk <;> simp [parts, hchunk]

/-- The next part is as large as a call can take. -/
theorem Ample.parts_eq {sink : Sink} (h : sink.Ample) {bytes : List UInt8} (hbytes : bytes ≠ []) :
    sink.parts bytes.length =
      1 + sink.parts (bytes.drop (sink.accepts bytes).length).length := by
  obtain ⟨hlimit, hne⟩ := h
  have hsome := List.length_pos_iff.mpr hbytes
  cases hchunk : sink.chunk with
  | none =>
      simp only [parts, accepts, allowance, hchunk, hlimit, List.drop_length, List.length_nil]
      omega
  | some chunk =>
      have hpos : 0 < chunk := Nat.pos_of_ne_zero fun hzero => hne (hzero ▸ hchunk)
      simp only [parts, accepts, allowance, hchunk, hlimit, List.length_drop, List.length_take,
        Nat.ceilDiv_eq_add_pred_div]
      rcases Nat.le_total bytes.length chunk with hle | hlt
      · have hfirst : (bytes.length + chunk - 1) / chunk = 1 :=
          Nat.div_eq_of_lt_le (by omega) (by omega)
        have hnone : (bytes.length - min chunk bytes.length + chunk - 1) / chunk = 0 :=
          Nat.div_eq_of_lt (by omega)
        rw [hfirst, hnone]
      · have hsplit : bytes.length + chunk - 1 =
            (bytes.length - min chunk bytes.length + chunk - 1) + chunk := by omega
        rw [hsplit, Nat.add_div_right _ hpos, Nat.add_comm]

theorem parts_of_le {sink : Sink} {count : Nat} (hpos : 0 < count)
    (hfits : ∀ chunk ∈ sink.chunk, count ≤ chunk) : sink.parts count = 1 := by
  cases hchunk : sink.chunk with
  | none =>
      simp only [parts, hchunk]
      omega
  | some chunk =>
      have hle := hfits chunk hchunk
      simp only [parts, hchunk, Nat.ceilDiv_eq_add_pred_div]
      exact Nat.div_eq_of_lt_le (by omega) (by omega)

/-- What handing over a number of parts leaves of a sink, but for what it has taken. -/
structure HandsOver (sink : Sink) (parts : Nat) (left : Sink) : Prop where
  writes_eq : left.writes = sink.writes + sink.calls parts
  interrupts_eq : left.interrupts = if parts = 0 then sink.interrupts else 0
  flushes_eq : left.flushes = sink.flushes
  limit_eq : left.limit = sink.limit
  chunk_eq : left.chunk = sink.chunk

namespace HandsOver

theorem nothing (sink : Sink) : HandsOver sink 0 sink := ⟨by simp [calls], by simp, rfl, rfl, rfl⟩

/-- Whatever comes first makes the calls that are interrupted. -/
theorem trans {sink middle left : Sink} {front back : Nat} (h : HandsOver sink front middle)
    (h' : HandsOver middle back left) : HandsOver sink (front + back) left where
  writes_eq := by
    rw [h'.writes_eq, h.writes_eq, calls, calls, calls, h.interrupts_eq]
    split_ifs <;> omega
  interrupts_eq := by
    rw [h'.interrupts_eq, h.interrupts_eq]
    split_ifs <;> omega
  flushes_eq := h'.flushes_eq.trans h.flushes_eq
  limit_eq := h'.limit_eq.trans h.limit_eq
  chunk_eq := h'.chunk_eq.trans h.chunk_eq

theorem ample {sink left : Sink} {parts : Nat} (h : HandsOver sink parts left)
    (hsink : sink.Ample) : left.Ample :=
  ⟨h.limit_eq.trans hsink.limit_eq, h.chunk_eq ▸ hsink.chunk_ne⟩

theorem take {sink : Sink} (hinterrupts : sink.interrupts = 0) (bytes : List UInt8) :
    HandsOver sink 1 (sink.take bytes) :=
  ⟨by simp [Sink.take, calls, hinterrupts], by simp [Sink.take, hinterrupts], rfl, rfl, rfl⟩

theorem of_interrupted {sink left : Sink} {parts : Nat} (hinterrupts : sink.interrupts ≠ 0)
    (hparts : parts ≠ 0) (h : HandsOver sink.interrupted parts left) :
    HandsOver sink parts left where
  writes_eq := by
    rw [h.writes_eq, calls, calls, if_neg hparts, if_neg hparts]
    simp only [interrupted]
    omega
  interrupts_eq := by rw [h.interrupts_eq, if_neg hparts, if_neg hparts]
  flushes_eq := h.flushes_eq
  limit_eq := h.limit_eq
  chunk_eq := h.chunk_eq

end HandsOver

/-- A sink that takes whatever it is given takes it in as few parts as it can. -/
theorem Ample.handsOver {sink : Sink} (h : sink.Ample) (bytes : List UInt8) :
    HandsOver sink (sink.parts bytes.length) (sink.writeAll bytes).2 := by
  fun_induction writeAll sink bytes with
  | case1 sink bytes hbytes =>
      obtain rfl : bytes = [] := by simpa using hbytes
      simpa using HandsOver.nothing sink
  | case2 sink bytes hbytes hinterrupts ih =>
      have hsome := h.parts_eq (by simpa using hbytes)
      exact .of_interrupted hinterrupts (by omega) (ih ⟨h.limit_eq, h.chunk_ne⟩)
  | case3 sink bytes hbytes _ hfront =>
      exact absurd (by simpa using hfront) (h.accepts_ne_nil (by simpa using hbytes))
  | case4 sink bytes hbytes hinterrupts _ ih =>
      rw [h.parts_eq (by simpa using hbytes)]
      exact (HandsOver.take (by simpa using hinterrupts) _).trans (ih ⟨h.limit_eq, h.chunk_ne⟩)

end Sink

end ByteTape
