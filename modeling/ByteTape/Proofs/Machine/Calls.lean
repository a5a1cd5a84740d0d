import ByteTape.Proofs.Machine.Depth
import ByteTape.Proofs.Machine.Mode

/-!
# The calls a run makes to its sink

How often a run calls its sink hangs on its mode. A machine that is not verbose hands over each byte
when it executes the `.`; one that is verbose makes no call before the run ends, and then hands over
everything in parts as large as the sink takes them. Either way the sink is flushed once, after all
else, however the run ends.

`Sink.HandsOver` says what some calls leave of a sink. It composes, so it holds of a run because it
holds of a single `.`.
-/

namespace ByteTape

namespace Machine

/-- How many of the instructions reported put out the current cell. -/
def outputs (entries : List Entry) : Nat := (reports entries).countP (·.instruction = .output)

@[simp] theorem length_printed (entries : List Entry) :
    (printed entries).length = outputs entries := by
  rw [printed, List.length_map, outputs, List.countP_eq_length_filter]

theorem outputs_append (front back : List Entry) :
    outputs (front ++ back) = outputs front + outputs back := by
  rw [outputs, reports_append, List.countP_append, outputs, outputs]

/-- The number of parts in which the machine hands over some outputs when it makes them. -/
def streamed (machine : Machine) (count : Nat) : Nat := if machine.verbose then 0 else count

/-- A single byte is handed over in one part, unless it is collected. -/
theorem Settles.handsOver {machine : Machine} {source rest : Source} {sink left : Sink}
    {instruction : Instruction} {action : Action}
    (h : Settles machine source sink instruction action rest left) (hsink : sink.Ample) :
    sink.HandsOver (machine.streamed (outputs (machine.account instruction action))) left := by
  rw [← length_printed, printed_account h]
  cases h with
  | collect hverbose =>
      rw [streamed, if_pos hverbose]
      exact .nothing sink
  | write hverbose hwrite =>
      have hone : sink.parts 1 = 1 := Sink.parts_of_le one_pos fun chunk hchunk =>
        Nat.one_le_iff_ne_zero.mpr fun hzero => hsink.chunk_ne (hzero ▸ hchunk)
      have hbyte := hsink.handsOver [machine.tape.current]
      rw [hwrite, List.length_singleton, hone] at hbyte
      simpa [streamed, hverbose] using hbyte
  | _ => simpa [streamed] using Sink.HandsOver.nothing sink

theorem Path.handsOver {n : Nat} {c d : Configuration} {entries : List Entry}
    (h : Path n c entries d) (hsink : c.sink.Ample) :
    c.sink.HandsOver (c.machine.streamed (outputs entries)) d.sink := by
  induction h with
  | nil c => simpa [streamed, outputs] using Sink.HandsOver.nothing c.sink
  | cons hstep _ ih =>
      cases takes_of_step hstep with
      | comment => exact ih hsink
      | @perform instruction action _ _ _ hsettles =>
          have hfirst := hsettles.handsOver hsink
          have hboth := hfirst.trans (ih (hfirst.ample hsink))
          rw [outputs_append]
          convert hboth using 1
          simp only [streamed, perform_verbose]
          split <;> omega

/-- An instruction that fails leaves alone a sink that takes whatever it is given. -/
theorem Stops.sink_eq {c d : Configuration} {outcome : Except Error Unit}
    (h : Stops c outcome d) (hsink : c.sink.Ample) : d.sink = c.sink := by
  cases h with
  | halted h =>
      cases takes_of_step h
      rfl
  | failed h =>
      cases takes_of_step h with
      | fail _ hfails => exact (hfails.echo hsink c.machine.verbose c.machine.buffer c.sink).2

/-- What is collected is handed over at once, and then the sink is flushed. -/
theorem deliver_snd {sink : Sink} (hsink : sink.Ample) (collected : Array UInt8) :
    (deliver sink collected).2 = (sink.writeAll collected.toList).2.flush.2 := by
  obtain ⟨left, hwrite, -⟩ := hsink.exists_writeAll collected.toList
  rw [deliver, hwrite]

/-- The calls that a run makes to a sink that takes whatever it is given. Between two bytes of a run
the sink has not been flushed, and a machine that is not verbose has handed over each byte put out,
one that is verbose none. When the run ends, what was collected is handed over and then the sink is
flushed, once, whether or not the run came to the end of the program. So the calls are one for each
byte put out, or for each part that the sink can take at once, after those that are interrupted. -/
theorem calls_are_counted {program : Program} {bound : Nat} {verbose : Bool} {machine : Machine}
    (hrested : Rested program bound verbose machine) (source : Source) {sink : Sink}
    (hsink : sink.Ample) :
    (∀ n entries c, Path n ⟨machine, source, sink⟩ entries c →
      c.sink.flushes = sink.flushes ∧
      c.sink.writes = sink.writes + sink.calls (if verbose then 0 else outputs entries)) ∧
    ∀ fuel result, machine.run fuel source sink = some result →
      ∃ n entries c left, Path n ⟨machine, source, sink⟩ entries c ∧
        reports entries = reports result.trace.toList ∧
        left = (c.sink.writeAll c.machine.buffer.toList).2 ∧ result.sink = left.flush.2 ∧
        left.flushes = sink.flushes ∧ result.sink.flushes = sink.flushes + 1 ∧
        result.sink.writes = left.writes ∧
        left.writes = sink.writes + sink.calls (if verbose
          then sink.parts (outputs result.trace.toList) else outputs result.trace.toList) ∧
        (verbose = true → sink.interrupts = 0 → 0 < outputs result.trace.toList →
          (∀ chunk ∈ sink.chunk, outputs result.trace.toList ≤ chunk) →
          result.sink.writes = sink.writes + 1) := by
  have hmode := ((invariant_consistent program bound verbose).rested hrested).verbose_eq
  have hpaths {n : Nat} {entries : List Entry} {c : Configuration}
      (hpath : Path n ⟨machine, source, sink⟩ entries c) :
      sink.HandsOver (if verbose then 0 else outputs entries) c.sink := by
    simpa only [streamed, hmode] using hpath.handsOver hsink
  refine ⟨fun n entries c hpath => ⟨(hpaths hpath).flushes_eq, (hpaths hpath).writes_eq⟩,
    fun fuel result hrun => ?_⟩
  obtain ⟨n, entries, c, outcome, d, -, hpath, hstops, rfl⟩ := run_eq_some_iff.mp hrun
  have hcalls := hpaths hpath
  have hample := hcalls.ample hsink
  have hrest := hample.handsOver c.machine.buffer.toList
  have hall : sink.HandsOver
      (if verbose then sink.parts (outputs entries) else outputs entries)
      (c.sink.writeAll c.machine.buffer.toList).2 := by
    have hbuffer := (hpath.taken_eq hrested.buffer_eq).2
    have hparts (count : Nat) : c.sink.parts count = sink.parts count := by
      rw [Sink.parts, hcalls.chunk_eq, Sink.parts]
    have hboth := hcalls.trans hrest
    rw [hparts] at hboth
    convert hboth using 1
    rw [hbuffer, hmode]
    cases verbose <;> simp
  have hend : (conclude outcome d entries.toArray).sink =
      (c.sink.writeAll c.machine.buffer.toList).2.flush.2 := by
    rw [conclude_sink, hstops.machine_eq, hstops.sink_eq hample, deliver_snd hample]
  have houtputs : outputs (conclude outcome d entries.toArray).trace.toList = outputs entries := by
    rw [outputs, reports_conclude, outputs]
  rw [houtputs]
  refine ⟨n, entries, c, _, hpath, (reports_conclude outcome d entries.toArray).symm, rfl, hend,
    hall.flushes_eq, ?_, ?_, hall.writes_eq, fun hverbose hnone hsome hfits => ?_⟩
  · rw [hend, Sink.flush_flushes, hall.flushes_eq]
  · rw [hend, Sink.flush_writes]
  · rw [hend, Sink.flush_writes, hall.writes_eq, if_pos hverbose, Sink.parts_of_le hsome hfits,
      Sink.calls, if_neg one_ne_zero, hnone]

/-- In `...,` the read fails after three bytes were put out, to a sink that takes two with each call
after one interruption. They take three calls if they were collected and four if not. -/
theorem calls_are_counted_at_failed_read :
    ∃ (program : Program) (collected streamed : Run) (fuel : Nat),
      program.text = [0x2e, 0x2e, 0x2e, 0x2c] ∧
      Rested program 1 true (start program 1 true) ∧
      Rested program 1 false (start program 1 false) ∧
      Sink.Ample { chunk := some 2, interrupts := 1 } ∧
      (start program 1 true).run 4 [.failure "gone"] { chunk := some 2, interrupts := 1 } =
        some collected ∧
      (start program 1 false).run fuel [.failure "gone"] { chunk := some 2, interrupts := 1 } =
        some streamed ∧
      collected.result = .error (.io "gone") ∧ streamed.result = .error (.io "gone") ∧
      collected.sink.writes = 3 ∧ collected.sink.flushes = 1 ∧
      streamed.sink.writes = 4 ∧ streamed.sink.flushes = 1 := by
  let program : Program := ⟨#[0x2e, 0x2e, 0x2e, 0x2c], by decide⟩
  have hsink : Sink.Ample { chunk := some 2, interrupts := 1 } := ⟨rfl, by simp⟩
  obtain ⟨c, trace, hcollected, htrace⟩ : ∃ c trace,
      (start program 1 true).run 4 [.failure "gone"] { chunk := some 2, interrupts := 1 } =
        some (conclude (.error (.io "gone")) c trace) ∧ outputs trace.toList = 3 :=
    ⟨_, _, rfl, rfl⟩
  have houtputs : outputs (conclude (.error (.io "gone")) c trace).trace.toList = 3 := by
    rw [outputs, reports_conclude, ← htrace, outputs]
  obtain ⟨fuel, streamed, hstreamed, hresult, -, hreports⟩ :=
    exists_run_of_mode hsink hcollected false
  obtain ⟨-, hcalls⟩ := calls_are_counted .start [.failure "gone"] hsink
  obtain ⟨-, -, -, left, -, -, -, -, -, hflushes, hwrites, hleft, -⟩ := hcalls 4 _ hcollected
  obtain ⟨-, hcalls'⟩ := calls_are_counted .start [.failure "gone"] hsink
  obtain ⟨-, -, -, left', -, -, -, -, -, hflushes', hwrites', hleft', -⟩ :=
    hcalls' fuel _ hstreamed
  rw [outputs, hreports, ← outputs, houtputs] at hleft'
  rw [houtputs] at hleft
  exact ⟨program, _, streamed, fuel, rfl, .start, .start, hsink, hcollected, hstreamed, rfl,
    hresult, hwrites.trans hleft, hflushes, hwrites'.trans hleft', hflushes'⟩

end Machine

end ByteTape
