import ByteTape.Proofs.Machine.Depth
import ByteTape.Proofs.Machine.Output

/-!
# Delivery

What the sink has is what the reports of this run show, byte for byte and in order. A machine that
is not verbose is at no time ahead or behind with it. A verbose one hands over nothing until the run
ends, and then everything that the sink has room for, whether or not an instruction failed.

Nothing else reaches the sink. In particular a run begins with nothing collected, even if the run
before it could not get rid of what it had collected: that is lost, and does not come up again.
-/

namespace ByteTape

namespace Machine

/-- No output is lost, made twice or put in another order. A run brings along nothing that was
collected before it. After any number of bytes, and so whenever a report is made, the sink of a
machine that is not verbose has taken just the output reported in this run, and the sink of a
verbose machine has taken nothing. When the run ends, well or not, the one has still taken just that
output, and the other as much of it as fits. -/
theorem taken_eq_printed {program : Program} {bound : Nat} {verbose : Bool} {machine : Machine}
    (hrested : Rested program bound verbose machine) (source : Source) {sink : Sink}
    (hchunk : sink.chunk ≠ some 0) :
    machine.buffer = #[] ∧
    (∀ n entries c, Path n ⟨machine, source, sink⟩ entries c →
      c.sink.taken.toList = sink.taken.toList ++ if verbose then [] else printed entries) ∧
    ∀ fuel result, machine.run fuel source sink = some result →
      result.sink.taken.toList = sink.taken.toList ++
        if verbose then sink.fitting (printed result.trace.toList)
        else printed result.trace.toList := by
  have hbuffer := hrested.buffer_eq
  have hverbose := ((invariant_consistent program bound verbose).rested hrested).verbose_eq
  refine ⟨hbuffer, fun n entries c hpath => ?_, fun fuel result hrun => ?_⟩
  · rw [← hverbose]
    exact (hpath.taken_eq hbuffer).1
  · obtain ⟨n, entries, e, outcome, d, -, hpath, hstops, rfl⟩ := run_eq_some_iff.mp hrun
    rw [hpath.taken_conclude hbuffer hstops, printed_conclude, hverbose,
      Sink.taken_writeAll hchunk]
    split <;> rfl

/-- A run of `+.,.` collects a byte, fails to read, and then has a sink that takes nothing. The next
run puts out what it reads, and the byte from before is gone. -/
theorem taken_eq_printed_after_lost_output :
    ∃ (program : Program) (first second : Run), program.text = [0x2b, 0x2e, 0x2c, 0x2e] ∧
      (start program 1 true).run 3 [.failure "gone"] { limit := some 0 } = some first ∧
      printed first.trace.toList = [1] ∧ first.sink.taken.toList = [] ∧
      first.machine.run 3 [.data [7]] { limit := some 1, chunk := some 1, interrupts := 2 } =
        some second ∧
      second.sink.taken.toList = [7] := by
  let program : Program := ⟨#[0x2b, 0x2e, 0x2c, 0x2e], by decide⟩
  obtain ⟨first, hfirst, hcollected, c, trace, hsecond, hshown⟩ : ∃ first,
      (start program 1 true).run 3 [.failure "gone"] { limit := some 0 } = some first ∧
      printed first.trace.toList = [1] ∧ ∃ c trace,
        first.machine.run 3 [.data [7]] { limit := some 1, chunk := some 1, interrupts := 2 } =
          some (conclude (.ok ()) c trace) ∧ printed trace.toList = [7] :=
    ⟨_, rfl, rfl, _, _, rfl, rfl⟩
  have hlost := (taken_eq_printed .start _ (by simp)).2.2 3 _ hfirst
  have htaken := (taken_eq_printed (.run .start hfirst) _ (by simp)).2.2 3 _ hsecond
  rw [printed_conclude, hshown] at htaken
  exact ⟨program, first, _, rfl, hfirst, hcollected, hlost, hsecond, htaken⟩

end Machine

end ByteTape
