import ByteTape.Proofs.Machine.Input
import ByteTape.Proofs.Machine.Resume

/-!
# Halting

The instructions of a program fail because of the source or because of the sink, and for no other
reason. So a machine whose source and sink never fail stops only at the end of its program, and a
run of it that ends halts.
-/

namespace ByteTape

namespace Machine

theorem Path.source_unfailing {n : Nat} {c d : Configuration} {entries : List Entry}
    (h : Path n c entries d) (hsource : c.source.Unfailing) : d.source.Unfailing := by
  intro cause hmem
  rw [h.items_eq] at hmem
  exact hsource cause (List.mem_of_mem_drop hmem)

/-- Where neither the source nor the sink fails, there is nothing to stop a machine but the end of
its program. -/
theorem Stops.outcome_eq_ok {c d : Configuration} {outcome : Except Error Unit}
    (h : Stops c outcome d) (hsource : c.source.Unfailing) (hsink : c.sink.Unfailing) :
    outcome = .ok () := by
  cases h with
  | halted => rfl
  | failed hstep =>
      cases takes_of_step hstep with
      | fail hbyte hfails =>
          obtain ⟨cause, hcause⟩ := hfails.exists_io hbyte
          cases hfails with
          | refused _ hwrite =>
              have htaken := hsink.writeAll_fst [c.machine.tape.current]
              rw [hwrite] at htaken
              cases htaken
          | unread hnext => exact absurd hnext (hsource.next_ne_failed _)
          | unclosed => cases hcause
          | unopened => cases hcause

/-- A run that ends halts if neither its source nor its sink fails. -/
theorem exists_halted_of_unfailing {fuel : Nat} {machine : Machine} {source : Source} {sink : Sink}
    {result : Run} (hrun : machine.run fuel source sink = some result)
    (hsource : source.Unfailing) (hsink : sink.Unfailing) :
    ∃ halted, result.result = .ok halted := by
  obtain ⟨n, entries, e, outcome, d, -, hpath, hstops, rfl⟩ := run_eq_some_iff.mp hrun
  obtain rfl := hstops.outcome_eq_ok (hpath.source_unfailing hsource) (hpath.unfailing hsink)
  obtain ⟨left, hconclude⟩ :=
    exists_conclude_eq (hstops.unfailing (hpath.unfailing hsink)) (.ok ()) entries.toArray
  exact ⟨_, by rw [hconclude]; rfl⟩

end Machine

end ByteTape
