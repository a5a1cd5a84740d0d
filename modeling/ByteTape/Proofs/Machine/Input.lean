import ByteTape.Proofs.Machine.Output
import ByteTape.Proofs.Source
import ByteTape.Proofs.Tape

/-!
# Input

A machine takes from its source what its `,` ask for and nothing else. Each `,` that is carried out
takes one item, so after `k` of them the source is short of its first `k` items; and only these can
have made a difference, so any source that begins with the same `k` items leads to the same place
(`Path.exists_source`). What comes after them in the source has not been looked at.

A source that is nothing but bytes never fails a read. Once the bytes are used up, a `,` still asks
for one, finds none, and leaves the tape as it is.
-/

namespace ByteTape

namespace Machine

/-- The reports of `,` among some entries. -/
def inputs (entries : List Entry) : List Report :=
  (reports entries).filter (·.instruction = .input)

@[simp] theorem inputs_nil : inputs [] = [] := rfl

theorem inputs_append (front back : List Entry) :
    inputs (front ++ back) = inputs front ++ inputs back := by
  simp [inputs, reports_append]

theorem inputs_account (machine : Machine) (instruction : Instruction) (action : Action) :
    inputs (machine.account instruction action) =
      if instruction = .input then [(machine.perform action).1.report .input machine.cursor]
      else [] := by
  rw [inputs, reports_account]
  split
  · rename_i h
    simp [report, h]
  · rename_i h
    simp [report, h]

theorem inputs_conclude (outcome : Except Error Unit) (c : Configuration) (trace : Array Entry) :
    inputs (conclude outcome c trace).trace.toList = inputs trace.toList := by
  rw [inputs, inputs, reports_conclude]

/-- An instruction is settled alike with any source that begins with what it takes. -/
theorem Settles.exists_source {machine : Machine} {source rest : Source} {sink left : Sink}
    {instruction : Instruction} {action : Action}
    (h : Settles machine source sink instruction action rest left) {source' : Source}
    (hsource : source'.items.take (inputs (machine.account instruction action)).length =
      source.items.take (inputs (machine.account instruction action)).length) :
    ∃ rest', Settles machine source' sink instruction action rest' left ∧
      rest'.items = source'.items.drop (inputs (machine.account instruction action)).length := by
  rw [inputs_account] at hsource ⊢
  cases h with
  | moveRight => exact ⟨source', .moveRight, rfl⟩
  | moveLeft => exact ⟨source', .moveLeft, rfl⟩
  | increment => exact ⟨source', .increment, rfl⟩
  | decrement => exact ⟨source', .decrement, rfl⟩
  | collect hverbose => exact ⟨source', .collect hverbose, rfl⟩
  | write hverbose h => exact ⟨source', .write hverbose h, rfl⟩
  | read hnext =>
      have hread := (Source.next_congr hsource).trans (congrArg Prod.fst hnext)
      exact ⟨source'.next.2, .read (Prod.ext hread rfl),
        (Source.next_items source').2.trans List.drop_one.symm⟩
  | exhausted hnext =>
      have hread := (Source.next_congr hsource).trans (congrArg Prod.fst hnext)
      exact ⟨source'.next.2, .exhausted (Prod.ext hread rfl),
        (Source.next_items source').2.trans List.drop_one.symm⟩
  | enter h => exact ⟨source', .enter h, rfl⟩
  | skip hzero h => exact ⟨source', .skip hzero h, rfl⟩
  | leave h => exact ⟨source', .leave h, rfl⟩
  | again hnonzero h => exact ⟨source', .again hnonzero h, rfl⟩

theorem exists_step_source {c d : Configuration} {entries : List Entry}
    (hstep : step c = .advanced d entries) {source : Source}
    (hsource : source.items.take (inputs entries).length =
      c.source.items.take (inputs entries).length) :
    ∃ rest, step { c with source } = .advanced { d with source := rest } entries ∧
      rest.items = source.items.drop (inputs entries).length := by
  cases takes_of_step hstep with
  | comment hbyte hcomment => exact ⟨source, step_of_comment hbyte hcomment, rfl⟩
  | perform hbyte hsettles =>
      obtain ⟨rest, hsettles', hrest⟩ := hsettles.exists_source hsource
      exact ⟨rest, step_of_settles hbyte hsettles', hrest⟩

/-- Taking a byte takes one item from the source for each `,` that is carried out. -/
theorem items_of_step {c d : Configuration} {entries : List Entry}
    (hstep : step c = .advanced d entries) :
    d.source.items = c.source.items.drop (inputs entries).length := by
  obtain ⟨rest, hstep', hrest⟩ := exists_step_source hstep rfl
  have hsame := (Step.advanced.inj (hstep.symm.trans hstep')).1
  rw [← hrest, hsame]

/-- A path leads to the same place from any source that begins with the items it takes, and leaves
the others. -/
theorem Path.exists_source {n : Nat} {c d : Configuration} {entries : List Entry}
    (h : Path n c entries d) {source : Source}
    (hsource : source.items.take (inputs entries).length =
      c.source.items.take (inputs entries).length) :
    ∃ rest, Path n { c with source } entries { d with source := rest } ∧
      rest.items = source.items.drop (inputs entries).length := by
  induction h generalizing source with
  | nil c => exact ⟨source, .nil _, rfl⟩
  | @cons _ c d _ entries rest hstep _ ih =>
      rw [inputs_append, List.length_append] at hsource ⊢
      -- The rest of the path takes what stands behind the items of the first byte.
      have hfirst : source.items.take (inputs entries).length =
          c.source.items.take (inputs entries).length := by
        simpa [List.take_take] using congrArg (List.take (inputs entries).length) hsource
      have hothers : (source.items.drop (inputs entries).length).take (inputs rest).length =
          (c.source.items.drop (inputs entries).length).take (inputs rest).length := by
        simpa [List.drop_take] using congrArg (List.drop (inputs entries).length) hsource
      obtain ⟨middle, hstep', hmiddle⟩ := exists_step_source hstep hfirst
      rw [← hmiddle, ← items_of_step hstep] at hothers
      obtain ⟨left, hrest, hleft⟩ := ih hothers
      exact ⟨left, .cons hstep' hrest, by rw [hleft, hmiddle, List.drop_drop]⟩

theorem Path.items_eq {n : Nat} {c d : Configuration} {entries : List Entry}
    (h : Path n c entries d) : d.source.items = c.source.items.drop (inputs entries).length := by
  obtain ⟨rest, hpath, hrest⟩ := h.exists_source rfl
  have hsame := (h.unique hpath).2
  rw [← hrest, hsame]

/-- What stops a machine whose source is nothing but bytes is not its source. -/
theorem Stops.with_source {c d : Configuration} {outcome : Except Error Unit}
    (h : Stops c outcome d) {bytes : List UInt8} (hbytes : c.source.items = bytes.map .byte)
    (source : Source) :
    d.source = c.source ∧ Stops { c with source } outcome { d with source } := by
  cases h with
  | halted hstep =>
      cases takes_of_step hstep with
      | halt hsize => exact ⟨rfl, .halted (step_of_size_le hsize)⟩
  | failed hstep =>
      cases takes_of_step hstep with
      | fail hbyte hfails =>
          cases hfails with
          | refused hverbose hwrite =>
              exact ⟨rfl, .failed (step_of_fails hbyte (.refused hverbose hwrite))⟩
          | unread hnext => exact absurd hnext ((Source.unfailing_of_bytes hbytes).next_ne_failed _)
          | unclosed hzero hpartner =>
              exact ⟨rfl, .failed (step_of_fails hbyte (.unclosed hzero hpartner))⟩
          | unopened hnonzero hpartner =>
              exact ⟨rfl, .failed (step_of_fails hbyte (.unopened hnonzero hpartner))⟩

theorem conclude_with_source (outcome : Except Error Unit) (c : Configuration)
    (trace : Array Entry) (source : Source) :
    conclude outcome { c with source } trace = { conclude outcome c trace with source } := by
  obtain ⟨machine, _, sink⟩ := c
  simp only [conclude]
  split <;> rfl

/-- A run on bytes is the same with any source that begins with the items it takes. -/
theorem exists_run_source {machine : Machine} {fuel : Nat} {source : Source} {sink : Sink}
    {result : Run} (hrun : machine.run fuel source sink = some result) {bytes : List UInt8}
    (hbytes : source.items = bytes.map .byte) {source' : Source}
    (hsource : source'.items.take (inputs result.trace.toList).length =
      source.items.take (inputs result.trace.toList).length) :
    ∃ rest, machine.run fuel source' sink = some { result with source := rest } ∧
      rest.items = source'.items.drop (inputs result.trace.toList).length := by
  obtain ⟨n, entries, e, outcome, d, hlt, hpath, hstops, rfl⟩ := run_eq_some_iff.mp hrun
  rw [inputs_conclude] at hsource ⊢
  obtain ⟨rest, hpath', hrest⟩ := hpath.exists_source hsource
  have hleft : e.source.items = (bytes.drop (inputs entries).length).map .byte := by
    rw [hpath.items_eq, hbytes, List.map_drop]
  have hstops' := (hstops.with_source hleft rest).2
  exact ⟨rest, run_eq_some_iff.mpr ⟨n, entries, _, outcome, _, hlt, hpath', hstops',
    (conclude_with_source outcome d entries.toArray rest).symm⟩, hrest⟩

/-- What a `,` makes of what the source has left: the first byte of it goes into the current cell,
and if there is none the tape stays as it is. -/
theorem cell_of_input {c d : Configuration} {entries : List Entry} {bytes : List UInt8}
    (hstep : step c = .advanced d entries) (hbytes : c.source.items = bytes.map .byte)
    {report : Report} (hreport : report ∈ inputs entries) :
    report.cell = bytes.head?.getD c.machine.tape.current ∧
      (bytes = [] → d.machine.tape = c.machine.tape) := by
  have hread := (Source.next_items c.source).1
  rw [hbytes] at hread
  cases takes_of_step hstep with
  | comment => cases hreport
  | perform _ hsettles =>
      rw [inputs_account, perform_fst] at hreport
      cases hsettles with
      | read hnext =>
          rw [hnext] at hread
          cases bytes with
          | nil => cases hread
          | cons byte bytes =>
              cases hread
              obtain rfl := List.mem_singleton.mp hreport
              exact ⟨Tape.write_current _ _, fun hnil => nomatch hnil⟩
      | exhausted hnext =>
          rw [hnext] at hread
          cases bytes with
          | nil =>
              obtain rfl := List.mem_singleton.mp hreport
              exact ⟨rfl, fun _ => by rw [perform_fst]; rfl⟩
          | cons byte bytes => cases hread
      | _ => cases hreport

/-- At most one `,` is carried out with each byte taken. -/
theorem inputs_of_step {c d : Configuration} {entries : List Entry}
    (hstep : step c = .advanced d entries) :
    inputs entries = [] ∨ ∃ report, inputs entries = [report] := by
  cases takes_of_step hstep with
  | comment => exact .inl rfl
  | perform =>
      rw [inputs_account]
      split
      · exact .inr ⟨_, rfl⟩
      · exact .inl rfl

theorem cells_of_step {c d : Configuration} {entries : List Entry} {bytes : List UInt8}
    (hstep : step c = .advanced d entries) (hbytes : c.source.items = bytes.map .byte) :
    ((inputs entries).map (·.cell)).take bytes.length = bytes.take (inputs entries).length := by
  rcases inputs_of_step hstep with hnone | ⟨report, hreport⟩
  · simp [hnone]
  · have hcell := (cell_of_input hstep hbytes (hreport ▸ List.mem_singleton_self report)).1
    cases bytes with
    | nil => simp
    | cons byte bytes =>
        rw [List.head?_cons, Option.getD_some] at hcell
        simp [hreport, hcell]

/-- As long as there are bytes, the cells that are reported for `,` are these bytes. -/
theorem Path.cells_eq {n : Nat} {c d : Configuration} {entries : List Entry} {bytes : List UInt8}
    (h : Path n c entries d) (hbytes : c.source.items = bytes.map .byte) :
    ((inputs entries).map (·.cell)).take bytes.length = bytes.take (inputs entries).length := by
  induction h generalizing bytes with
  | nil c => simp
  | @cons _ c d _ entries rest hstep _ ih =>
      have hleft : d.source.items = (bytes.drop (inputs entries).length).map .byte := by
        rw [items_of_step hstep, hbytes, List.map_drop]
      have hothers := ih hleft
      rw [List.length_drop] at hothers
      rw [inputs_append, List.map_append, List.take_append, List.length_map,
        cells_of_step hstep hbytes, hothers, List.length_append, List.take_add]

/-- A machine never reads ahead. Let a run on a source of bytes end, well or not, after `k` reads
that were carried out. Then the first `k` bytes have been taken, or all if there are no more, and
the others are still in the source. The reads found these bytes one after the other, and those that
found none left the tape as it was. And the bytes that were not taken have had no influence: on any
bytes with the same first `k`, divided into events in any way, the run is the same but for the rest
of the source. -/
theorem never_reads_ahead {machine : Machine} {fuel : Nat} {source : Source} {sink : Sink}
    {bytes : List UInt8} (hsource : source.items = bytes.map .byte) {result : Run}
    (hrun : machine.run fuel source sink = some result) {k : Nat}
    (hk : (inputs result.trace.toList).length = k) :
    result.source.items = (bytes.drop k).map .byte ∧
    ((inputs result.trace.toList).map (·.cell)).take bytes.length = bytes.take k ∧
    (∀ n entries c d more, Path n ⟨machine, source, sink⟩ entries c →
      step c = .advanced d more → ∀ report ∈ inputs more,
        report.cell = bytes[(inputs entries).length]?.getD c.machine.tape.current ∧
        (bytes.length ≤ (inputs entries).length → d.machine.tape = c.machine.tape)) ∧
    ∀ (source' : Source) (bytes' : List UInt8), source'.items = bytes'.map .byte →
      bytes'.take k = bytes.take k →
      ∃ rest : Source, rest.items = (bytes'.drop k).map .byte ∧
        machine.run fuel source' sink = some { result with source := rest } := by
  subst hk
  refine ⟨?_, ?_, fun n entries c d more hpath hstep report hreport => ?_,
    fun source' bytes' hsource' htake => ?_⟩
  · obtain ⟨rest, hrun', hrest⟩ := exists_run_source hrun hsource rfl
    have hsame := Option.some.inj (hrun.symm.trans hrun')
    rw [hsame, hrest, hsource, List.map_drop]
  · obtain ⟨n, entries, e, outcome, d, -, hpath, -, rfl⟩ := run_eq_some_iff.mp hrun
    rw [inputs_conclude]
    exact hpath.cells_eq hsource
  · have hleft : c.source.items = (bytes.drop (inputs entries).length).map .byte := by
      rw [hpath.items_eq, hsource, List.map_drop]
    obtain ⟨hcell, htape⟩ := cell_of_input hstep hleft hreport
    rw [List.head?_drop] at hcell
    exact ⟨hcell, fun hle => htape (List.drop_eq_nil_of_le hle)⟩
  · have hitems : source'.items.take (inputs result.trace.toList).length =
        source.items.take (inputs result.trace.toList).length := by
      rw [hsource', hsource, ← List.map_take, ← List.map_take, htake]
    obtain ⟨rest, hrun', hrest⟩ := exists_run_source hrun hsource hitems
    exact ⟨rest, by rw [hrest, hsource', List.map_drop], hrun'⟩

/-- The first byte that `,[-],` reads says how often its loop goes round before the second is read.
It makes the same run on 2, 7 and 9 as on 2, 7, 1 and 1, which come in other pieces. -/
theorem never_reads_ahead_past_loop :
    ∃ (program : Program) (result : Run) (rest : Source),
      program.text = [0x2c, 0x5b, 0x2d, 0x5d, 0x2c] ∧
      (start program 1 true).run 8 [.interrupt, .data [2], .data [7, 9]] {} = some result ∧
      result.source.items = [.byte 9] ∧
      ((inputs result.trace.toList).map (·.cell)).take 3 = [2, 7] ∧
      rest.items = [.byte 1, .byte 1] ∧
      (start program 1 true).run 8 [.data [2, 7, 1, 1]] {} =
        some { result with source := rest } := by
  obtain ⟨program, htext, c, trace, hrun, hcount⟩ : ∃ program : Program,
      program.text = [0x2c, 0x5b, 0x2d, 0x5d, 0x2c] ∧ ∃ c trace,
        (start program 1 true).run 8 [.interrupt, .data [2], .data [7, 9]] {} =
          some (conclude (.ok ()) c trace) ∧ (inputs trace.toList).length = 2 :=
    ⟨⟨#[0x2c, 0x5b, 0x2d, 0x5d, 0x2c], by decide⟩, rfl, _, _, rfl, rfl⟩
  rw [← inputs_conclude (.ok ()) c] at hcount
  have hbytes : Source.items [.interrupt, .data [2], .data [7, 9]] = [2, 7, 9].map .byte := rfl
  obtain ⟨hleft, hcells, -, hothers⟩ := never_reads_ahead hbytes hrun hcount
  obtain ⟨rest, hrest, hrun'⟩ := hothers [.data [2, 7, 1, 1]] [2, 7, 1, 1] rfl rfl
  exact ⟨program, _, rest, htext, hrun, hleft, hcells, hrest, hrun'⟩

end Machine

end ByteTape
