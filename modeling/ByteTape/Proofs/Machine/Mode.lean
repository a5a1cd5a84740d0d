import ByteTape.Proofs.Machine.Output
import ByteTape.Proofs.Machine.Simulation

/-!
# Verbose or not

A verbose machine collects its output and hands it over when the run ends; one that is not hands
over every byte as it comes. With a sink that takes whatever it is given, that is all the
difference: the two make the same run, except that the verbose one also tells of single operations.

`Echoes` relates two configurations that differ in mode, in what is collected and in the sink. What
is settled or fails in one of them is settled or fails in the other, so it is a simulation in both
directions. That the output is the same follows from the reports being the same.
-/

namespace ByteTape

namespace Machine

/-- The events of one level among some entries. -/
def logged (level : Level) (entries : List Entry) : List Event :=
  (events entries).filter (·.level = level)

theorem logged_append (level : Level) (front back : List Entry) :
    logged level (front ++ back) = logged level front ++ logged level back := by
  simp only [logged, events_append, List.filter_append]

theorem logged_account (level : Level) (machine : Machine) (instruction : Instruction)
    (action : Action) :
    logged level (machine.account instruction action) =
      ((machine.perform action).2.filter (Event.isTold machine.verbose)).filter
        (·.level = level) := by
  rw [logged, events_account]

/-- Every machine tells of what is more than a single operation. -/
theorem logged_debug_account (machine : Machine) (instruction : Instruction) (action : Action) :
    logged .debug (machine.account instruction action) =
      (machine.perform action).2.filter (·.level = .debug) := by
  rw [logged_account, List.filter_filter]
  apply List.filter_congr
  intro event _
  cases hlevel : event.level <;> simp [Event.isTold, hlevel]

theorem logged_trace_account {machine : Machine} (hverbose : machine.verbose = false)
    (instruction : Instruction) (action : Action) :
    logged .trace (machine.account instruction action) = [] := by
  rw [logged_account, List.filter_filter, List.filter_eq_nil_iff]
  intro event _
  simp [Event.isTold, hverbose]

theorem Path.logged_trace {n : Nat} {c d : Configuration} {entries : List Entry}
    (h : Path n c entries d) (hverbose : c.machine.verbose = false) :
    logged .trace entries = [] := by
  induction h with
  | nil c => rfl
  | cons hstep _ ih =>
      cases takes_of_step hstep with
      | comment => exact ih hverbose
      | perform _ _ =>
          rw [logged_append, logged_trace_account hverbose,
            ih ((perform_verbose _ _).trans hverbose), List.append_nil]

theorem logged_trace_farewell (machine : Machine) (outcome : Except Error Unit) :
    logged .trace (machine.farewell outcome) = [] := by
  cases outcome <;> rfl

/-- A `.` is settled in either mode if the sink takes whatever it is given. -/
theorem exists_settles_output (machine : Machine) (source : Source) {sink : Sink}
    (hsink : sink.Ample) :
    ∃ left, Settles machine source sink .output .emit source left ∧ left.Ample ∧
      left.flushFails = sink.flushFails := by
  cases hverbose : machine.verbose with
  | true => exact ⟨sink, .collect hverbose, hsink, rfl⟩
  | false =>
      obtain ⟨left, hwrite, hleft, hflush⟩ := hsink.exists_writeAll [machine.tape.current]
      exact ⟨left, .write hverbose hwrite, hleft, hflush⟩

/-- An instruction that is settled is settled alike in either mode and with any sink that takes
whatever it is given. -/
theorem Settles.echo {machine : Machine} {source rest : Source} {sink left : Sink}
    {instruction : Instruction} {action : Action}
    (h : Settles machine source sink instruction action rest left) (verbose : Bool)
    (buffer : Array UInt8) {sink' : Sink} (hsink : sink'.Ample) :
    ∃ left', Settles { machine with verbose, buffer } source sink' instruction action rest left' ∧
      left'.Ample ∧ left'.flushFails = sink'.flushFails := by
  cases h with
  | moveRight => exact ⟨sink', .moveRight, hsink, rfl⟩
  | moveLeft => exact ⟨sink', .moveLeft, hsink, rfl⟩
  | increment => exact ⟨sink', .increment, hsink, rfl⟩
  | decrement => exact ⟨sink', .decrement, hsink, rfl⟩
  | collect _ => exact exists_settles_output _ source hsink
  | write _ _ => exact exists_settles_output _ source hsink
  | read h => exact ⟨sink', .read h, hsink, rfl⟩
  | exhausted h => exact ⟨sink', .exhausted h, hsink, rfl⟩
  | enter h => exact ⟨sink', .enter h, hsink, rfl⟩
  | skip hzero h =>
      refine ⟨sink', .skip ?_ ?_, hsink, rfl⟩
      · exact hzero
      · exact h
  | leave h => exact ⟨sink', .leave h, hsink, rfl⟩
  | again hnonzero h =>
      refine ⟨sink', .again ?_ ?_, hsink, rfl⟩
      · exact hnonzero
      · exact h

theorem Fails.echo {machine : Machine} {source rest : Source} {sink left : Sink}
    {instruction : Instruction} {error : Error}
    (h : Fails machine source sink instruction error rest left) (hsink : sink.Ample)
    (verbose : Bool) (buffer : Array UInt8) (sink' : Sink) :
    Fails { machine with verbose, buffer } source sink' instruction error rest sink' ∧
      left = sink := by
  cases h with
  | refused _ hrefused =>
      obtain ⟨left', hwrite, -⟩ := hsink.exists_writeAll [machine.tape.current]
      rw [hwrite] at hrefused
      cases hrefused
  | unread h => exact ⟨.unread h, rfl⟩
  | unclosed hzero h =>
      refine ⟨.unclosed ?_ ?_, rfl⟩
      · exact hzero
      · exact h
  | unopened hnonzero h =>
      refine ⟨.unopened ?_ ?_, rfl⟩
      · exact hnonzero
      · exact h

theorem Settles.ample {machine : Machine} {source rest : Source} {sink left : Sink}
    {instruction : Instruction} {action : Action}
    (h : Settles machine source sink instruction action rest left) (hsink : sink.Ample) :
    left.Ample ∧ left.flushFails = sink.flushFails := by
  cases h with
  | write _ hwrite =>
      obtain ⟨left', hwrite', hleft⟩ := hsink.exists_writeAll [machine.tape.current]
      rw [hwrite] at hwrite'
      cases hwrite'
      exact hleft
  | _ => exact ⟨hsink, rfl⟩

/-- A configuration and another that differs from it in mode, in what is collected and in the sink;
both sinks take whatever they are given and pass it on or not alike. -/
inductive Echoes (c : Configuration) : Configuration → Prop where
  | intro (verbose : Bool) (buffer : Array UInt8) (sink : Sink) (hc : c.sink.Ample)
      (hsink : sink.Ample) (hflush : sink.flushFails = c.sink.flushFails) :
      Echoes c ⟨{ c.machine with verbose, buffer }, c.source, sink⟩

/-- The same reports, and the same events but for those of single operations. -/
structure SameTold (entries entries' : List Entry) : Prop where
  reports_eq : reports entries = reports entries'
  debug_eq : logged .debug entries = logged .debug entries'

theorem sameTold_account (machine : Machine) (verbose : Bool) (buffer : Array UInt8)
    (instruction : Instruction) (action : Action) :
    SameTold (machine.account instruction action)
      (account { machine with verbose, buffer } instruction action) where
  reports_eq := by simp only [reports_account, perform_fst, report]
  debug_eq := by
    rw [logged_debug_account, logged_debug_account, perform_snd_with_mode machine verbose buffer]

theorem SameTold.append {entries entries' rest rest' : List Entry} (h : SameTold entries entries')
    (hrest : SameTold rest rest') : SameTold (entries ++ rest) (entries' ++ rest') where
  reports_eq := by rw [reports_append, reports_append, h.reports_eq, hrest.reports_eq]
  debug_eq := by rw [logged_append, logged_append, h.debug_eq, hrest.debug_eq]

theorem simulation_echoes : Simulation Echoes SameTold where
  nil := ⟨rfl, rfl⟩
  append := SameTold.append
  advance h hstep := by
    cases h with
    | intro verbose buffer sink hc hsink hflush =>
        cases takes_of_step hstep with
        | comment hbyte hcomment =>
            exact ⟨1, [], _, .single (step_of_comment hbyte hcomment),
              .intro verbose buffer sink hc hsink hflush, rfl, rfl⟩
        | perform hbyte hsettles =>
            obtain ⟨left, hsettles', hleft, hflush'⟩ := hsettles.echo verbose buffer hsink
            obtain ⟨hc', hflushc⟩ := hsettles.ample hc
            refine ⟨1, _, _, .single (step_of_settles (by exact hbyte) hsettles'), ?_,
              sameTold_account _ verbose buffer _ _⟩
            simp only [perform_fst]
            exact .intro verbose _ left hc' hleft (by rw [hflush', hflush, hflushc])
  stops h hstops := by
    cases h with
    | intro verbose buffer sink hc hsink hflush =>
        cases hstops with
        | halted hstep =>
            cases takes_of_step hstep with
            | halt hsize =>
                exact ⟨0, _, _, .nil _, .halted (step_of_size_le hsize),
                  .intro verbose buffer sink hc hsink hflush⟩
        | failed hstep =>
            cases takes_of_step hstep with
            | fail hbyte hfails =>
                obtain ⟨hfails', rfl⟩ := hfails.echo hc verbose buffer sink
                exact ⟨0, _, _, .nil _, .failed (step_of_fails (by exact hbyte) hfails'),
                  .intro verbose buffer sink hc hsink hflush⟩

/-- Runs that stop in configurations that echo each other come to the same. -/
theorem Echoes.conclude_eq {c d : Configuration} (h : Echoes c d) (outcome : Except Error Unit)
    {entries entries' : List Entry} (htold : SameTold entries entries') :
    (conclude outcome c entries.toArray).result = (conclude outcome d entries'.toArray).result ∧
      (conclude outcome c entries.toArray).machine =
        { (conclude outcome d entries'.toArray).machine with verbose := c.machine.verbose } ∧
      (conclude outcome c entries.toArray).source = (conclude outcome d entries'.toArray).source ∧
      SameTold (conclude outcome c entries.toArray).trace.toList
        (conclude outcome d entries'.toArray).trace.toList := by
  cases h with
  | intro verbose buffer sink hc hsink hflush =>
      obtain ⟨left, hfirst⟩ := exists_conclude_eq_flushed hc outcome entries.toArray
      obtain ⟨left', hsecond⟩ := exists_conclude_eq_flushed
        (c := ⟨{ c.machine with verbose, buffer }, c.source, sink⟩) hsink outcome entries'.toArray
      rw [hfirst, hsecond, hflush]
      refine ⟨rfl, rfl, rfl, ?_⟩
      simp only [Array.toList_appendList]
      exact htold.append ⟨rfl, rfl⟩

/-- What a run adds to a sink that takes whatever it is given is what its entries show. -/
theorem Ends.taken_conclude {machine : Machine} {source : Source} {sink : Sink}
    {entries : List Entry} {outcome : Except Error Unit} {d : Configuration}
    (h : Ends ⟨machine, source, sink⟩ entries outcome d) (hbuffer : machine.buffer = #[])
    (hsink : sink.Ample) (trace : Array Entry) :
    (conclude outcome d trace).sink.taken.toList = sink.taken.toList ++ printed entries := by
  obtain ⟨n, e, hpath, hstops⟩ := h
  refine taken_of_stops hbuffer hpath hstops (fun _ => ?_) trace
  obtain ⟨left, hwrite, -⟩ := hsink.exists_writeAll (printed entries)
  rw [hwrite]

/-- A run that ends in one mode ends in the other, with the same result, the same output and the
same reports. -/
theorem exists_run_of_mode {program : Program} {bound fuel : Nat} {mode : Bool} {source : Source}
    {sink : Sink} {result : Run} (hsink : sink.Ample)
    (hrun : (start program bound mode).run fuel source sink = some result) (verbose : Bool) :
    ∃ fuel' result', (start program bound verbose).run fuel' source sink = some result' ∧
      result'.result = result.result ∧ result'.sink.taken = result.sink.taken ∧
      reports result'.trace.toList = reports result.trace.toList := by
  have hecho : Echoes ⟨start program bound mode, source, sink⟩
      ⟨start program bound verbose, source, sink⟩ := .intro verbose #[] sink hsink hsink rfl
  obtain ⟨entries, outcome, c, hends, rfl⟩ := exists_ends_of_run hrun
  obtain ⟨entries', d, hends', hcd, htold⟩ := simulation_echoes.ends hecho hends
  obtain ⟨fuel', hrun'⟩ := exists_run_of_ends hends'
  refine ⟨fuel', _, hrun', (hcd.conclude_eq outcome htold).1.symm, ?_, ?_⟩
  · apply Array.toList_inj.mp
    rw [hends.taken_conclude rfl hsink, hends'.taken_conclude rfl hsink, printed, printed,
      htold.reports_eq]
  · rw [reports_conclude, reports_conclude]
    exact htold.reports_eq.symm

/-- A machine makes the same run whether it is verbose or not, with any sink that takes whatever it
is given: both runs never end, or both end, with the same result, the same machine but for its mode,
the same rest of the source, the same output, the same reports and the same events but for those of
single operations, of which only the verbose machine tells. -/
theorem collected_eq_streamed (program : Program) (bound : Nat) (source : Source) {sink : Sink}
    (hsink : sink.Ample) :
    ((∀ fuel, (start program bound true).run fuel source sink = none) ↔
      ∀ fuel, (start program bound false).run fuel source sink = none) ∧
    ∀ fuel fuel' collected streamed,
      (start program bound true).run fuel source sink = some collected →
      (start program bound false).run fuel' source sink = some streamed →
      collected.result = streamed.result ∧
        collected.machine = { streamed.machine with verbose := true } ∧
        collected.source = streamed.source ∧
        collected.sink.taken = streamed.sink.taken ∧
        reports collected.trace.toList = reports streamed.trace.toList ∧
        logged .debug collected.trace.toList = logged .debug streamed.trace.toList ∧
        logged .trace streamed.trace.toList = [] := by
  have hecho : Echoes ⟨start program bound true, source, sink⟩
      ⟨start program bound false, source, sink⟩ := .intro false #[] sink hsink hsink rfl
  have hecho' : Echoes ⟨start program bound false, source, sink⟩
      ⟨start program bound true, source, sink⟩ := .intro true #[] sink hsink hsink rfl
  obtain ⟨hendless, hruns⟩ := simulation_echoes.run simulation_echoes hecho hecho'
  refine ⟨hendless, fun fuel fuel' collected streamed hcollected hstreamed => ?_⟩
  obtain ⟨entries, entries', outcome, c, d, ⟨n, e, hpath, hstops⟩, ⟨n', e', hpath', hstops'⟩, hcd,
    htold, rfl, rfl⟩ := hruns fuel fuel' collected streamed hcollected hstreamed
  have htaken : (conclude outcome c entries.toArray).sink.taken =
      (conclude outcome d entries'.toArray).sink.taken := by
    have hwrites : (sink.writeAll (printed entries)).1 = .ok () := by
      obtain ⟨left, hwrite, -⟩ := hsink.exists_writeAll (printed entries)
      rw [hwrite]
    apply Array.toList_inj.mp
    rw [taken_of_stops rfl hpath hstops (fun _ => hwrites),
      taken_of_stops rfl hpath' hstops' (fun hverbose => nomatch hverbose), printed, printed,
      htold.reports_eq]
  have hverbose : c.machine.verbose = true := by
    rw [hstops.machine_eq, hpath.verbose_eq]
    rfl
  have htrace : logged .trace (conclude outcome d entries'.toArray).trace.toList = [] := by
    obtain ⟨outcome', htrace⟩ := exists_trace_conclude outcome d entries'.toArray
    rw [htrace, logged_append, hpath'.logged_trace rfl, logged_trace_farewell, List.append_nil]
  obtain ⟨hresult, hmachine, hsource, hsame⟩ := hcd.conclude_eq outcome htold
  rw [hverbose] at hmachine
  exact ⟨hresult, hmachine, hsource, htaken, hsame.reports_eq, hsame.debug_eq, htrace⟩

/-- In `,.,.` the second read fails, with one byte collected or already handed over, to a sink that
is interrupted and does not pass on what it takes. -/
theorem collected_eq_streamed_at_failed_read :
    ∃ (program : Program) (collected streamed : Run) (fuel : Nat),
      program.text = [0x2c, 0x2e, 0x2c, 0x2e] ∧
      Sink.Ample { chunk := some 1, interrupts := 2, flushFails := true } ∧
      (start program 1 true).run 3 [.data [65], .interrupt, .failure "gone"]
        { chunk := some 1, interrupts := 2, flushFails := true } = some collected ∧
      (start program 1 false).run fuel [.data [65], .interrupt, .failure "gone"]
        { chunk := some 1, interrupts := 2, flushFails := true } = some streamed ∧
      streamed.result = .error (.io "gone") ∧ streamed.machine.cursor = 2 ∧
      collected.sink.taken = streamed.sink.taken ∧
      (reports streamed.trace.toList).map (·.cell) = [65, 65] := by
  let program : Program := ⟨#[0x2c, 0x2e, 0x2c, 0x2e], by decide⟩
  have hsink : Sink.Ample { chunk := some 1, interrupts := 2, flushFails := true } :=
    ⟨rfl, by simp⟩
  have hcollected : (start program 1 true).run 3 [.data [65], .interrupt, .failure "gone"]
      { chunk := some 1, interrupts := 2, flushFails := true } = some _ := rfl
  obtain ⟨hendless, hsame⟩ := collected_eq_streamed program 1
    [.data [65], .interrupt, .failure "gone"] hsink
  obtain ⟨fuel, streamed, hstreamed⟩ := exists_run_of_endless_iff hendless hcollected
  obtain ⟨hresult, hmachine, -, htaken, hreports, -⟩ := hsame 3 fuel _ streamed hcollected hstreamed
  refine ⟨program, _, streamed, fuel, rfl, hsink, hcollected, hstreamed, hresult.symm, ?_, htaken,
    ?_⟩
  · exact (congrArg Machine.cursor hmachine).symm
  · rw [← hreports]
    rfl

end Machine

end ByteTape
