import ByteTape.Proofs.Machine.Path
import ByteTape.Proofs.Sink

/-!
# Output

The output of a run can be read off its reports: it is the cell that the report of each `.` shows.
A machine that is not verbose has handed all of it to the sink, one that is verbose has collected
it, and `Configuration.output` is the same for both. So what a run adds to the sink is what its
entries show, as long as the sink takes what was collected when the run ends.
-/

namespace ByteTape

/-- The output made so far: what the sink took, and then what is collected. -/
def Configuration.output (c : Configuration) : List UInt8 :=
  c.sink.taken.toList ++ c.machine.buffer.toList

namespace Machine

/-- The output that some entries show. -/
def printed (entries : List Entry) : List UInt8 :=
  ((reports entries).filter (·.instruction = .output)).map (·.cell)

@[simp] theorem printed_nil : printed [] = [] := rfl

theorem printed_append (front back : List Entry) :
    printed (front ++ back) = printed front ++ printed back := by
  simp [printed, reports_append]

theorem printed_account {machine : Machine} {source rest : Source} {sink left : Sink}
    {instruction : Instruction} {action : Action}
    (h : Settles machine source sink instruction action rest left) :
    printed (machine.account instruction action) = action.emitted machine.tape.current := by
  rw [printed, reports_account, perform_fst]
  cases h <;> simp [report]

theorem Settles.taken_eq {machine : Machine} {source rest : Source} {sink left : Sink}
    {instruction : Instruction} {action : Action}
    (h : Settles machine source sink instruction action rest left) :
    left.taken = if machine.verbose then sink.taken
      else sink.taken ++ action.emitted machine.tape.current := by
  cases h with
  | collect hverbose => simp [hverbose]
  | write hverbose hwrite => simp [hverbose, Sink.taken_of_writeAll_ok hwrite]
  | _ => simp

/-- A machine that is not verbose has nothing collected. -/
def Direct (machine : Machine) : Prop := machine.verbose = false → machine.buffer = #[]

/-- Taking a byte adds to the output what its entries show. -/
theorem Direct.advance {c d : Configuration} {entries : List Entry} (hc : c.machine.Direct)
    (hstep : step c = .advanced d entries) :
    d.machine.Direct ∧ d.output = c.output ++ printed entries := by
  cases takes_of_step hstep with
  | comment => exact ⟨hc, by simp [Configuration.output]⟩
  | perform _ hsettles =>
      rw [printed_account hsettles, perform_fst]
      simp only [Direct, Configuration.output, hsettles.taken_eq]
      cases hverbose : c.machine.verbose with
      | true => simp
      | false => simp [hc hverbose]

theorem Direct.path {n : Nat} {c d : Configuration} {entries : List Entry} (hc : c.machine.Direct)
    (h : Path n c entries d) : d.machine.Direct ∧ d.output = c.output ++ printed entries := by
  induction h with
  | nil c => exact ⟨hc, by simp⟩
  | cons hstep _ ih =>
      obtain ⟨hdirect, houtput⟩ := hc.advance hstep
      obtain ⟨hdirect', houtput'⟩ := ih hdirect
      exact ⟨hdirect', by rw [houtput', houtput, printed_append, List.append_assoc]⟩

theorem Stops.output_eq {c d : Configuration} {outcome : Except Error Unit}
    (h : Stops c outcome d) : d.output = c.output := by
  cases h with
  | halted h =>
      cases takes_of_step h
      rfl
  | failed h =>
      cases takes_of_step h with
      | fail _ hfails =>
          cases hfails with
          | refused _ hwrite => simp [Configuration.output, Sink.taken_of_writeAll_error hwrite]
          | _ => rfl

theorem Path.verbose_eq {n : Nat} {c d : Configuration} {entries : List Entry}
    (h : Path n c entries d) : d.machine.verbose = c.machine.verbose := by
  induction h with
  | nil c => rfl
  | @cons _ c _ _ _ _ hstep _ ih =>
      rw [ih]
      cases takes_of_step hstep with
      | comment => rfl
      | perform => exact perform_verbose _ _

theorem Path.sink_eq_of_verbose {n : Nat} {c d : Configuration} {entries : List Entry}
    (h : Path n c entries d) (hverbose : c.machine.verbose = true) : d.sink = c.sink := by
  induction h with
  | nil c => rfl
  | @cons _ c _ _ _ _ hstep _ ih =>
      cases takes_of_step hstep with
      | comment => exact ih hverbose
      | perform _ hsettles =>
          rw [ih (by rw [perform_verbose, hverbose])]
          cases hsettles with
          | write hnot => simp [hverbose] at hnot
          | _ => rfl

theorem Stops.sink_eq_of_verbose {c d : Configuration} {outcome : Except Error Unit}
    (h : Stops c outcome d) (hverbose : c.machine.verbose = true) : d.sink = c.sink := by
  cases h with
  | halted h =>
      cases takes_of_step h
      rfl
  | failed h =>
      cases takes_of_step h with
      | fail _ hfails =>
          cases hfails with
          | refused hnot => simp [hverbose] at hnot
          | _ => rfl

/-- However a run ends, what was collected is delivered. -/
theorem conclude_sink (outcome : Except Error Unit) (c : Configuration) (trace : Array Entry) :
    (conclude outcome c trace).sink = (deliver c.sink c.machine.buffer).2 := by
  obtain ⟨machine, source, sink⟩ := c
  simp only [conclude]
  split <;> rfl

/-- However a run ends, the sink is handed what was collected. -/
theorem conclude_taken (outcome : Except Error Unit) (c : Configuration) (trace : Array Entry) :
    (conclude outcome c trace).sink.taken =
      (c.sink.writeAll c.machine.buffer.toList).2.taken := by
  rw [conclude_sink, deliver]
  rcases hwrite : c.sink.writeAll c.machine.buffer.toList with ⟨_ | _, left⟩ <;> simp

/-- What the sink has during a run: what it had before, and then what the entries show, unless that
is being collected. -/
theorem Path.taken_eq {n : Nat} {machine : Machine} {source : Source} {sink : Sink}
    {entries : List Entry} {d : Configuration} (hbuffer : machine.buffer = #[])
    (hpath : Path n ⟨machine, source, sink⟩ entries d) :
    d.sink.taken.toList = sink.taken.toList ++ (if machine.verbose then [] else printed entries) ∧
      d.machine.buffer.toList = if machine.verbose then printed entries else [] := by
  have hdirect : machine.Direct := fun _ => hbuffer
  obtain ⟨hdirect', houtput⟩ := hdirect.path hpath
  have hmode := hpath.verbose_eq
  simp only [Configuration.output, hbuffer, List.append_nil] at houtput hmode
  cases hverbose : machine.verbose with
  | true =>
      have hsink : d.sink = sink := hpath.sink_eq_of_verbose hverbose
      rw [hsink] at houtput ⊢
      simpa using List.append_cancel_left houtput
  | false =>
      have hnone := hdirect' (hmode.trans hverbose)
      simpa [hnone] using houtput

/-- What the sink has after a run. -/
theorem Path.taken_conclude {n : Nat} {machine : Machine} {source : Source} {sink : Sink}
    {entries : List Entry} {d e : Configuration} {outcome : Except Error Unit}
    (hbuffer : machine.buffer = #[]) (hpath : Path n ⟨machine, source, sink⟩ entries d)
    (hstops : Stops d outcome e) (trace : Array Entry) :
    (conclude outcome e trace).sink.taken.toList =
      if machine.verbose then (sink.writeAll (printed entries)).2.taken.toList
      else sink.taken.toList ++ printed entries := by
  obtain ⟨htaken, hcollected⟩ := hpath.taken_eq hbuffer
  have hmode := hpath.verbose_eq
  rw [conclude_taken, hstops.machine_eq, hcollected]
  cases hverbose : machine.verbose with
  | true =>
      have hsink : d.sink = sink := hpath.sink_eq_of_verbose hverbose
      rw [hstops.sink_eq_of_verbose (hmode.trans hverbose), hsink]
      rfl
  | false =>
      have houtput := hstops.output_eq
      simp only [Configuration.output, hstops.machine_eq, List.append_cancel_right_eq] at houtput
      simpa [Sink.writeAll, hverbose, houtput] using htaken

/-- What a run adds to the sink, if the sink takes all that a verbose machine collects. -/
theorem taken_of_stops {n : Nat} {machine : Machine} {source : Source} {sink : Sink}
    {entries : List Entry} {d e : Configuration} {outcome : Except Error Unit}
    (hbuffer : machine.buffer = #[]) (hpath : Path n ⟨machine, source, sink⟩ entries d)
    (hstops : Stops d outcome e)
    (htaken : machine.verbose = true → (sink.writeAll (printed entries)).1 = .ok ())
    (trace : Array Entry) :
    (conclude outcome e trace).sink.taken.toList = sink.taken.toList ++ printed entries := by
  rw [hpath.taken_conclude hbuffer hstops]
  split
  · rename_i hverbose
    have hwrites := Sink.taken_of_writeAll_ok (Prod.ext (htaken hverbose) rfl)
    simp [hwrites]
  · rfl

/-- The entry with which a run ends. -/
def farewell (machine : Machine) : Except Error Unit → List Entry
  | .ok () => [.event (.finished machine.executed machine.tape.pointer machine.tape.size)]
  | .error _ => []

/-- However a run ends, at most one event is told after those of its instructions. -/
theorem exists_trace_conclude (outcome : Except Error Unit) (c : Configuration)
    (trace : Array Entry) :
    ∃ outcome', (conclude outcome c trace).trace.toList =
      trace.toList ++ c.machine.farewell outcome' := by
  obtain ⟨machine, source, sink⟩ := c
  simp only [conclude]
  split
  · exact ⟨.error (.io Sink.flushCause), by simp [farewell]⟩
  · exact ⟨.error (.io Sink.flushCause), by simp [farewell]⟩
  · exact ⟨.ok (), by simp [farewell, halted]⟩

theorem reports_farewell (machine : Machine) (outcome : Except Error Unit) :
    reports (machine.farewell outcome) = [] := by
  cases outcome <;> rfl

theorem reports_conclude (outcome : Except Error Unit) (c : Configuration)
    (trace : Array Entry) :
    reports (conclude outcome c trace).trace.toList = reports trace.toList := by
  obtain ⟨outcome', htrace⟩ := exists_trace_conclude outcome c trace
  rw [htrace, reports_append, reports_farewell, List.append_nil]

theorem printed_conclude (outcome : Except Error Unit) (c : Configuration)
    (trace : Array Entry) :
    printed (conclude outcome c trace).trace.toList = printed trace.toList := by
  rw [printed, printed, reports_conclude]

/-- How a run ends whose output was taken: it may still fail to be passed on. -/
def flushed (flushFails : Bool) : Except Error Unit → Except Error Unit
  | .ok () => if flushFails then .error (.io Sink.flushCause) else .ok ()
  | .error error => .error error

@[simp] theorem flushed_false (outcome : Except Error Unit) : flushed false outcome = outcome := by
  cases outcome <;> rfl

/-- How a run ends if the sink takes whatever it is given. -/
theorem exists_conclude_eq_flushed {c : Configuration} (hsink : c.sink.Ample)
    (outcome : Except Error Unit) (trace : Array Entry) :
    ∃ left, conclude outcome c trace =
      ⟨(flushed c.sink.flushFails outcome).map fun _ => c.machine.halted,
        { c.machine with buffer := #[] }, c.source, left,
        trace ++ c.machine.farewell (flushed c.sink.flushFails outcome)⟩ := by
  obtain ⟨machine, source, sink⟩ := c
  obtain ⟨left, hwrite, -, hflush⟩ := hsink.exists_writeAll machine.buffer.toList
  have hdeliver : deliver sink machine.buffer =
      (if sink.flushFails then .error Sink.flushCause else .ok (),
        { left with flushes := left.flushes + 1 }) := by
    rw [deliver, hwrite]
    simp only [Sink.flush, hflush]
    split <;> rfl
  refine ⟨{ left with flushes := left.flushes + 1 }, ?_⟩
  cases outcome with
  | ok _ => cases hfails : sink.flushFails <;>
      simp [conclude, hdeliver, hfails, flushed, farewell, halted, Except.map]
  | error error => simp [conclude, hdeliver, flushed, farewell, Except.map]

/-- How a run ends if the sink never fails. -/
theorem exists_conclude_eq {c : Configuration} (hsink : c.sink.Unfailing)
    (outcome : Except Error Unit) (trace : Array Entry) :
    ∃ left, conclude outcome c trace = ⟨outcome.map fun _ => c.machine.halted,
      { c.machine with buffer := #[] }, c.source, left, trace ++ c.machine.farewell outcome⟩ := by
  simpa only [hsink.flushFails_eq, flushed_false] using
    exists_conclude_eq_flushed hsink.toAmple outcome trace

end Machine

end ByteTape
