import ByteTape.Proofs.Machine.Depth

/-!
# What a failed run leaves

A run fails at one of three places: at a `,` because of its source, at a `.` because of its sink, or
after the end of the program because its output could not be delivered. `Culprit.Explains` says what
is found at each of them, and no two of them can be found at once.

Wherever it is, the failing instruction has not touched the machine. `LastReport` is the
configuration right after the last instruction that was reported, and from there to the failure only
comments were passed over.
-/

namespace ByteTape

/-- What a run can be failed by. -/
inductive Culprit where
  /-- A read failed. -/
  | source
  /-- A write was refused. -/
  | sink
  /-- Collected output was refused, or what was taken was not passed on. -/
  | delivery
  deriving DecidableEq, Repr

namespace Machine

theorem deliver_eq_error_iff {sink : Sink} {collected : Array UInt8} {cause : String} :
    (deliver sink collected).1 = .error cause ↔
      (sink.writeAll collected.toList).1 = .error cause ∨
        ∃ left, sink.writeAll collected.toList = (.ok (), left) ∧ left.flush.1 = .error cause := by
  rw [deliver]
  rcases sink.writeAll collected.toList with ⟨_ | _, left⟩ <;> simp

end Machine

namespace Culprit

/-- What is found where a culprit has stopped a machine: the byte at the cursor, and who failed. -/
def Explains (stopped : Configuration) (cause : String) : Culprit → Prop
  | source =>
      stopped.machine.program.code[stopped.machine.cursor]? = some Instruction.input.toByte ∧
        ∃ rest, stopped.source.next = (.failed cause, rest)
  | sink =>
      stopped.machine.verbose = false ∧
        stopped.machine.program.code[stopped.machine.cursor]? = some Instruction.output.toByte ∧
        (stopped.sink.writeAll [stopped.machine.tape.current]).1 = .error cause
  | delivery =>
      stopped.machine.cursor = stopped.machine.program.size ∧
        ((stopped.sink.writeAll stopped.machine.buffer.toList).1 = .error cause ∨
          ∃ left, stopped.sink.writeAll stopped.machine.buffer.toList = (.ok (), left) ∧
            left.flush.1 = .error cause)

/-- The byte at which a culprit stops a machine. -/
def byte? : Culprit → Option UInt8
  | source => some Instruction.input.toByte
  | sink => some Instruction.output.toByte
  | delivery => none

theorem byte?_injective {culprit culprit' : Culprit} (h : culprit.byte? = culprit'.byte?) :
    culprit = culprit' := by
  revert h
  cases culprit <;> cases culprit' <;> decide

variable {culprit culprit' : Culprit} {stopped : Configuration} {cause cause' : String}

theorem Explains.getElem?_eq (h : culprit.Explains stopped cause) :
    stopped.machine.program.code[stopped.machine.cursor]? = culprit.byte? := by
  cases culprit with
  | source => exact h.1
  | sink => exact h.2.1
  | delivery => exact Array.getElem?_eq_none (Nat.le_of_eq h.1.symm)

theorem Explains.unique (h : culprit.Explains stopped cause)
    (h' : culprit'.Explains stopped cause') : culprit = culprit' :=
  byte?_injective (h.getElem?_eq.symm.trans h'.getElem?_eq)

end Culprit

namespace Machine

/-- An instruction fails because of the source or because of the sink. -/
theorem Stops.exists_culprit {c d : Configuration} {cause : String}
    (h : Stops c (.error (.io cause)) d) : ∃ culprit : Culprit, culprit.Explains c cause := by
  cases h with
  | failed h =>
      cases takes_of_step h with
      | fail hbyte hfails =>
          cases hfails with
          | refused hverbose hwrite =>
              exact ⟨.sink, hverbose, hbyte, congrArg Prod.fst hwrite⟩
          | unread hread => exact ⟨.source, hbyte, _, hread⟩

/-- One configuration comes after another with nothing but comments between the two cursors. -/
structure PastComments (c d : Configuration) : Prop where
  eq_with_cursor : d = { c with machine := { c.machine with cursor := d.machine.cursor } }
  cursor_le : c.machine.cursor ≤ d.machine.cursor
  comment {position : Nat} (hfrom : c.machine.cursor ≤ position)
    (hto : position < d.machine.cursor) :
    ∃ byte, c.machine.program.code[position]? = some byte ∧ Instruction.ofByte? byte = none

theorem PastComments.refl (c : Configuration) : PastComments c c where
  eq_with_cursor := rfl
  cursor_le := Nat.le_refl _
  comment hfrom hto := absurd hfrom (Nat.not_le.mpr hto)

theorem PastComments.cons {machine : Machine} {source : Source} {sink : Sink} {byte : UInt8}
    {d : Configuration} (hbyte : machine.program.code[machine.cursor]? = some byte)
    (hcomment : Instruction.ofByte? byte = none)
    (h : PastComments ⟨{ machine with cursor := machine.cursor + 1 }, source, sink⟩ d) :
    PastComments ⟨machine, source, sink⟩ d where
  eq_with_cursor := h.eq_with_cursor
  cursor_le := Nat.le_of_succ_le h.cursor_le
  comment hfrom hto := by
    rcases Nat.eq_or_lt_of_le hfrom with rfl | hlt
    · exact ⟨byte, hbyte, hcomment⟩
    · exact h.comment hlt hto

/-- The configuration right after the last report among some entries, or the one they begin with if
they hold no report. -/
inductive LastReport (c : Configuration) : List Entry → Configuration → Prop where
  | none : LastReport c [] c
  | step {n : Nat} {front back : List Entry} {b d : Configuration} {instruction : Instruction}
      (hpath : Path n c front b) (hstep : step b = .advanced d back)
      (hreport : reports back = [d.machine.report instruction b.machine.cursor]) :
      LastReport c (front ++ back) d

/-- Every path is one up to its last report, and then one over comments. -/
theorem Path.exists_lastReport {n : Nat} {c d : Configuration} {entries : List Entry}
    (h : Path n c entries d) : ∃ last, LastReport c entries last ∧ PastComments last d := by
  induction h with
  | nil c => exact ⟨c, .none, .refl c⟩
  | @cons _ c d e entries rest hstep _ ih =>
      obtain ⟨last, hlast, hpast⟩ := ih
      -- Only if nothing is reported later does it matter what this byte is.
      cases hlast with
      | none =>
          cases takes_of_step hstep with
          | comment hbyte hcomment => exact ⟨c, .none, hpast.cons hbyte hcomment⟩
          | perform hbyte hsettles =>
              have hreported := LastReport.step (.nil c) hstep (reports_account _ _ _)
              rw [List.nil_append] at hreported
              rw [List.append_nil]
              exact ⟨_, hreported, hpast⟩
      | step hpath hlast hreport =>
          rw [← List.append_assoc]
          exact ⟨last, .step (.cons hstep hpath) hlast hreport, hpast⟩

/-- A run that fails tells of nothing but its instructions. -/
theorem conclude_trace_of_error {outcome : Except Error Unit} {c : Configuration}
    {trace : Array Entry} {error : Error} (h : (conclude outcome c trace).result = .error error) :
    (conclude outcome c trace).trace = trace := by
  obtain ⟨machine, source, sink⟩ := c
  cases outcome with
  | error failure => rfl
  | ok =>
      rcases hdelivered : (deliver sink machine.buffer).1 with cause | _
      · simp [conclude, hdelivered]
      · simp [conclude, hdelivered] at h

theorem run_of_dispatch {fuel : Nat} {machine : Machine} {source : Source} {sink : Sink}
    {result : Run} (hrun : machine.run fuel source sink = some result)
    {outcome : Except Error Unit} {c : Configuration} {trace : Array Entry}
    (h : dispatch fuel ⟨machine, source, sink⟩ #[] = some (outcome, c, trace)) :
    result = conclude outcome c trace := by
  rw [run, h] at hrun
  exact (Option.some.inj hrun).symm

/-- A failed run has a culprit. -/
theorem exists_culprit_of_conclude {program : Program} {bound : Nat} {verbose : Bool}
    {e d : Configuration} {outcome : Except Error Unit} {trace : Array Entry} {error : Error}
    (he : Consistent program bound verbose e.machine) (hstops : Stops e outcome d)
    (h : (conclude outcome d trace).result = .error error) :
    ∃ cause, error = .io cause ∧ ∃ culprit : Culprit, culprit.Explains e cause := by
  rcases outcome_of_conclude_error h with rfl | ⟨rfl, -⟩
  · obtain ⟨cause, rfl⟩ := hstops.exists_io
    exact ⟨cause, rfl, hstops.exists_culprit⟩
  · obtain ⟨cause, rfl, hdelivered⟩ := exists_deliver_of_conclude h
    have hcursor := he.cursor_le
    rw [← he.program_eq] at hcursor
    have hend := Nat.le_antisymm hcursor hstops.size_le
    cases hstops with
    | halted hstep =>
        cases takes_of_step hstep with
        | halt => exact ⟨cause, rfl, .delivery, hend, deliver_eq_error_iff.mp hdelivered⟩

/-- A failed run is as if its last reported instruction had been the last one. After any run nothing
is collected. If an instruction fails, its failure is the result, whatever becomes of the delivery
that is still made. A run that fails does so in its source, in its sink or in its delivery, but
always in just one of them; and it leaves the machine as it was right after the last report, or as
it found it if there is none, with the cursor moved on over comments only. -/
theorem failed_run_is_atomic {program : Program} {bound : Nat} {verbose : Bool} {machine : Machine}
    (hrested : Rested program bound verbose machine) {fuel : Nat} {source : Source} {sink : Sink}
    {result : Run} (hrun : machine.run fuel source sink = some result) :
    result.machine.buffer = #[] ∧
    (∀ failure c trace,
      dispatch fuel ⟨machine, source, sink⟩ #[] = some (.error failure, c, trace) →
        result.result = .error failure ∧ result.sink = (deliver c.sink c.machine.buffer).2) ∧
    ∀ error, result.result = .error error →
      ∃ cause n stopped last, error = .io cause ∧
        Path n ⟨machine, source, sink⟩ result.trace.toList stopped ∧
        stopped.machine.program = program ∧ stopped.machine.verbose = verbose ∧
        (∃! culprit : Culprit, culprit.Explains stopped cause) ∧
        LastReport ⟨machine, source, sink⟩ result.trace.toList last ∧
        PastComments last stopped ∧
        result.machine = { last.machine with cursor := stopped.machine.cursor, buffer := #[] } := by
  refine ⟨?_, fun failure c trace hdispatch => ?_, fun error herror => ?_⟩
  · obtain ⟨n, entries, e, outcome, d, -, -, -, rfl⟩ := run_eq_some_iff.mp hrun
    rw [conclude_machine]
  · rw [run_of_dispatch hrun hdispatch]
    exact ⟨rfl, rfl⟩
  · obtain ⟨n, entries, e, outcome, d, -, hpath, hstops, rfl⟩ := run_eq_some_iff.mp hrun
    have hinvariant := invariant_consistent program bound verbose
    have he := hinvariant.path hpath (hinvariant.rested hrested)
    obtain ⟨cause, hcause, culprit, hexplains⟩ := exists_culprit_of_conclude he hstops herror
    obtain ⟨last, hlast, hpast⟩ := hpath.exists_lastReport
    rw [conclude_trace_of_error herror]
    refine ⟨cause, n, e, last, hcause, hpath, he.program_eq, he.verbose_eq,
      ⟨culprit, hexplains, fun _ hother => hother.unique hexplains⟩, hlast, hpast, ?_⟩
    rw [conclude_machine, hstops.machine_eq, hpast.eq_with_cursor]

/-- In `+.x,` the read fails, and then the sink refuses what was collected. It is the read that is to
blame, the count stays at two, and the cursor has passed over the comment. -/
theorem failed_run_is_atomic_at_failed_read :
    ∃ (program : Program) (result : Run) (stopped last : Configuration),
      program.text = [0x2b, 0x2e, 0x78, 0x2c] ∧
      (start program 1 true).run 4 [.failure "gone"] { limit := some 0 } = some result ∧
      result.result = .error (.io "gone") ∧ result.machine.buffer = #[] ∧
      Culprit.source.Explains stopped "gone" ∧
      LastReport ⟨start program 1 true, [.failure "gone"], { limit := some 0 }⟩
        result.trace.toList last ∧
      PastComments last stopped ∧ last.machine.executed = 2 ∧ stopped.machine.cursor = 3 ∧
      result.machine = { last.machine with cursor := 3, buffer := #[] } := by
  let program : Program := ⟨#[0x2b, 0x2e, 0x78, 0x2c], by decide⟩
  obtain ⟨result, hrun, hresult, hcursor, hexecuted⟩ : ∃ result,
      (start program 1 true).run 4 [.failure "gone"] { limit := some 0 } = some result ∧
        result.result = .error (.io "gone") ∧ result.machine.cursor = 3 ∧
        result.machine.executed = 2 := ⟨_, rfl, rfl, rfl, rfl⟩
  obtain ⟨hbuffer, -, hfailed⟩ := failed_run_is_atomic .start hrun
  obtain ⟨cause, n, stopped, last, hcause, hpath, hprogram, -, ⟨culprit, hexplains, -⟩, hlast,
    hpast, hmachine⟩ := hfailed _ hresult
  obtain rfl : "gone" = cause := Error.io.inj hcause
  have hstopped : stopped.machine.cursor = 3 := by
    rw [← hcursor, hmachine]
  have hculprit : culprit = .source := by
    apply Culprit.byte?_injective
    rw [← hexplains.getElem?_eq, hprogram, hstopped]
    rfl
  rw [hculprit] at hexplains
  rw [hstopped] at hmachine
  refine ⟨program, result, stopped, last, rfl, hrun, hresult, hbuffer, hexplains, hlast, hpast, ?_,
    hstopped, hmachine⟩
  rw [← hexecuted, hmachine]

end Machine

end ByteTape
