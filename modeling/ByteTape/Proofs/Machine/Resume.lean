import ByteTape.Proofs.Machine.Depth
import ByteTape.Proofs.Machine.Mode
import ByteTape.Proofs.Source

/-!
# Going on after a failure

An instruction that fails leaves the machine as it was, so a later run tries it again. The main
result says that nothing else comes of the failure: the failed run and the next one come to what a
single run comes to that never met the failure.

Two facts carry this. What the machine does hangs on neither the sink nor what was collected, as
long as the sink takes what it is given: a path is mirrored from any configuration that differs
only in these (`Mirrors`). And it does not hang on a failure that is still ahead in the source, so
that one can be taken out (`Path.exists_append`).
-/

namespace ByteTape

namespace Machine

theorem account_with_buffer (machine : Machine) (buffer : Array UInt8) (instruction : Instruction)
    (action : Action) :
    account { machine with buffer } instruction action = machine.account instruction action := by
  have hevents := perform_snd_with_mode machine machine.verbose buffer action
  simp only [account, hevents, perform_fst, report]

/-- A configuration and another that differs from it in the sink, which never fails, and in what is
collected. -/
inductive Mirrors (c : Configuration) : Configuration → Prop where
  | intro (buffer : Array UInt8) (sink : Sink) (hsink : sink.Unfailing) :
      Mirrors c ⟨{ c.machine with buffer }, c.source, sink⟩

/-- An instruction that is settled is settled alike with a sink that never fails. -/
theorem Settles.mirror {machine : Machine} {source rest : Source} {sink left : Sink}
    {instruction : Instruction} {action : Action}
    (h : Settles machine source sink instruction action rest left) (buffer : Array UInt8)
    {sink' : Sink} (hsink : sink'.Unfailing) :
    ∃ left', Settles { machine with buffer } source sink' instruction action rest left' ∧
      left'.Unfailing := by
  obtain ⟨left', hsettles, hleft, hflush⟩ := h.echo machine.verbose buffer hsink.toAmple
  exact ⟨left', hsettles, hleft, hflush.trans hsink.flushFails_eq⟩

theorem Fails.mirror {machine : Machine} {source rest : Source} {sink left : Sink}
    {instruction : Instruction} {error : Error}
    (h : Fails machine source sink instruction error rest left) (hsink : sink.Unfailing)
    (buffer : Array UInt8) (sink' : Sink) :
    Fails { machine with buffer } source sink' instruction error rest sink' :=
  (h.echo hsink.toAmple machine.verbose buffer sink').1

namespace Mirrors

variable {c c' d : Configuration}

theorem symm (h : Mirrors c d) (hsink : c.sink.Unfailing) : Mirrors d c := by
  cases h with
  | intro _ _ _ => exact .intro c.machine.buffer c.sink hsink

theorem unfailing (h : Mirrors c d) : d.sink.Unfailing := by
  cases h with
  | intro _ _ hsink => exact hsink

theorem advance (h : Mirrors c d) {entries : List Entry} (hstep : step c = .advanced c' entries) :
    ∃ d', step d = .advanced d' entries ∧ Mirrors c' d' := by
  cases h with
  | intro buffer sink hsink =>
      cases takes_of_step hstep with
      | comment hbyte hcomment =>
          exact ⟨_, step_of_comment hbyte hcomment, .intro buffer sink hsink⟩
      | perform hbyte hsettles =>
          obtain ⟨left, hsettles', hleft⟩ := hsettles.mirror buffer hsink
          have hstep' := step_of_settles (by exact hbyte) hsettles'
          rw [account_with_buffer] at hstep'
          refine ⟨_, hstep', ?_⟩
          simp only [perform_fst]
          exact .intro _ left hleft

theorem stops (h : Mirrors c d) (hsink : c.sink.Unfailing) {outcome : Except Error Unit}
    (hstops : Stops c outcome c') : ∃ d', Stops d outcome d' ∧ Mirrors c' d' := by
  cases h with
  | intro buffer sink hsink' =>
      cases hstops with
      | halted hstep =>
          cases takes_of_step hstep with
          | halt hsize => exact ⟨_, .halted (step_of_size_le hsize), .intro buffer sink hsink'⟩
      | failed hstep =>
          cases takes_of_step hstep with
          | fail hbyte hfails =>
              have hfails' := hfails.mirror hsink buffer sink
              exact ⟨_, .failed (step_of_fails (by exact hbyte) hfails'), .intro buffer sink hsink'⟩

theorem path (h : Mirrors c d) {n : Nat} {entries : List Entry} (hpath : Path n c entries c') :
    ∃ d', Path n d entries d' ∧ Mirrors c' d' := by
  induction hpath generalizing d with
  | nil c => exact ⟨d, .nil d, h⟩
  | cons hstep _ ih =>
      obtain ⟨d', hstep', h'⟩ := h.advance hstep
      obtain ⟨e, hrest, he⟩ := ih h'
      exact ⟨e, .cons hstep' hrest, he⟩

theorem endless (h : Mirrors c d) (hendless : Endless c) : Endless d := by
  intro n
  obtain ⟨entries, c', hpath⟩ := hendless n
  obtain ⟨d', hpath', -⟩ := h.path hpath
  exact ⟨entries, d', hpath'⟩

end Mirrors

/-- An instruction that leaves a failure ahead is settled alike with anything in its place. -/
theorem Settles.exists_append {machine : Machine} {source left rest : Source} {sink sink' : Sink}
    {instruction : Instruction} {action : Action} {cause : String}
    (h : Settles machine source sink instruction action (left ++ .failure cause :: rest) sink') :
    ∃ front, source = front ++ .failure cause :: rest ∧
      ∀ tail, Settles machine (front ++ tail) sink instruction action (left ++ tail) sink' := by
  generalize hafter : left ++ SourceEvent.failure cause :: rest = after at h
  cases h with
  | moveRight => exact ⟨left, hafter.symm, fun _ => .moveRight⟩
  | moveLeft => exact ⟨left, hafter.symm, fun _ => .moveLeft⟩
  | increment => exact ⟨left, hafter.symm, fun _ => .increment⟩
  | decrement => exact ⟨left, hafter.symm, fun _ => .decrement⟩
  | collect hverbose => exact ⟨left, hafter.symm, fun _ => .collect hverbose⟩
  | write hverbose h => exact ⟨left, hafter.symm, fun _ => .write hverbose h⟩
  | read h =>
      obtain ⟨front, hfront, hnext⟩ := Source.exists_append_of_next (hafter ▸ h)
      exact ⟨front, hfront, fun tail => .read (hnext tail)⟩
  | exhausted h =>
      obtain ⟨front, hfront, hnext⟩ := Source.exists_append_of_next (hafter ▸ h)
      exact ⟨front, hfront, fun tail => .exhausted (hnext tail)⟩
  | enter h => exact ⟨left, hafter.symm, fun _ => .enter h⟩
  | skip hzero h => exact ⟨left, hafter.symm, fun _ => .skip hzero h⟩
  | leave h => exact ⟨left, hafter.symm, fun _ => .leave h⟩
  | again hnonzero h => exact ⟨left, hafter.symm, fun _ => .again hnonzero h⟩

theorem Path.exists_append {n : Nat} {c d : Configuration} {entries : List Entry}
    {left rest : Source} {cause : String} (h : Path n c entries d)
    (hd : d.source = left ++ .failure cause :: rest) :
    ∃ front, c.source = front ++ .failure cause :: rest ∧
      ∀ tail, Path n { c with source := front ++ tail } entries
        { d with source := left ++ tail } := by
  induction h with
  | nil c => exact ⟨left, hd, fun tail => .nil _⟩
  | @cons n c d e entries more hstep _ ih =>
      obtain ⟨middle, hmiddle, hpath⟩ := ih hd
      cases takes_of_step hstep with
      | comment hbyte hcomment =>
          exact ⟨middle, hmiddle, fun tail => .cons (step_of_comment hbyte hcomment) (hpath tail)⟩
      | perform hbyte hsettles =>
          simp only at hmiddle
          rw [hmiddle] at hsettles
          obtain ⟨front, hfront, hsettles'⟩ := hsettles.exists_append
          exact ⟨front, hfront, fun tail =>
            .cons (step_of_settles hbyte (hsettles' tail)) (hpath tail)⟩

theorem step_congr_of_input {machine : Machine} {source source' : Source} {sink : Sink}
    (hbyte : machine.program.code[machine.cursor]? = some Instruction.input.toByte)
    (hnext : source.next = source'.next) :
    step ⟨machine, source, sink⟩ = step ⟨machine, source', sink⟩ := by
  simp only [step, hbyte, Instruction.ofByte?_toByte, resolve, hnext]

theorem Endless.congr {c d : Configuration} (h : Endless c) (hstep : step c = step d) :
    Endless d := by
  intro n
  obtain ⟨entries, e, hpath⟩ := h n
  cases hpath with
  | nil => exact ⟨[], d, .nil d⟩
  | cons hfirst hrest => exact ⟨_, e, .cons (hstep ▸ hfirst) hrest⟩

/-- A configuration from which the machine goes on like another one: what it does first is what it
does first from a mirror of that. -/
def Continues (c x : Configuration) : Prop := ∃ d, step x = step d ∧ Mirrors c d

namespace Continues

variable {c x : Configuration}

theorem endless_iff (h : Continues c x) (hsink : c.sink.Unfailing) : Endless c ↔ Endless x := by
  obtain ⟨d, hstep, hmirrors⟩ := h
  constructor
  · intro hendless
    exact (hmirrors.endless hendless).congr hstep.symm
  · intro hendless
    exact (hmirrors.symm hsink).endless (hendless.congr hstep)

theorem path_stops (h : Continues c x) {n : Nat} {entries : List Entry} {e f : Configuration}
    {outcome : Except Error Unit} (hpath : Path n c entries e) (he : e.sink.Unfailing)
    (hstops : Stops e outcome f) :
    ∃ y z, Path n x entries y ∧ Stops y outcome z ∧ Mirrors f z := by
  obtain ⟨d, hstep, hmirrors⟩ := h
  obtain ⟨y, hpath', hy⟩ := hmirrors.path hpath
  obtain ⟨z, hstops', hz⟩ := hy.stops he hstops
  cases hpath' with
  | nil =>
      refine ⟨x, z, .nil x, ?_, hz⟩
      cases hstops' with
      | halted hhalted => exact .halted (hstep.trans hhalted)
      | failed hfailed => exact .failed (hstep.trans hfailed)
  | cons hfirst hrest => exact ⟨y, z, .cons (hstep.trans hfirst) hrest, hstops', hz⟩

end Continues

theorem Path.unfailing {n : Nat} {c d : Configuration} {entries : List Entry}
    (h : Path n c entries d) (hsink : c.sink.Unfailing) : d.sink.Unfailing := by
  -- The configuration is its own mirror, and a mirror's sink never fails.
  have hself : Mirrors c c := .intro c.machine.buffer c.sink hsink
  obtain ⟨d', hpath, hmirrors⟩ := hself.path h
  obtain ⟨-, rfl⟩ := h.unique hpath
  exact hmirrors.unfailing

theorem Stops.unfailing {c d : Configuration} {outcome : Except Error Unit}
    (h : Stops c outcome d) (hsink : c.sink.Unfailing) : d.sink.Unfailing := by
  have hself : Mirrors c c := .intro c.machine.buffer c.sink hsink
  obtain ⟨d', hstops, hmirrors⟩ := hself.stops hsink h
  obtain ⟨-, rfl⟩ := h.unique hstops
  exact hmirrors.unfailing

/-- Where and why an instruction of a program fails. -/
theorem Stops.failure_cases {c d : Configuration} {error : Error} (h : Stops c (.error error) d) :
    (∃ cause front, error = .io cause ∧
      c.machine.program.code[c.machine.cursor]? = some Instruction.input.toByte ∧
      c.source = front ++ .failure cause :: d.source ∧
      ∀ tail, Source.next (front ++ tail) = Source.next tail) ∨
    c.machine.verbose = false ∧
      c.machine.program.code[c.machine.cursor]? = some Instruction.output.toByte ∧
      d.source = c.source := by
  cases h with
  | failed h =>
      cases takes_of_step h with
      | fail hbyte hfails =>
          obtain ⟨cause, hcause⟩ := hfails.exists_io hbyte
          cases hfails with
          | refused hverbose _ => exact .inr ⟨hverbose, hbyte, rfl⟩
          | unread hread =>
              obtain ⟨front, hfront, hnext⟩ := Source.exists_append_of_failed hread
              exact .inl ⟨_, front, rfl, hbyte, hfront, hnext⟩
          | unclosed => cases hcause
          | unopened => cases hcause

/-- A failure of the source that stops a path, or of the sink, can be done without: then the same
path leads on to where the machine continues after it. -/
theorem Path.exists_undisturbed {n : Nat} {machine : Machine} {source : Source} {sink : Sink}
    {entries : List Entry} {e d : Configuration} {error : Error}
    (hpath : Path n ⟨machine, source, sink⟩ entries e) (hstops : Stops e (.error error) d) :
    ∃ undisturbed : Source,
      ((∃ consumed cause, error = .io cause ∧
          e.machine.program.code[e.machine.cursor]? = some Instruction.input.toByte ∧
          source = consumed ++ .failure cause :: d.source ∧ undisturbed = consumed ++ d.source) ∨
        e.machine.verbose = false ∧
          e.machine.program.code[e.machine.cursor]? = some Instruction.output.toByte ∧
          undisturbed = source) ∧
      ∀ buffer again whole, whole.Unfailing → ∃ x,
        Path n ⟨machine, undisturbed, whole⟩ entries x ∧
          Continues ⟨{ e.machine with buffer }, d.source, again⟩ x := by
  rcases hstops.failure_cases with ⟨cause, front, hcause, hbyte, hfront, hnext⟩ |
    ⟨hverbose, hbyte, hsource⟩
  -- The failed read has taken events from the source that the next run does not see again, but none
  -- that a read would stop at, so the `,` reads the same with and without them.
  · obtain ⟨consumed, hconsumed, hreplay⟩ := hpath.exists_append hfront
    refine ⟨consumed ++ d.source, .inl ⟨consumed, cause, hcause, hbyte, hconsumed, rfl⟩,
      fun buffer again whole hwhole => ?_⟩
    have hmirrors : Mirrors ⟨machine, consumed ++ d.source, sink⟩ _ :=
      .intro machine.buffer whole hwhole
    obtain ⟨x, hpath', hx⟩ := hmirrors.path (hreplay d.source)
    refine ⟨x, hpath', ?_⟩
    cases hx with
    | intro buffer' whole' hwhole' =>
        refine ⟨_, step_congr_of_input ?_ (hnext d.source), .intro buffer' whole' hwhole'⟩
        exact hbyte
  · refine ⟨source, .inr ⟨hverbose, hbyte, rfl⟩, fun buffer again whole hwhole => ?_⟩
    have hmirrors : Mirrors ⟨machine, source, sink⟩ _ := .intro machine.buffer whole hwhole
    obtain ⟨x, hpath', hx⟩ := hmirrors.path hpath
    refine ⟨x, hpath', x, rfl, ?_⟩
    cases hx with
    | intro buffer' whole' hwhole' =>
        rw [hsource]
        exact .intro buffer' whole' hwhole'

theorem Mirrors.conclude_eq {c d : Configuration} (h : Mirrors c d) (hsink : c.sink.Unfailing)
    (outcome : Except Error Unit) (front back : List Entry) :
    (conclude outcome d (front ++ back).toArray).result =
        (conclude outcome c back.toArray).result ∧
      (conclude outcome d (front ++ back).toArray).machine =
        (conclude outcome c back.toArray).machine ∧
      (conclude outcome d (front ++ back).toArray).source =
        (conclude outcome c back.toArray).source ∧
      (conclude outcome d (front ++ back).toArray).trace =
        front.toArray ++ (conclude outcome c back.toArray).trace := by
  obtain ⟨left, hc⟩ := exists_conclude_eq hsink outcome back.toArray
  obtain ⟨left', hd⟩ := exists_conclude_eq h.unfailing outcome (front ++ back).toArray
  rw [hc, hd]
  cases h with
  | intro buffer sink _ =>
      refine ⟨rfl, rfl, rfl, Array.toList_inj.mp ?_⟩
      cases outcome <;> simp [farewell]

/-- A failure in the middle of a program leaves no trace. A run that fails there was stopped by a
failure of the source at a `,`, or, unless the machine is verbose, by the sink at a `.`. The next
run, on what is left of the source and with a sink that never fails, then ends or not as a single
run does that never meets that failure; and if they end, it is with the same result, the same
machine and the same rest of the source, the two runs having told and put out between them what the
single run did. -/
theorem resumed_eq_undisturbed {program : Program} {bound : Nat} {verbose : Bool}
    {machine : Machine} (hrested : Rested program bound verbose machine) {fuel : Nat}
    {source : Source} {sink : Sink} {first : Run} {error : Error}
    (hrun : machine.run fuel source sink = some first) (herror : first.result = .error error)
    (hcursor : first.machine.cursor < program.size)
    (htaken : verbose = true → (sink.writeAll (printed first.trace.toList)).1 = .ok ()) :
    ∃ undisturbed : Source,
      ((∃ consumed cause, error = .io cause ∧
          program.code[first.machine.cursor]? = some Instruction.input.toByte ∧
          source = consumed ++ .failure cause :: first.source ∧
          undisturbed = consumed ++ first.source) ∨
        verbose = false ∧
          program.code[first.machine.cursor]? = some Instruction.output.toByte ∧
          undisturbed = source) ∧
      ∀ again whole : Sink, again.Unfailing → whole.Unfailing →
        ((∀ fuel, first.machine.run fuel first.source again = none) ↔
          ∀ fuel, machine.run fuel undisturbed whole = none) ∧
        ∀ fuel fuel' second single,
          first.machine.run fuel first.source again = some second →
          machine.run fuel' undisturbed whole = some single →
          single.result = second.result ∧ single.machine = second.machine ∧
            single.source = second.source ∧ single.trace = first.trace ++ second.trace ∧
            ∃ early late, first.sink.taken.toList = sink.taken.toList ++ early ∧
              second.sink.taken.toList = again.taken.toList ++ late ∧
              single.sink.taken.toList = whole.taken.toList ++ early ++ late := by
  obtain ⟨n, entries, e, outcome, d, -, hpath, hstops, rfl⟩ := run_eq_some_iff.mp hrun
  have hmachine := (invariant_consistent program bound verbose).rested hrested
  have he := (invariant_consistent program bound verbose).path hpath hmachine
  rw [conclude_machine, hstops.machine_eq] at hcursor
  -- A run that fails after its dispatch has come to the end of the program.
  obtain rfl : outcome = .error error := by
    rcases outcome_of_conclude_error herror with h | ⟨rfl, -⟩
    · exact h
    · have hsize := hstops.size_le
      rw [he.program_eq] at hsize
      exact absurd hcursor (Nat.not_lt.mpr hsize)
  obtain ⟨undisturbed, hfailure, hreplay⟩ := hpath.exists_undisturbed hstops
  rw [he.program_eq, he.verbose_eq] at hfailure
  simp only [conclude_error_trace, conclude_machine, conclude_source, hstops.machine_eq] at htaken ⊢
  refine ⟨undisturbed, hfailure, fun again whole hagain hwhole => ?_⟩
  obtain ⟨x, hx, hcontinues⟩ := hreplay #[] again whole hwhole
  refine ⟨?_, fun fuel fuel' second single hsecond hsingle => ?_⟩
  · rw [run_eq_none_iff_endless, run_eq_none_iff_endless, hx.endless_iff]
    exact hcontinues.endless_iff hagain
  · obtain ⟨k, later, y, outcome, z, -, hpath', hstops', rfl⟩ := run_eq_some_iff.mp hsecond
    obtain ⟨_, _, _, _, _, -, hlong, hend, rfl⟩ := run_eq_some_iff.mp hsingle
    have hy := hpath'.unfailing hagain
    obtain ⟨y', z', hmirrored, hstopped, hmirrors⟩ := hcontinues.path_stops hpath' hy hstops'
    obtain ⟨rfl, rfl, rfl⟩ := (hx.append hmirrored).unique_of_stops hstopped hlong hend
    obtain ⟨hresult, hsame, hsource, htrace⟩ :=
      hmirrors.conclude_eq (hstops'.unfailing hy) outcome entries later
    refine ⟨hresult, hsame, hsource, htrace, printed entries, printed later, ?_, ?_, ?_⟩
    · rw [← hmachine.verbose_eq] at htaken
      exact taken_of_stops hrested.buffer_eq hpath hstops htaken _
    · exact taken_of_stops rfl hpath' hstops' (fun _ => hagain.writeAll_fst _) _
    · rw [taken_of_stops hrested.buffer_eq hlong hend (fun _ => hwhole.writeAll_fst _),
        printed_append, List.append_assoc]

/-- In `,.,.` on a verbose machine whose source fails after the first byte, which is also all that
the first sink takes. -/
theorem resumed_after_second_read :
    ∃ (program : Program) (first second single : Run),
      program.text = [0x2c, 0x2e, 0x2c, 0x2e] ∧
      (start program 1 true).run 5 [.data [65], .interrupt, .failure "gone", .data [66]]
        { limit := some 1 } = some first ∧
      first.result = .error (.io "gone") ∧ first.machine.cursor = 2 ∧
      first.machine.run 5 first.source {} = some second ∧
      (start program 1 true).run 5 [.data [65], .interrupt, .data [66]] {} = some single ∧
      single.result = second.result ∧ single.machine = second.machine ∧
      single.trace = first.trace ++ second.trace := by
  let program : Program := ⟨#[0x2c, 0x2e, 0x2c, 0x2e], by decide⟩
  have hrun : (start program 1 true).run 5 [.data [65], .interrupt, .failure "gone", .data [66]]
      { limit := some 1 } = some _ := rfl
  have htaken : (Sink.writeAll { limit := some 1 } [65]).1 = .ok () := by
    simp [Sink.writeAll, Sink.accepts, Sink.allowance]
  obtain ⟨undisturbed, hfailure, hresumed⟩ :=
    resumed_eq_undisturbed .start hrun rfl (by decide) fun _ => htaken
  have hunfailing : Sink.Unfailing {} := ⟨⟨rfl, by simp⟩, rfl⟩
  have hsource : undisturbed = [.data [65], .interrupt, .data [66]] := by
    rcases hfailure with ⟨consumed, cause, -, -, hsplit, rfl⟩ | ⟨hfalse, -⟩
    · have hrest : [.data [65], .interrupt] ++ [.failure "gone", .data [66]] =
          consumed ++ .failure cause :: [.data [66]] := hsplit
      obtain ⟨rfl, -⟩ := List.append_inj' hrest rfl
      rfl
    · cases hfalse
  subst hsource
  obtain ⟨hresult, hmachine, -, htrace, -⟩ :=
    (hresumed {} {} hunfailing hunfailing).2 5 5 _ _ rfl rfl
  exact ⟨program, _, _, _, rfl, hrun, rfl, rfl, rfl, rfl, hresult, hmachine, htrace⟩

end Machine

end ByteTape
