import ByteTape.Proofs.Block.Layout
import ByteTape.Proofs.Machine.Path

/-!
# The machine follows the block

Where a block lies, the machine does what evaluating the block does. `Follows` says so of an
evaluation that succeeds, of one that fails, and of one that runs out of rounds, for which the
machine takes at least as many steps.

The last part is what makes the two agree on runs that never end, and it turns the agreement on
evaluations that do end into an equivalence: a dispatch that ends cannot take more steps than it was
given, so with that many rounds the evaluation ends as well.
-/

namespace ByteTape

open ByteTape.Bracket

/-- What a block sees of a configuration. -/
def Configuration.store (c : Configuration) : Store :=
  ⟨c.machine.tape, c.source, c.sink, c.machine.buffer, c.machine.executed⟩

namespace Machine

/-- The cursor of a configuration is at a position of a program. -/
structure Stands (program : Program) (verbose : Bool) (position : Nat) (c : Configuration) :
    Prop where
  program_eq : c.machine.program = program
  verbose_eq : c.machine.verbose = verbose
  cursor_eq : c.machine.cursor = position

/-- From a configuration the machine does what an evaluation does: it comes to `last` with the same
store, or stops with the same error and the same store, or takes at least `least` steps. -/
def Follows (program : Program) (verbose : Bool) (least last : Nat) (c : Configuration) :
    Evaluation → Prop
  | none => ∃ n entries d, least ≤ n ∧ Path n c entries d
  | some (.ok (), store) =>
      ∃ n entries d, Path n c entries d ∧ Stands program verbose last d ∧ d.store = store
  | some (.error error, store) =>
      ∃ n entries d e, Path n c entries d ∧ Stops d (.error error) e ∧ e.store = store

namespace Follows

variable {program : Program} {verbose : Bool} {least last : Nat} {c d : Configuration}
  {evaluation : Evaluation}

theorem mono {less : Nat} (h : Follows program verbose least last c evaluation)
    (hle : less ≤ least) : Follows program verbose less last c evaluation := by
  match evaluation, h with
  | none, ⟨n, entries, d, hleast, hpath⟩ => exact ⟨n, entries, d, Nat.le_trans hle hleast, hpath⟩
  | some (.ok (), _), h => exact h
  | some (.error _, _), h => exact h

/-- What is followed from a later configuration is followed from an earlier one, and the steps in
between count. -/
theorem after {k : Nat} {entries : List Entry} (hpath : Path k c entries d)
    (h : Follows program verbose least last d evaluation) :
    Follows program verbose (k + least) last c evaluation := by
  match evaluation, h with
  | none, ⟨n, rest, e, hleast, hrest⟩ =>
      exact ⟨k + n, _, e, Nat.add_le_add_left hleast k, hpath.append hrest⟩
  | some (.ok (), _), ⟨n, rest, e, hrest, hstands, hstore⟩ =>
      exact ⟨k + n, _, e, hpath.append hrest, hstands, hstore⟩
  | some (.error _, _), ⟨n, rest, e, f, hrest, hstops, hstore⟩ =>
      exact ⟨k + n, _, e, f, hpath.append hrest, hstops, hstore⟩

theorem andThen {middle : Nat} {next : Store → Evaluation}
    (h : Follows program verbose least middle c evaluation)
    (hnext : ∀ d, Stands program verbose middle d →
      Follows program verbose least last d (next d.store)) :
    Follows program verbose least last c (evaluation.andThen next) := by
  match evaluation, h with
  | none, h => exact h
  | some (.ok (), _), ⟨n, entries, d, hpath, hstands, hstore⟩ =>
      subst hstore
      exact ((hnext d hstands).after hpath).mono (Nat.le_add_left _ _)
  | some (.error _, _), h => exact h

end Follows

section Operations

variable {program : Program} {verbose : Bool} {position : Nat} {c : Configuration}

theorem Stands.perform (hc : Stands program verbose position c) {instruction : Instruction}
    {action : Action} {rest : Source} {left : Sink}
    (hbyte : program.code[position]? = some instruction.toByte)
    (h : Settles c.machine c.source c.sink instruction action rest left) :
    ∃ entries d, Path 1 c entries d ∧ Stands program verbose (action.onCursor position) d ∧
      d.store = ⟨action.onTape c.store.tape, rest, left,
        if verbose then c.store.buffer ++ action.emitted c.store.tape.current else c.store.buffer,
        c.store.executed + 1⟩ := by
  obtain ⟨rfl, rfl, rfl⟩ := hc
  refine ⟨_, _, Path.single (step_of_settles hbyte h), ?_, ?_⟩
  · rw [perform_fst]
    exact ⟨rfl, rfl, rfl⟩
  · rw [perform_fst]
    rfl

theorem Stands.fail (hc : Stands program verbose position c) {instruction : Instruction}
    {error : Error} {rest : Source} {left : Sink}
    (hbyte : program.code[position]? = some instruction.toByte)
    (h : Fails c.machine c.source c.sink instruction error rest left) :
    ∃ d, Stops c (.error error) d ∧ d.store = { c.store with source := rest, sink := left } := by
  obtain ⟨rfl, rfl, rfl⟩ := hc
  exact ⟨_, .failed (step_of_fails hbyte h), rfl⟩

theorem Stands.follows_obey (hc : Stands program verbose position c) (least : Nat)
    {operation : Operation}
    (hbyte : program.code[position]? = some operation.toInstruction.toByte) :
    Follows program verbose least (position + 1) c (some (c.store.obey verbose operation)) := by
  have hverbose := hc.verbose_eq
  -- An action that is no jump, as the evaluation has it.
  have hperform {action : Action} {rest : Source} {left : Sink} {store : Store}
      (h : Settles c.machine c.source c.sink operation.toInstruction action rest left)
      (hcursor : action.onCursor position = position + 1)
      (hstore : store = ⟨action.onTape c.store.tape, rest, left,
        if verbose then c.store.buffer ++ action.emitted c.store.tape.current else c.store.buffer,
        c.store.executed + 1⟩) :
      Follows program verbose least (position + 1) c (some (.ok (), store)) := by
    obtain ⟨entries, d, hpath, hstands, hd⟩ := hc.perform hbyte h
    rw [hcursor] at hstands
    exact ⟨1, entries, d, hpath, hstands, hd.trans hstore.symm⟩
  have hfail {error : Error} {rest : Source} {left : Sink}
      (h : Fails c.machine c.source c.sink operation.toInstruction error rest left) :
      Follows program verbose least (position + 1) c
        (some (.error error, { c.store with source := rest, sink := left })) := by
    obtain ⟨d, hstops, hd⟩ := hc.fail hbyte h
    exact ⟨0, [], c, d, .nil c, hstops, hd⟩
  cases operation with
  | right => exact hperform .moveRight rfl (by simp [Store.count, Configuration.store])
  | left => exact hperform .moveLeft rfl (by simp [Store.count, Configuration.store])
  | increment => exact hperform .increment rfl (by simp [Store.count, Configuration.store])
  | decrement => exact hperform .decrement rfl (by simp [Store.count, Configuration.store])
  | output =>
      cases verbose with
      | true => exact hperform (.collect hverbose) rfl (by simp [Store.count, Configuration.store])
      | false =>
          rcases hwrite : c.sink.writeAll [c.machine.tape.current] with ⟨cause | _, left⟩
          · have h := hfail (.refused hverbose hwrite)
            simpa [Store.obey, Configuration.store, hwrite] using h
          · have h := hperform (.write hverbose hwrite) rfl rfl
            simpa [Store.obey, Configuration.store, hwrite, Store.count] using h
  | input =>
      rcases hread : c.source.next with ⟨value | cause | _, rest⟩
      · have h := hperform (.read hread) rfl rfl
        simpa [Store.obey, Configuration.store, hread, Store.count] using h
      · have h := hfail (.unread hread)
        simpa [Store.obey, Configuration.store, hread] using h
      · have h := hperform (.exhausted hread) rfl rfl
        simpa [Store.obey, Configuration.store, hread, Store.count] using h

end Operations

section Loops

variable {program : Program} {verbose : Bool} {start finish : Nat} {c : Configuration}

/-- A bracket that is settled moves the cursor and is counted, and that is all. -/
theorem Stands.jump {position : Nat} (hc : Stands program verbose position c)
    {instruction : Instruction} {action : Action}
    (hbyte : program.code[position]? = some instruction.toByte)
    (h : Settles c.machine c.source c.sink instruction action c.source c.sink)
    (htape : action.onTape c.store.tape = c.store.tape)
    (hemitted : action.emitted c.store.tape.current = []) :
    ∃ entries d, Path 1 c entries d ∧ Stands program verbose (action.onCursor position) d ∧
      d.store = c.store.count := by
  obtain ⟨entries, d, hpath, hstands, hstore⟩ := hc.perform hbyte h
  refine ⟨entries, d, hpath, hstands, ?_⟩
  rw [hstore, htape, hemitted]
  simp [Store.count, Configuration.store]

theorem Stands.follows_rounds {body : Store → Evaluation} {rounds : Nat}
    (hpartners : Partners program.code start finish)
    (hfinish : program.code[finish]? = some Instruction.loopEnd.toByte)
    (hbody : ∀ d, Stands program verbose (start + 1) d →
      Follows program verbose rounds finish d (body d.store))
    {left : Nat} (hleft : left ≤ rounds) (hc : Stands program verbose (start + 1) c)
    (hnonzero : c.machine.tape.current ≠ 0) :
    Follows program verbose left (finish + 1) c (c.store.whileNonzero body left) := by
  -- On the rounds left: each of them takes the machine at least the step at its `]`.
  induction left generalizing c with
  | zero => exact ⟨0, [], c, Nat.le_refl _, .nil c⟩
  | succ left ih =>
      have hnonzero' : c.store.tape.current ≠ 0 := hnonzero
      rw [Store.whileNonzero, if_neg hnonzero']
      refine ((hbody c hc).mono hleft).andThen fun d hd => ?_
      by_cases hzero : d.machine.tape.current = 0
      · obtain ⟨entries, e, hpath, hstands, hstore⟩ := hd.jump hfinish (.leave hzero) rfl rfl
        cases left with
        | zero => exact ⟨1, entries, e, Nat.le_refl _, hpath⟩
        | succ left =>
            have hzero' : d.store.count.tape.current = 0 := hzero
            rw [Store.whileNonzero, if_pos hzero']
            exact ⟨1, entries, e, hpath, hstands, hstore⟩
      · have hpartner : partnerBefore d.machine.program.code d.machine.cursor = .ok start := by
          rw [hd.program_eq, hd.cursor_eq]
          exact (partnerBefore_eq_ok_iff _ _ _).mpr hpartners
        obtain ⟨entries, e, hpath, hstands, hstore⟩ :=
          hd.jump hfinish (.again hzero hpartner) rfl rfl
        have htape : e.machine.tape.current ≠ 0 := by
          have heq : e.machine.tape = d.machine.tape := congrArg Store.tape hstore
          rwa [heq]
        rw [← hstore]
        exact ((ih (by omega) hstands htape).after hpath).mono (by omega)

theorem Stands.follows_loop {body : Store → Evaluation} {rounds : Nat}
    (hpartners : Partners program.code start finish)
    (hstart : program.code[start]? = some Instruction.loopStart.toByte)
    (hfinish : program.code[finish]? = some Instruction.loopEnd.toByte)
    (hbody : ∀ d, Stands program verbose (start + 1) d →
      Follows program verbose rounds finish d (body d.store))
    (hc : Stands program verbose start c) :
    Follows program verbose rounds (finish + 1) c (c.store.count.whileNonzero body rounds) := by
  by_cases hzero : c.machine.tape.current = 0
  · have hpartner : partnerAfter c.machine.program.code c.machine.cursor = .ok finish := by
      rw [hc.program_eq, hc.cursor_eq]
      exact (partnerAfter_eq_ok_iff _ _ _).mpr hpartners
    obtain ⟨entries, d, hpath, hstands, hstore⟩ := hc.jump hstart (.skip hzero hpartner) rfl rfl
    cases rounds with
    | zero => exact ⟨1, entries, d, by omega, hpath⟩
    | succ rounds =>
        have hzero' : c.store.count.tape.current = 0 := hzero
        rw [Store.whileNonzero, if_pos hzero']
        exact ⟨1, entries, d, hpath, hstands, hstore⟩
  · obtain ⟨entries, d, hpath, hstands, hstore⟩ := hc.jump hstart (.enter hzero) rfl rfl
    have htape : d.machine.tape.current ≠ 0 := by
      have heq : d.machine.tape = c.machine.tape := congrArg Store.tape hstore
      rwa [heq]
    rw [← hstore]
    have hrounds := hstands.follows_rounds hpartners hfinish hbody (Nat.le_refl rounds) htape
    exact (hrounds.after hpath).mono (by omega)

end Loops

/-- Where a block lies, the machine follows its evaluation. -/
theorem Stands.follows_evaluate {program : Program} {verbose : Bool} {first last : Nat}
    {block : Block} (h : Block.Lies program.code first last block) (rounds : Nat)
    {c : Configuration} (hc : Stands program verbose first c) :
    Follows program verbose rounds last c (block.evaluate verbose rounds c.store) := by
  induction h generalizing c with
  | done position => exact ⟨0, [], c, .nil c, hc, rfl⟩
  | comment hbyte hcomment _ ih =>
      obtain ⟨rfl, rfl, rfl⟩ := hc
      have hstep : step c = _ := step_of_comment hbyte hcomment
      have hrest := ih (c := ⟨{ c.machine with cursor := c.machine.cursor + 1 }, c.source, c.sink⟩)
        ⟨rfl, rfl, rfl⟩
      exact (hrest.after (Path.single hstep)).mono (Nat.le_add_left _ _)
  | act hbyte _ ih => exact (hc.follows_obey rounds hbyte).andThen fun d hd => ih hd
  | loop hstart hbody hfinish _ ihbody ihrest =>
      have hpartners := Block.Lies.partners hstart hbody hfinish
      have hloop := hc.follows_loop hpartners hstart hfinish fun d hd => ihbody hd
      exact hloop.andThen fun d hd => ihrest hd

theorem Follows.exists_stops {program : Program} {verbose : Bool} {least : Nat} {c : Configuration}
    {outcome : Except Error Unit} {store : Store}
    (h : Follows program verbose least program.size c (some (outcome, store))) :
    ∃ n entries d e, Path n c entries d ∧ Stops d outcome e ∧ e.store = store := by
  match outcome, h with
  | .ok (), ⟨n, entries, d, hpath, hstands, hstore⟩ =>
      have hcursor : d.machine.program.size = d.machine.cursor := by
        rw [hstands.program_eq, hstands.cursor_eq]
      exact ⟨n, entries, d, d, hpath, .halted (step_of_size_le (Nat.le_of_eq hcursor)), hstore⟩
  | .error _, h => exact h

section Whole

variable {program : Program} {verbose : Bool} {block : Block} {c : Configuration}

theorem Stands.dispatch_of_evaluate (h : Block.Lies program.code 0 program.size block)
    (hc : Stands program verbose 0 c) {rounds : Nat} {outcome : Except Error Unit} {store : Store}
    (hevaluate : block.evaluate verbose rounds c.store = some (outcome, store)) :
    ∃ fuel d trace, dispatch fuel c #[] = some (outcome, d, trace) ∧ d.store = store := by
  have hfollows := hc.follows_evaluate h rounds
  rw [hevaluate] at hfollows
  obtain ⟨n, entries, d, e, hpath, hstops, hstore⟩ := hfollows.exists_stops
  exact ⟨n + 1, e, _, dispatch_eq_some_iff.mpr
    ⟨n, entries, d, Nat.lt_succ_self n, hpath, hstops, rfl⟩, hstore⟩

/-- A dispatch that ends is what the evaluation comes to, given as many rounds as the dispatch was
given steps: with fewer steps than that, the machine cannot have followed it that far. -/
theorem Stands.evaluate_of_dispatch (h : Block.Lies program.code 0 program.size block)
    (hc : Stands program verbose 0 c) {fuel : Nat} {outcome : Except Error Unit} {d : Configuration}
    {trace : Array Entry} (hdispatch : dispatch fuel c #[] = some (outcome, d, trace)) :
    block.evaluate verbose fuel c.store = some (outcome, d.store) := by
  obtain ⟨n, entries, e, hlt, hpath, hstops, -⟩ := dispatch_eq_some_iff.mp hdispatch
  have hfollows := hc.follows_evaluate h fuel
  cases hevaluate : block.evaluate verbose fuel c.store with
  | none =>
      rw [hevaluate] at hfollows
      obtain ⟨m, entries', d', hle, hpath'⟩ := hfollows
      have hge := hpath.length_le_of_stops hstops hpath'
      omega
  | some ended =>
      obtain ⟨outcome', store⟩ := ended
      rw [hevaluate] at hfollows
      obtain ⟨m, entries', d', e', hpath', hstops', rfl⟩ := hfollows.exists_stops
      obtain ⟨-, rfl, rfl⟩ := hpath.unique_of_stops hstops hpath' hstops'
      rfl

end Whole

/-- A program is written as exactly one block, and taking its bytes one by one comes to what
evaluating that block comes to: the two end in the same way and with the same store, or neither
ends. -/
theorem dispatch_iff_evaluate (program : Program) :
    ∃ block : Block,
      (∀ other : Block,
        other.instructions = Instruction.ofBytes program.text ↔ other = block) ∧
      ∀ bound verbose source sink,
        (∀ outcome store,
          (∃ fuel c trace,
            dispatch fuel ⟨start program bound verbose, source, sink⟩ #[] =
              some (outcome, c, trace) ∧ c.store = store) ↔
          ∃ rounds, block.evaluate verbose rounds ⟨Tape.blank bound, source, sink, #[], 0⟩ =
            some (outcome, store)) ∧
        ((∀ fuel, dispatch fuel ⟨start program bound verbose, source, sink⟩ #[] = none) ↔
          ∀ rounds, block.evaluate verbose rounds ⟨Tape.blank bound, source, sink, #[], 0⟩ =
            none) := by
  obtain ⟨block, hlies, hblock⟩ := program.exists_block
  refine ⟨block, hblock, fun bound verbose source sink => ?_⟩
  have hc : Stands program verbose 0 ⟨start program bound verbose, source, sink⟩ := ⟨rfl, rfl, rfl⟩
  refine ⟨fun outcome store => ⟨?_, ?_⟩, fun hnone rounds => ?_, fun hnone fuel => ?_⟩
  · rintro ⟨fuel, c, trace, hdispatch, rfl⟩
    exact ⟨fuel, hc.evaluate_of_dispatch hlies hdispatch⟩
  · rintro ⟨rounds, hevaluate⟩
    exact hc.dispatch_of_evaluate hlies hevaluate
  · rw [Option.eq_none_iff_forall_ne_some]
    rintro ⟨outcome, store⟩ hevaluate
    obtain ⟨fuel, c, trace, hdispatch, -⟩ := hc.dispatch_of_evaluate hlies hevaluate
    rw [hnone fuel] at hdispatch
    cases hdispatch
  · rw [Option.eq_none_iff_forall_ne_some]
    rintro ⟨outcome, c, trace⟩ hdispatch
    have hevaluate := hc.evaluate_of_dispatch hlies hdispatch
    cases (hnone fuel).symm.trans hevaluate

end Machine

end ByteTape
