import ByteTape.Proofs.Bracket.Comment
import ByteTape.Proofs.Machine.Depth
import ByteTape.Proofs.Machine.Mode
import Mathlib.Data.List.Forall2

/-!
# Comments are inert

Two texts with the same instructions are the same program: both are accepted or neither is, and the
two programs make the same run, in which only the positions differ. The cursors of the two machines
are at the same rank whenever they meet (`Parallel`). When one of them takes an instruction, the
other passes over the comments before that instruction and takes it too; a comment of the first is
not answered at all. That the jumps lead to the same rank again is what the walks to a partner were
shown to do.
-/

namespace ByteTape

open ByteTape.Bracket ByteTape.Instruction

namespace Machine

/-- Reports that say the same, each in the positions of its own text. -/
structure SameReport (code code' : Array UInt8) (shown shown' : Report) : Prop where
  instruction_eq : shown.instruction = shown'.instruction
  pointer_eq : shown.pointer = shown'.pointer
  cell_eq : shown.cell = shown'.cell
  depth_eq : shown.depth = shown'.depth
  position : SamePlace code code' shown.position shown'.position
  cursor_eq : rank code shown.cursor = rank code' shown'.cursor

/-- Over nothing but comments, a machine comes to an instruction or to the end of its program. -/
theorem exists_path_to_instruction (machine : Machine) (source : Source) (sink : Sink) :
    ∃ n cursor, Path n ⟨machine, source, sink⟩ [] ⟨{ machine with cursor }, source, sink⟩ ∧
      rank machine.program.code cursor = rank machine.program.code machine.cursor ∧
      (machine.program.size ≤ cursor ∨
        ∃ instruction : Instruction,
          machine.program.code[cursor]? = some instruction.toByte) := by
  induction hleft : machine.program.size - machine.cursor generalizing machine with
  | zero => exact ⟨0, machine.cursor, .nil _, rfl, .inl (Nat.le_of_sub_eq_zero hleft)⟩
  | succ left ih =>
      have hlt : machine.cursor < machine.program.size := Nat.lt_of_sub_eq_succ hleft
      rcases comment_or_instruction hlt with ⟨byte, hbyte, hcomment⟩ | ⟨instruction, hbyte⟩
      · obtain ⟨n, cursor, hpath, hrank, hnext⟩ :=
          ih { machine with cursor := machine.cursor + 1 } (by simp only; omega)
        refine ⟨n + 1, cursor, .cons (step_of_comment hbyte hcomment) hpath, ?_, hnext⟩
        rw [hrank, rank_succ_of_comment hbyte hcomment]
      · exact ⟨0, machine.cursor, .nil _, rfl, .inr ⟨instruction, hbyte⟩⟩

/-- Two configurations that differ in the comments of their programs only: as many instructions
stand before the one cursor as before the other. -/
inductive Parallel (program program' : Program) : Configuration → Configuration → Prop where
  | intro {machine : Machine} {cursor : Nat} {source : Source} {sink : Sink}
      (hprogram : machine.program = program)
      (hrank : rank program.code machine.cursor = rank program'.code cursor) :
      Parallel program program' ⟨machine, source, sink⟩
        ⟨{ machine with program := program', cursor }, source, sink⟩

section

variable {program : Program} {machine : Machine} {source : Source} {sink : Sink} {cursor : Nat}

/-- Where one machine has an instruction, the other comes to it over comments. -/
theorem exists_path_to_samePlace (source : Source) (sink : Sink)
    (hstripped : stripped machine.program.code = stripped program.code)
    (hrank : rank machine.program.code machine.cursor = rank program.code cursor)
    {instruction : Instruction}
    (hbyte : machine.program.code[machine.cursor]? = some instruction.toByte) :
    ∃ n cursor', Path n ⟨{ machine with program, cursor }, source, sink⟩ []
        ⟨{ machine with program, cursor := cursor' }, source, sink⟩ ∧
      program.code[cursor']? = some instruction.toByte ∧
      SamePlace machine.program.code program.code machine.cursor cursor' := by
  obtain ⟨n, cursor', hpath, hrank', hnext⟩ :=
    exists_path_to_instruction { machine with program, cursor } source sink
  have hplace := hrank.trans hrank'.symm
  have hbyte' := getElem?_stripped hbyte
  rw [hplace, hstripped] at hbyte'
  rcases hnext with hsize | ⟨instruction', hstands⟩
  · rw [rank_of_size_le hsize, Array.getElem?_eq_none (Nat.le_refl _)] at hbyte'
    cases hbyte'
  · have hsame : program.code[cursor']? = some instruction.toByte := by
      rw [hstands, ← getElem?_stripped hstands, hbyte']
    exact ⟨n, cursor', hpath, hsame, ⟨instruction, hbyte, hsame⟩, hplace⟩

/-- Where one program has ended, only comments are left of the other. -/
theorem exists_path_to_end (source : Source) (sink : Sink)
    (hstripped : stripped machine.program.code = stripped program.code)
    (hrank : rank machine.program.code machine.cursor = rank program.code cursor)
    (hsize : machine.program.size ≤ machine.cursor) :
    ∃ n cursor', Path n ⟨{ machine with program, cursor }, source, sink⟩ []
        ⟨{ machine with program, cursor := cursor' }, source, sink⟩ ∧
      program.size ≤ cursor' ∧
      rank machine.program.code machine.cursor = rank program.code cursor' := by
  obtain ⟨n, cursor', hpath, hrank', hnext⟩ :=
    exists_path_to_instruction { machine with program, cursor } source sink
  have hplace := hrank.trans hrank'.symm
  rcases hnext with hend | ⟨instruction, hstands⟩
  · exact ⟨n, cursor', hpath, hend, hplace⟩
  · have hlt := rank_lt_size_stripped hstands
    rw [← hplace, rank_of_size_le hsize, hstripped] at hlt
    exact absurd hlt (Nat.lt_irrefl _)

/-- An instruction is settled alike in both programs, with a jump to the same rank. -/
theorem Settles.exists_parallel (hstripped : stripped machine.program.code = stripped program.code)
    (hplace : SamePlace machine.program.code program.code machine.cursor cursor)
    {rest : Source} {left : Sink} {instruction : Instruction} {action : Action}
    (h : Settles machine source sink instruction action rest left) :
    ∃ action', Settles { machine with program, cursor } source sink instruction action' rest left ∧
      action'.onTape = action.onTape ∧ action'.onDepth = action.onDepth ∧
      action'.emitted = action.emitted ∧
      rank machine.program.code (action.onCursor machine.cursor) =
        rank program.code (action'.onCursor cursor) := by
  have hnext := hplace.rank_succ
  cases h with
  | moveRight => exact ⟨_, .moveRight, rfl, rfl, rfl, hnext⟩
  | moveLeft => exact ⟨_, .moveLeft, rfl, rfl, rfl, hnext⟩
  | increment => exact ⟨_, .increment, rfl, rfl, rfl, hnext⟩
  | decrement => exact ⟨_, .decrement, rfl, rfl, rfl, hnext⟩
  | collect hverbose => exact ⟨_, .collect hverbose, rfl, rfl, rfl, hnext⟩
  | write hverbose h =>
      refine ⟨.emit, .write ?_ ?_, rfl, rfl, rfl, hnext⟩
      · exact hverbose
      · exact h
  | read h => exact ⟨_, .read h, rfl, rfl, rfl, hnext⟩
  | exhausted h => exact ⟨_, .exhausted h, rfl, rfl, rfl, hnext⟩
  | enter h => exact ⟨_, .enter h, rfl, rfl, rfl, hnext⟩
  | leave h => exact ⟨_, .leave h, rfl, rfl, rfl, hnext⟩
  | skip hzero h =>
      obtain ⟨closing', hpartner, hplace'⟩ := exists_partnerAfter_of_samePlace hstripped hplace h
      refine ⟨.skip closing', .skip ?_ ?_, rfl, rfl, rfl, hplace'.rank_succ⟩
      · exact hzero
      · exact hpartner
  | again hnonzero h =>
      obtain ⟨opening', hpartner, hplace'⟩ := exists_partnerBefore_of_samePlace hstripped hplace h
      refine ⟨.again opening', .again ?_ ?_, rfl, rfl, rfl, hplace'.rank_succ⟩
      · exact hnonzero
      · exact hpartner

theorem Fails.parallel {rest : Source} {left : Sink} {instruction : Instruction} {error : Error}
    (hbyte : machine.program.code[machine.cursor]? = some instruction.toByte)
    (h : Fails machine source sink instruction error rest left) :
    Fails { machine with program, cursor } source sink instruction error rest left := by
  obtain ⟨cause, hcause⟩ := h.exists_io hbyte
  cases h with
  | refused hverbose h =>
      refine .refused ?_ ?_
      · exact hverbose
      · exact h
  | unread h => exact .unread h
  | unclosed => cases hcause
  | unopened => cases hcause

end

/-- Entries whose reports say the same, one by one. -/
def SameReports (program program' : Program) (entries entries' : List Entry) : Prop :=
  List.Forall₂ (SameReport program.code program'.code) (reports entries) (reports entries')

theorem simulation_parallel {program program' : Program}
    (hstripped : stripped program.code = stripped program'.code) :
    Simulation (Parallel program program') (SameReports program program') where
  nil := .nil
  append h hrest := by
    rw [SameReports, reports_append, reports_append]
    exact List.rel_append h hrest
  advance h hstep := by
    cases h with
    | @intro machine cursor source sink hprogram hrank =>
        subst hprogram
        cases takes_of_step hstep with
        | comment hbyte hcomment =>
            refine ⟨0, [], _, .nil _, .intro rfl ?_, .nil⟩
            exact (rank_succ_of_comment hbyte hcomment).trans hrank
        | perform hbyte hsettles =>
            obtain ⟨n, cursor', hpath, hbyte', hplace⟩ :=
              exists_path_to_samePlace source sink hstripped hrank hbyte
            obtain ⟨action', hsettles', htape, hdepth, hemitted, hcursor⟩ :=
              hsettles.exists_parallel hstripped hplace
            have hstep' := step_of_settles (by exact hbyte') hsettles'
            have hperform := perform_fst { machine with program := program', cursor := cursor' }
              action'
            simp only [htape, hdepth, hemitted] at hperform
            refine ⟨n + 1, _, _, hpath.append (.single hstep'), ?_, ?_⟩
            · rw [hperform, perform_fst]
              exact .intro rfl hcursor
            · rw [List.nil_append, SameReports, reports_account, reports_account, hperform,
                perform_fst]
              exact .cons ⟨rfl, rfl, rfl, rfl, hplace, hcursor⟩ .nil
  stops h hstops := by
    cases h with
    | @intro machine cursor source sink hprogram hrank =>
        subst hprogram
        cases hstops with
        | halted hstep =>
            cases takes_of_step hstep with
            | halt hsize =>
                obtain ⟨n, cursor', hpath, hsize', hrank'⟩ :=
                  exists_path_to_end source sink hstripped hrank hsize
                exact ⟨n, _, _, hpath, .halted (step_of_size_le hsize'), .intro rfl hrank'⟩
        | failed hstep =>
            cases takes_of_step hstep with
            | fail hbyte hfails =>
                obtain ⟨n, cursor', hpath, hbyte', hplace⟩ :=
                  exists_path_to_samePlace source sink hstripped hrank hbyte
                exact ⟨n, _, _, hpath, .failed (step_of_fails (by exact hbyte')
                  (hfails.parallel hbyte)), .intro rfl hplace.rank_eq⟩

/-- Runs that stop in parallel come to the same. -/
theorem Parallel.conclude_eq {program program' : Program} {c d : Configuration}
    (h : Parallel program program' c d) (outcome : Except Error Unit)
    (trace trace' : Array Entry) :
    (conclude outcome c trace).result = (conclude outcome d trace').result ∧
      (conclude outcome c trace).sink = (conclude outcome d trace').sink := by
  cases h with
  | @intro machine _ _ sink _ _ =>
      rcases hdelivered : deliver sink machine.buffer with ⟨_ | _, left⟩ <;>
        cases outcome <;> simp [conclude, hdelivered, halted]

/-- A run that ends, ends with other comments too, with the same result and the same sink. -/
theorem exists_run_of_ofBytes {program program' : Program} {bound fuel : Nat} {verbose : Bool}
    {source : Source} {sink : Sink} {result : Run}
    (h : ofBytes program.text = ofBytes program'.text)
    (hrun : (start program bound verbose).run fuel source sink = some result) :
    ∃ fuel' result', (start program' bound verbose).run fuel' source sink = some result' ∧
      result'.result = result.result ∧ result'.sink = result.sink := by
  have hstripped : stripped program.code = stripped program'.code := by
    rw [stripped, stripped]
    exact congrArg (fun instructions => (instructions.map toByte).toArray) h
  have hparallel : Parallel program program' ⟨start program bound verbose, source, sink⟩
      ⟨start program' bound verbose, source, sink⟩ := .intro rfl rfl
  obtain ⟨entries, outcome, c, hends, rfl⟩ := exists_ends_of_run hrun
  obtain ⟨entries', d, hends', hcd, -⟩ := (simulation_parallel hstripped).ends hparallel hends
  obtain ⟨fuel', hrun'⟩ := exists_run_of_ends hends'
  obtain ⟨hresult, hsink⟩ := hcd.conclude_eq outcome entries.toArray entries'.toArray
  exact ⟨fuel', _, hrun', hresult.symm, hsink.symm⟩

/-- Comments do not matter. Of two texts with the same instructions both are programs or neither is,
and then the same bracket is to blame. The runs of the two programs both never end, or both end,
with the same result, the same sink, the same rest of the source, the same tape, the same depth and
the same count, with as many instructions behind the cursor, having shown the same reports at the
same instructions. -/
theorem comments_are_inert {text text' : List UInt8} (h : ofBytes text = ofBytes text') :
    ((∃ program, Program.ofText text = .ok program) ↔
      ∃ program, Program.ofText text' = .ok program) ∧
    (∀ error, Program.ofText text = .error error →
      ∃ bracket position position', error = .malformed ⟨bracket, position⟩ ∧
        Program.ofText text' = .error (.malformed ⟨bracket, position'⟩) ∧
        SamePlace text.toArray text'.toArray position position') ∧
    ∀ program program', Program.ofText text = .ok program → Program.ofText text' = .ok program' →
      ∀ bound verbose source sink,
        ((∀ fuel, (start program bound verbose).run fuel source sink = none) ↔
          ∀ fuel, (start program' bound verbose).run fuel source sink = none) ∧
        ∀ fuel fuel' first second,
          (start program bound verbose).run fuel source sink = some first →
          (start program' bound verbose).run fuel' source sink = some second →
          first.result = second.result ∧ first.sink = second.sink ∧
            first.source = second.source ∧ first.machine.tape = second.machine.tape ∧
            first.machine.depth = second.machine.depth ∧
            first.machine.executed = second.machine.executed ∧
            rank text.toArray first.machine.cursor = rank text'.toArray second.machine.cursor ∧
            List.Forall₂ (SameReport text.toArray text'.toArray)
              (reports first.trace.toList) (reports second.trace.toList) := by
  refine ⟨⟨Program.exists_ofText_ok_of_ofBytes h, Program.exists_ofText_ok_of_ofBytes h.symm⟩,
    fun error herror => Program.exists_ofText_error_of_ofBytes h herror,
    fun program program' hprogram hprogram' bound verbose source sink => ?_⟩
  obtain rfl := (Program.ofText_eq_ok_iff _ _).mp hprogram
  obtain rfl := (Program.ofText_eq_ok_iff _ _).mp hprogram'
  have hstripped : stripped program.code = stripped program'.code := by
    rw [stripped, stripped]
    exact congrArg (fun instructions => (instructions.map toByte).toArray) h
  have hparallel : Parallel program program' ⟨start program bound verbose, source, sink⟩
      ⟨start program' bound verbose, source, sink⟩ := .intro rfl rfl
  have hparallel' : Parallel program' program ⟨start program' bound verbose, source, sink⟩
      ⟨start program bound verbose, source, sink⟩ := .intro rfl rfl
  obtain ⟨hendless, hruns⟩ :=
    (simulation_parallel hstripped).run (simulation_parallel hstripped.symm) hparallel hparallel'
  refine ⟨hendless, fun fuel fuel' first second hfirst hsecond => ?_⟩
  obtain ⟨entries, entries', outcome, c, d, -, -, hcd, hreports, rfl, rfl⟩ :=
    hruns fuel fuel' first second hfirst hsecond
  obtain ⟨hresult, hsink⟩ := hcd.conclude_eq outcome entries.toArray entries'.toArray
  rw [reports_conclude, reports_conclude]
  simp only [conclude_machine, conclude_source]
  cases hcd with
  | intro hprogram hrank => exact ⟨hresult, hsink, rfl, rfl, rfl, rfl, hrank, hreports⟩

/-- The loop of `,[.-]` goes round twice, with comments as without, and the sink takes one byte of
its output. -/
theorem comments_are_inert_in_loop :
    ∃ (program program' : Program) (fuel : Nat) (first second : Run),
      ofBytes [0x2c, 0x5b, 0x2e, 0x2d, 0x5d] =
        ofBytes [0x61, 0x2c, 0x5b, 0x2e, 0x20, 0x2d, 0x5d, 0x0a] ∧
      Program.ofText [0x2c, 0x5b, 0x2e, 0x2d, 0x5d] = .ok program ∧
      Program.ofText [0x61, 0x2c, 0x5b, 0x2e, 0x20, 0x2d, 0x5d, 0x0a] = .ok program' ∧
      (start program 1 true).run 9 [.data [2]] { limit := some 1 } = some first ∧
      (start program' 1 true).run fuel [.data [2]] { limit := some 1 } = some second ∧
      first.machine.executed = 8 ∧
      first.result = second.result ∧ first.sink = second.sink ∧
      List.Forall₂
        (SameReport #[0x2c, 0x5b, 0x2e, 0x2d, 0x5d]
          #[0x61, 0x2c, 0x5b, 0x2e, 0x20, 0x2d, 0x5d, 0x0a])
        (reports first.trace.toList) (reports second.trace.toList) := by
  have hinstructions : ofBytes [0x2c, 0x5b, 0x2e, 0x2d, 0x5d] =
      ofBytes [0x61, 0x2c, 0x5b, 0x2e, 0x20, 0x2d, 0x5d, 0x0a] := by decide
  let program : Program := ⟨#[0x2c, 0x5b, 0x2e, 0x2d, 0x5d], by decide⟩
  have hprogram := (Program.ofText_eq_ok_iff _ program).mpr rfl
  have hfirst : (start program 1 true).run 9 [.data [2]] { limit := some 1 } = some _ := rfl
  obtain ⟨haccepted, -, hruns⟩ := comments_are_inert hinstructions
  obtain ⟨program', hprogram'⟩ := haccepted.mp ⟨program, hprogram⟩
  obtain ⟨hendless, hsame⟩ :=
    hruns program program' hprogram hprogram' 1 true [.data [2]] { limit := some 1 }
  obtain ⟨fuel, second, hsecond⟩ := exists_run_of_endless_iff hendless hfirst
  obtain ⟨hresult, hsink, -, -, -, -, -, hreports⟩ := hsame 9 fuel _ second hfirst hsecond
  refine ⟨program, program', fuel, _, second, hinstructions, hprogram, hprogram', hfirst, hsecond,
    ?_, hresult, hsink, hreports⟩
  rw [conclude_machine]

end Machine

end ByteTape
