import ByteTape.Proofs.Cli.Outcome
import ByteTape.Proofs.Source.Lines
import ByteTape.Proofs.Text.Utf8

/-!
# Single-stepping

A console in single-step mode follows two streams, the reports of a run and the lines of its
terminal. Each report makes it prompt and take one line; the first line that is not UTF-8 makes it
warn and ends all that. So what it shows are the prompts for as many reports as there are lines to
answer them, that line included (`foldl_pause_of_legible`, `foldl_pause_of_not_legible`). Of a run
that halts a session says nothing else, if its log filter lets through warnings alone.

The lines of a terminal are those of its bytes, and after them empty ones without end: `line` counts
them, however many were taken before.
-/

namespace ByteTape

namespace Cli

/-- A filter that lets through the warnings of a session and nothing that a machine tells. -/
structure LogFilter.WarnsOnly (filter : LogFilter) : Prop where
  shows_warning (text : String) : filter.shows (.warning text) = true
  hides_event (event : Event) : filter.shows (.ofEvent event) = false

theorem LogFilter.shows_ofLevel (level : Level) (line : LogLine) :
    (LogFilter.ofLevel level).shows line = decide (line.level.rank ≤ level.rank) := by
  simp [shows, decisive?, ofLevel, Directive.appliesTo, Directive.needsSpan]

theorem LogFilter.warnsOnly_ofLevel : (LogFilter.ofLevel .warn).WarnsOnly where
  shows_warning text := by
    rw [shows_ofLevel]
    rfl
  hides_event event := by
    rw [shows_ofLevel]
    cases event <;> rfl

namespace Console

/-- A line of a terminal with some bytes to give. After those come empty lines without end. -/
def line (bytes : List UInt8) (index : Nat) : List UInt8 := (bytes.splitOn 0x0a).getD index []

/-- A line of a terminal is UTF-8. -/
def Legible (bytes : List UInt8) (index : Nat) : Prop :=
  (line bytes index).toByteArray.IsValidUTF8

instance (bytes : List UInt8) (index : Nat) : Decidable (Legible bytes index) :=
  decidable_of_iff _ (Text.Utf8.isWellFormed_iff _)

/-- The prompts after some instructions. -/
def prompts (reports : List Report) : String := String.join (reports.map prompt)

/-- What is said when a line of the terminal is not UTF-8. -/
theorem render_terminalFailed :
    (LogLine.warning (terminalFailed illFormedLine)).render =
      " WARN bfvm: single-step disabled, terminal read failed: " ++
        "stream did not contain valid UTF-8\n" := by
  decide +kernel

theorem prompts_cons (report : Report) (reports : List Report) :
    prompts (report :: reports) = prompt report ++ prompts reports := by
  rw [prompts, List.map_cons, String.join_cons, prompts]

/-- To take a line from the bytes of a terminal is to take the first of their lines. -/
theorem line_of_takeLine (bytes : List UInt8) :
    line bytes 0 = (takeLine bytes).1 ∧
      ∀ index, line bytes (index + 1) = line (takeLine bytes).2 index := by
  rcases hspan : bytes.span (· != 0x0a) with ⟨front, back⟩
  obtain ⟨rfl, hfront, hback⟩ := Source.eq_append_of_span hspan
  rw [takeLine, hspan]
  cases back with
  | nil =>
      have hlines : (front ++ []).splitOn 0x0a = [front] := by
        rw [List.append_nil, List.splitOn_eq_singleton hfront]
      exact ⟨by rw [line, hlines]; rfl, fun index => by rw [line, hlines]; cases index <;> rfl⟩
  | cons newline back =>
      obtain rfl := hback newline rfl
      have hlines := List.splitOn_append_cons_self_of_not_mem hfront back
      exact ⟨by rw [line, hlines]; rfl, fun index => by rw [line, hlines]; rfl⟩

theorem legible_succ (bytes : List UInt8) (index : Nat) :
    Legible bytes (index + 1) ↔ Legible (takeLine bytes).2 index := by
  rw [Legible, Legible, (line_of_takeLine bytes).2]

theorem pause_of_none {console : Console} (h : console.terminal = none) (report : Report) :
    console.pause report = console := by
  rw [pause, h]

theorem foldl_pause_of_none {console : Console} (h : console.terminal = none)
    (reports : List Report) : reports.foldl pause console = console := by
  induction reports with
  | nil => rfl
  | cons report rest ih => rw [List.foldl_cons, pause_of_none h, ih]

/-- A line that is UTF-8 answers a prompt. -/
theorem pause_of_legible {console : Console} {bytes : List UInt8}
    (h : console.terminal = some bytes) (hline : Legible bytes 0) (report : Report) :
    console.pause report =
      { console with
        terminal := some (takeLine bytes).2
        shown := console.shown ++ prompt report } := by
  rw [Legible, (line_of_takeLine bytes).1, ← Text.Utf8.isWellFormed_iff] at hline
  rw [pause, h]
  simp only [answer, if_pos hline, put]

/-- A line that is not UTF-8 ends the prompts. -/
theorem pause_of_not_legible {console : Console} {bytes : List UInt8}
    (h : console.terminal = some bytes) (hline : ¬Legible bytes 0)
    (hfilter : console.filter.WarnsOnly) (report : Report) :
    console.pause report =
      { console with
        terminal := none
        shown := console.shown ++ prompt report ++
          (LogLine.warning (terminalFailed illFormedLine)).render } := by
  rw [Legible, (line_of_takeLine bytes).1, ← Text.Utf8.isWellFormed_iff] at hline
  rw [pause, h]
  simp only [answer, if_neg hline, put, log, hfilter.shows_warning, if_true]

/-- As long as every line is UTF-8, each report is met with a prompt and takes one line. -/
theorem foldl_pause_of_legible {console : Console} {bytes : List UInt8}
    (h : console.terminal = some bytes) (reports : List Report)
    (hlines : ∀ index < reports.length, Legible bytes index) :
    ∃ rest, reports.foldl pause console =
        { console with terminal := some rest, shown := console.shown ++ prompts reports } ∧
      ∀ index, line rest index = line bytes (reports.length + index) := by
  induction reports generalizing console bytes with
  | nil => exact ⟨bytes, by simp [prompts, ← h], fun index => by simp⟩
  | cons report reports ih =>
      have htake := (line_of_takeLine bytes).2
      have hpause := pause_of_legible h (hlines 0 (Nat.zero_lt_succ _)) report
      have hnext : (console.pause report).terminal = some (takeLine bytes).2 := by rw [hpause]
      obtain ⟨rest, hshown, hrest⟩ := ih hnext fun index hindex =>
        (legible_succ bytes index).mp (hlines (index + 1) (Nat.succ_lt_succ hindex))
      refine ⟨rest, ?_, fun index => ?_⟩
      · rw [List.foldl_cons, hshown, hpause, prompts_cons, String.append_assoc]
      · rw [hrest, ← htake, List.length_cons, Nat.add_right_comm]

/-- The first line that is not UTF-8 answers the last prompt. -/
theorem foldl_pause_of_not_legible {console : Console} {bytes : List UInt8}
    (h : console.terminal = some bytes) (hfilter : console.filter.WarnsOnly)
    {reports : List Report} {last : Nat} (hlast : last < reports.length)
    (hlines : ∀ index < last, Legible bytes index) (hill : ¬Legible bytes last) :
    reports.foldl pause console =
      { console with
        terminal := none
        shown := console.shown ++ prompts (reports.take (last + 1)) ++
          (LogLine.warning (terminalFailed illFormedLine)).render } := by
  induction last generalizing console bytes reports with
  | zero =>
      obtain ⟨report, rest, rfl⟩ := List.exists_cons_of_length_pos hlast
      rw [List.foldl_cons, pause_of_not_legible h hill hfilter, foldl_pause_of_none rfl,
        List.take_succ_cons, List.take_zero, prompts, List.map_cons, List.map_nil,
        String.join_cons, String.join_nil, String.append_empty]
  | succ last ih =>
      obtain ⟨report, rest, rfl⟩ := List.exists_cons_of_length_pos (Nat.zero_lt_of_lt hlast)
      have hpause := pause_of_legible h (hlines 0 (Nat.zero_lt_succ _)) report
      have hnext : (console.pause report).terminal = some (takeLine bytes).2 := by rw [hpause]
      have hshown := ih hnext (by rwa [hpause]) (Nat.lt_of_succ_lt_succ hlast)
        (fun index hindex =>
          (legible_succ bytes index).mp (hlines (index + 1) (Nat.succ_lt_succ hindex)))
        (mt (legible_succ bytes last).mpr hill)
      rw [List.foldl_cons, hshown, hpause, List.take_succ_cons, prompts_cons]
      simp only [String.append_assoc]

theorem log_filter (console : Console) (line : LogLine) :
    (console.log line).filter = console.filter := by
  rw [log]
  split <;> rfl

theorem pause_filter (console : Console) (report : Report) :
    (console.pause report).filter = console.filter := by
  rw [pause]
  split
  · rfl
  · simp only [answer]
    split
    · rfl
    · exact log_filter _ _

/-- A console that shows warnings alone passes over what a machine tells. -/
theorem foldl_receive {console : Console} (hfilter : console.filter.WarnsOnly)
    (entries : List Entry) :
    entries.foldl receive console = (Machine.reports entries).foldl pause console := by
  induction entries generalizing console with
  | nil => rfl
  | cons entry entries ih =>
      cases entry with
      | event event =>
          rw [List.foldl_cons, receive, log, hfilter.hides_event, if_neg Bool.false_ne_true,
            ih hfilter]
          rfl
      | report report =>
          rw [List.foldl_cons, receive, ih (by rwa [pause_filter])]
          rfl

theorem exists_first_not_legible {bytes : List UInt8} {index count : Nat} (hindex : index < count)
    (hill : ¬Legible bytes index) :
    ∃ last < count, ¬Legible bytes last ∧ ∀ index < last, Legible bytes index := by
  have hex : ∃ index, ¬Legible bytes index := ⟨index, hill⟩
  exact ⟨Nat.find hex, (Nat.find_min' hex hill).trans_lt hindex, Nat.find_spec hex,
    fun index hbefore => not_not.mp (Nat.find_min hex hbefore)⟩

end Console

namespace Session

/-- A session that is not verbose shows warnings alone, unless a filter is asked for. -/
theorem warnsOnly_filter {options : Options} (hquiet : options.verbose = false)
    {setting : Option String} (hsetting : setting.bind LogFilter.parse? = none) :
    (filter options setting).WarnsOnly := by
  rw [filter, hsetting, hquiet]
  exact LogFilter.warnsOnly_ofLevel

/-- In single-step mode a session prompts once after every instruction and takes one line of its
terminal each time, until a line is not UTF-8. Then it says so, once, and neither prompts nor reads
again. A prompt shows where the instruction stands and what it is called, and the pointer, the
current cell and the depth after it. If the log filter lets through warnings alone, nothing else is
said. -/
theorem prompts_until_terminal_fails {arguments : List String} {options : Options}
    {environment : Environment} (hrequest : request arguments = .inr options)
    (hstep : options.singleStep = true) (hquiet : options.verbose = false)
    (hlist : options.disassemble = false)
    (hfilter : (filter options environment.logSetting).WarnsOnly) {bytes : List UInt8}
    (hterminal : environment.terminal = some bytes) {program : Program} {input : Source}
    (hload : load options environment = (.ok program, input)) {fuel : Nat} {result : Run}
    (hrun : (Machine.start program options.bound false).run fuel input {} = some result)
    {halted : Halted} (hhalted : result.result = .ok halted) :
    ∃ (shown : Report → String) (diagnostics : String),
      (∀ report, shown report =
        "".pushn ' ' (6 - (toString report.position).length) ++ toString report.position ++ " " ++
          report.instruction.mnemonic.pushn ' ' (14 - report.instruction.mnemonic.length) ++
          " [ptr: " ++ toString report.pointer ++ "] [val: " ++ toString report.cell ++
          "] [depth: " ++ toString report.depth ++ "] ") ∧
      (∀ outcome, Leaves arguments environment outcome ↔
        outcome = ⟨0, result.sink.taken.toList, diagnostics⟩) ∧
      ((∀ index, Console.Legible bytes index) →
        diagnostics = String.join ((Machine.reports result.trace.toList).map shown)) ∧
      (∀ last, (∀ index < last, Console.Legible bytes index) → ¬Console.Legible bytes last →
        diagnostics =
          String.join (((Machine.reports result.trace.toList).take (last + 1)).map shown) ++
            if last < (Machine.reports result.trace.toList).length then
              " WARN bfvm: single-step disabled, terminal read failed: " ++
                "stream did not contain valid UTF-8\n"
            else "") ∧
      ∀ front back, result.trace.toList = front ++ back →
        ((∀ index < (Machine.reports front).length, Console.Legible bytes index) →
          ∃ rest, (front.foldl Console.receive (console options environment)).terminal =
              some rest ∧
            ∀ index, Console.line rest index =
              Console.line bytes ((Machine.reports front).length + index)) ∧
        ((∃ index < (Machine.reports front).length, ¬Console.Legible bytes index) →
          (front.foldl Console.receive (console options environment)).terminal = none) := by
  have hstart : console options environment =
      { filter := filter options environment.logSetting, terminal := some bytes } := by
    simp only [console, hstep, hterminal, if_true]
  have hopen : (console options environment).terminal = some bytes := by rw [hstart]
  have hwarns : (console options environment).filter.WarnsOnly := by rwa [hstart]
  have hleaves := (leaves_iff hrequest hload hlist).mpr ⟨fuel, result, hquiet ▸ hrun, rfl⟩
  rw [conclude_of_ok _ _ hhalted, hquiet, if_neg Bool.false_ne_true, if_neg Bool.false_ne_true,
    List.append_nil, String.append_empty, ← Array.foldl_toList,
    Console.foldl_receive hwarns] at hleaves
  refine ⟨prompt, _, fun _ => rfl, fun outcome => ⟨fun h => h.unique hleaves, fun h => h ▸ hleaves⟩,
    fun hlegible => ?_, fun last hlegible hill => ?_, fun front back _ => ?_⟩
  · obtain ⟨rest, hshown, -⟩ := Console.foldl_pause_of_legible hopen _ fun index _ =>
      hlegible index
    rw [hshown, hstart, String.empty_append, Console.prompts]
  · split
    · rename_i hlast
      rw [Console.foldl_pause_of_not_legible hopen hwarns hlast hlegible hill, hstart,
        String.empty_append, Console.prompts, Console.render_terminalFailed]
    · rename_i hlast
      obtain ⟨rest, hshown, -⟩ := Console.foldl_pause_of_legible hopen _
        fun index hindex => hlegible index (hindex.trans_le (not_lt.mp hlast))
      rw [hshown, hstart, String.empty_append, List.take_of_length_le (by omega),
        String.append_empty, Console.prompts]
  · rw [Console.foldl_receive hwarns]
    constructor
    · intro hlegible
      obtain ⟨rest, hshown, hrest⟩ := Console.foldl_pause_of_legible hopen _ hlegible
      exact ⟨rest, by rw [hshown], hrest⟩
    · rintro ⟨index, hindex, hill⟩
      obtain ⟨last, hlast, hill, hlegible⟩ := Console.exists_first_not_legible hindex hill
      rw [Console.foldl_pause_of_not_legible hopen hwarns hlast hlegible hill]

/-- `,[->+<].+` moves its input to the next cell. It is stepped through on a terminal that breaks
off a character at the end of its eighth line: there is a prompt for each of the eight instructions,
and the last `+` goes without one. -/
theorem prompts_until_terminal_fails_on_broken_character :
    ∃ (environment : Environment) (bytes : List UInt8),
      bytes = [0x0a, 0x0a, 0xc3, 0xa9, 0x0a, 0x0a, 0x0a, 0x0a, 0x0a, 0xc3, 0x0a, 0xa9, 0x0a] ∧
      environment.terminal = some bytes ∧ environment.logSetting = none ∧
      environment.input = [1] ∧
      environment.files "p".toUTF8.toList = .ok (Text.ascii ",[->+<].+") ∧
      (filter { file := some "p", singleStep := true } none).WarnsOnly ∧
      (∀ index < 7, Console.Legible bytes index) ∧ ¬Console.Legible bytes 7 ∧
      ∀ outcome, Leaves ["-d", "--file", "p"] environment outcome ↔
        outcome = ⟨0, [0],
          "     0 input          [ptr: 0] [val: 1] [depth: 0] " ++
            "     1 loop_start     [ptr: 0] [val: 1] [depth: 1] " ++
            "     2 decrement_cell [ptr: 0] [val: 0] [depth: 1] " ++
            "     3 move_right     [ptr: 1] [val: 0] [depth: 1] " ++
            "     4 increment_cell [ptr: 1] [val: 1] [depth: 1] " ++
            "     5 move_left      [ptr: 0] [val: 0] [depth: 1] " ++
            "     6 loop_end       [ptr: 0] [val: 0] [depth: 0] " ++
            "     7 output         [ptr: 0] [val: 0] [depth: 0] " ++
            " WARN bfvm: single-step disabled, terminal read failed: " ++
            "stream did not contain valid UTF-8\n"⟩ := by
  let bytes : List UInt8 :=
    [0x0a, 0x0a, 0xc3, 0xa9, 0x0a, 0x0a, 0x0a, 0x0a, 0x0a, 0xc3, 0x0a, 0xa9, 0x0a]
  let program : Program := ⟨(Text.ascii ",[->+<].+").toArray, by decide +kernel⟩
  let environment : Environment := {
    files := fun path =>
      if path = "p".toUTF8.toList then .ok program.text
      else .error "No such file or directory (os error 2)"
    input := [1]
    terminal := some bytes
    logSetting := none }
  have hfile : environment.files "p".toUTF8.toList = .ok program.text := if_pos rfl
  have hwarns : (filter { file := some "p", singleStep := true } none).WarnsOnly :=
    warnsOnly_filter rfl rfl
  have hlegible : ∀ index < 7, Console.Legible bytes index := by decide +kernel +zetaReduce
  have hill : ¬Console.Legible bytes 7 := by decide +kernel +zetaReduce
  have hrun : ((Machine.start program Tape.defaultBound false).run 10 [.data [1]] {}).map
      (fun result => (result.sink.taken.toList, Machine.reports result.trace.toList)) =
        some ([0], [⟨.input, 0, 1, 0, 1, 0⟩, ⟨.loopStart, 1, 2, 0, 1, 1⟩,
          ⟨.decrement, 2, 3, 0, 0, 1⟩, ⟨.right, 3, 4, 1, 0, 1⟩, ⟨.increment, 4, 5, 1, 1, 1⟩,
          ⟨.left, 5, 6, 0, 0, 1⟩, ⟨.loopEnd, 6, 7, 0, 0, 0⟩, ⟨.output, 7, 8, 0, 0, 0⟩,
          ⟨.increment, 8, 9, 0, 1, 0⟩]) := by
    decide +kernel +zetaReduce
  obtain ⟨result, hrun, hresult⟩ := Option.map_eq_some_iff.mp hrun
  obtain ⟨htaken, hreports⟩ := Prod.mk.inj hresult
  obtain ⟨halted, hhalted⟩ :=
    Machine.exists_halted_of_run hrun (Source.items_data _) Sink.unfailing_default
  obtain ⟨shown, diagnostics, hshown, hleaves, -, hbroken, -⟩ := prompts_until_terminal_fails
    (show request ["-d", "--file", "p"] =
      .inr { file := some "p", singleStep := true } by decide +kernel)
    rfl rfl rfl hwarns rfl (load_of_file rfl hfile) hrun hhalted
  obtain rfl : shown = prompt := funext hshown
  have hdiagnostics := hbroken 7 hlegible hill
  rw [hreports] at hdiagnostics
  refine ⟨environment, bytes, rfl, rfl, rfl, rfl, hfile, hwarns, hlegible, hill,
    fun outcome => ?_⟩
  rw [hleaves, htaken, hdiagnostics]
  exact Iff.of_eq (congrArg (fun text => outcome = ⟨0, [0], text⟩) (by decide +kernel))

end Session

end Cli

end ByteTape
