import ByteTape.Cli.Session
import ByteTape.Proofs.Machine.Halting

/-!
# What a session leaves behind

A session ends in one of three ways: its program cannot be loaded, its program is listed, or its
program is run. The first two need no steps at all (`run_of_rejected`, `run_of_listed`). The third
ends if the run does, and then the exit code and the bytes on standard output come from the run
alone: what the console shows is a matter of its own (`conclude_of_ok`). Nothing that a session
reads or writes can fail, so every run of it that ends halts.

`Leaves` says that a session leaves something behind, whatever number of steps that takes.
-/

namespace ByteTape

namespace Machine

/-- A run on nothing but bytes that ends halts, if its sink never fails. -/
theorem exists_halted_of_run {fuel : Nat} {machine : Machine} {source : Source} {sink : Sink}
    {result : Run} (hrun : machine.run fuel source sink = some result) {bytes : List UInt8}
    (hbytes : source.items = bytes.map .byte) (hsink : sink.Unfailing) :
    ∃ halted, result.result = .ok halted :=
  exists_halted_of_unfailing hrun (Source.unfailing_of_bytes hbytes) hsink

end Machine

namespace Cli

namespace Session

/-- What a session leaves behind, if it comes to an end: some number of steps suffices for it. -/
def Leaves (arguments : List String) (environment : Environment) (outcome : Outcome) : Prop :=
  ∃ fuel, run fuel arguments environment = some outcome

variable {arguments : List String} {options : Options} {environment : Environment}

theorem load_of_file {path : String}
    (hpath : options.file = some path) {program : Program}
    (hfile : environment.files path.toUTF8.toList = .ok program.text) :
    load options environment = (.ok program, [.data environment.input]) := by
  simp only [load, hpath, hfile, Program.ofFile, (Program.ofText_eq_ok_iff _ program).mpr rfl]

theorem run_of_rejected (hrequest : request arguments = .inr options) {error : Error}
    (hload : (load options environment).1 = .error error) (fuel : Nat) :
    run fuel arguments environment = some ⟨1, [], error.message ++ "\n"⟩ := by
  rcases h : load options environment with ⟨result, rest⟩
  rw [h] at hload
  simp only at hload
  simp only [run, hrequest, h, hload]

theorem run_of_listed (hrequest : request arguments = .inr options) {program : Program}
    (hload : (load options environment).1 = .ok program) (hlist : options.disassemble = true)
    (fuel : Nat) : run fuel arguments environment = some ⟨0, disassembly program, ""⟩ := by
  rcases h : load options environment with ⟨result, rest⟩
  rw [h] at hload
  simp only at hload
  simp only [run, hrequest, h, hload, hlist, if_true]

theorem run_of_accepted (hrequest : request arguments = .inr options) {program : Program}
    {input : Source} (hload : load options environment = (.ok program, input))
    (hlist : options.disassemble = false) (fuel : Nat) :
    run fuel arguments environment = execute fuel options environment program input := by
  simp [run, hrequest, hload, hlist]

/-- The session of a program that is run leaves something behind if the run ends. -/
theorem leaves_iff (hrequest : request arguments = .inr options) {program : Program}
    {input : Source} (hload : load options environment = (.ok program, input))
    (hlist : options.disassemble = false) {outcome : Outcome} :
    Leaves arguments environment outcome ↔
      ∃ fuel result,
        (Machine.start program options.bound options.verbose).run fuel input {} = some result ∧
        conclude options (result.trace.foldl Console.receive (console options environment)) result =
          outcome := by
  simp only [Leaves, run_of_accepted hrequest hload hlist, execute, Option.map_eq_some_iff]

/-- A session leaves one thing behind, whatever number of steps it may take. -/
theorem Leaves.unique {outcome outcome' : Outcome} (h : Leaves arguments environment outcome)
    (h' : Leaves arguments environment outcome') : outcome = outcome' := by
  obtain ⟨fuel, hrun⟩ := h
  obtain ⟨fuel', hrun'⟩ := h'
  cases hrequest : request arguments with
  | inl settled =>
      simp only [run, hrequest] at hrun hrun'
      exact Option.some.inj (hrun.symm.trans hrun')
  | inr options =>
      rcases hload : load options environment with ⟨error | program, input⟩
      · rw [run_of_rejected hrequest (congrArg Prod.fst hload)] at hrun hrun'
        exact Option.some.inj (hrun.symm.trans hrun')
      · cases hlist : options.disassemble with
        | true =>
            rw [run_of_listed hrequest (congrArg Prod.fst hload) hlist] at hrun hrun'
            exact Option.some.inj (hrun.symm.trans hrun')
        | false =>
            obtain ⟨_, result, hresult, rfl⟩ :=
              (leaves_iff hrequest hload hlist).mp ⟨fuel, hrun⟩
            obtain ⟨_, result', hresult', rfl⟩ :=
              (leaves_iff hrequest hload hlist).mp ⟨fuel', hrun'⟩
            rw [Machine.run_unique hresult hresult']

/-- What the session of a run that halted leaves behind. -/
theorem conclude_of_ok (options : Options) (console : Console) {result : Run} {halted : Halted}
    (h : result.result = .ok halted) :
    conclude options console result =
      ⟨0, result.sink.taken.toList ++ if options.verbose then [0x0a] else [],
        console.shown ++
          if options.verbose then summary result.machine.program halted else ""⟩ := by
  simp only [conclude, h]
  split <;> simp

end Session

end Cli

end ByteTape
