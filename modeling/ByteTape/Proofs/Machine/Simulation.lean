import ByteTape.Proofs.Machine.Path

/-!
# Comparing two runs

Two runs are compared through a relation on configurations and a relation on what the runs leave
behind. `Simulation R E` says that each byte taken from one configuration is answered from a related
one by some number of bytes, possibly none, and that a stop is answered by a stop of the same kind.
From one step this carries over to whole runs (`Simulation.ends`).

Since an answer may be empty, a simulation does not carry over a run that never ends. Two of them
do, one in each direction: a run either stops or never ends (`endless_or_ends`), so what stops on
neither side ends on neither side. `Simulation.run` puts this together for runs.
-/

namespace ByteTape

namespace Machine

/-- The machine comes to a stop, after leaving some entries. -/
def Ends (c : Configuration) (entries : List Entry) (outcome : Except Error Unit)
    (d : Configuration) : Prop :=
  ∃ n e, Path n c entries e ∧ Stops e outcome d

theorem Ends.unique {c d d' : Configuration} {entries entries' : List Entry}
    {outcome outcome' : Except Error Unit} (h : Ends c entries outcome d)
    (h' : Ends c entries' outcome' d') : entries = entries' ∧ outcome = outcome' ∧ d = d' := by
  obtain ⟨m, e, hpath, hstops⟩ := h
  obtain ⟨n, e', hpath', hstops'⟩ := h'
  exact hpath.unique_of_stops hstops hpath' hstops'

theorem endless_or_ends (c : Configuration) :
    Endless c ∨ ∃ entries outcome d, Ends c entries outcome d := by
  by_cases h : ∀ fuel, dispatch fuel c #[] = none
  · left
    intro n
    exact dispatch_eq_none_iff.mp (h n)
  · right
    rw [not_forall] at h
    obtain ⟨fuel, hfuel⟩ := h
    obtain ⟨⟨outcome, d, trace⟩, hsome⟩ := Option.ne_none_iff_exists'.mp hfuel
    obtain ⟨n, entries, e, -, hpath, hstops, -⟩ := dispatch_eq_some_iff.mp hsome
    exact ⟨entries, outcome, d, n, e, hpath, hstops⟩

theorem Ends.not_endless {c d : Configuration} {entries : List Entry}
    {outcome : Except Error Unit} (h : Ends c entries outcome d) : ¬Endless c := by
  intro hendless
  obtain ⟨n, e, hpath, hstops⟩ := h
  obtain ⟨entries', d', hlong⟩ := hendless (n + 1)
  exact Nat.not_succ_le_self n (hpath.length_le_of_stops hstops hlong)

theorem exists_ends_of_run {fuel : Nat} {machine : Machine} {source : Source} {sink : Sink}
    {result : Run} (h : machine.run fuel source sink = some result) :
    ∃ entries outcome d, Ends ⟨machine, source, sink⟩ entries outcome d ∧
      result = conclude outcome d entries.toArray := by
  obtain ⟨n, entries, e, outcome, d, -, hpath, hstops, hresult⟩ := run_eq_some_iff.mp h
  exact ⟨entries, outcome, d, ⟨n, e, hpath, hstops⟩, hresult⟩

theorem exists_run_of_ends {machine : Machine} {source : Source} {sink : Sink}
    {entries : List Entry} {outcome : Except Error Unit} {d : Configuration}
    (h : Ends ⟨machine, source, sink⟩ entries outcome d) :
    ∃ fuel, machine.run fuel source sink = some (conclude outcome d entries.toArray) := by
  obtain ⟨n, e, hpath, hstops⟩ := h
  exact ⟨n + 1, run_eq_some_iff.mpr
    ⟨n, entries, e, outcome, d, Nat.lt_succ_self n, hpath, hstops, rfl⟩⟩

/-- A run comes to the same whatever number of steps it may take, if that suffices. -/
theorem run_unique {fuel fuel' : Nat} {machine : Machine} {source : Source} {sink : Sink}
    {result result' : Run} (h : machine.run fuel source sink = some result)
    (h' : machine.run fuel' source sink = some result') : result = result' := by
  obtain ⟨entries, outcome, d, hends, rfl⟩ := exists_ends_of_run h
  obtain ⟨entries', outcome', d', hends', rfl⟩ := exists_ends_of_run h'
  obtain ⟨rfl, rfl, rfl⟩ := hends.unique hends'
  rfl

/-- Where two runs never end together, one ends if the other does. -/
theorem exists_run_of_endless_iff {machine machine' : Machine} {source source' : Source}
    {sink sink' : Sink}
    (h : (∀ fuel, machine.run fuel source sink = none) ↔
      ∀ fuel, machine'.run fuel source' sink' = none)
    {fuel : Nat} {result : Run} (hrun : machine.run fuel source sink = some result) :
    ∃ fuel' result', machine'.run fuel' source' sink' = some result' := by
  by_contra hnone
  simp only [not_exists, ← ne_eq, ← Option.eq_none_iff_forall_ne_some] at hnone
  rw [h.mpr hnone fuel] at hrun
  cases hrun

/-- What happens from one configuration happens from a related one, up to how many bytes it takes
and up to what the relation on entries overlooks. -/
structure Simulation (R : Configuration → Configuration → Prop)
    (E : List Entry → List Entry → Prop) : Prop where
  nil : E [] []
  append {entries entries' rest rest' : List Entry} (h : E entries entries')
    (hrest : E rest rest') : E (entries ++ rest) (entries' ++ rest')
  advance {c c' d : Configuration} {entries : List Entry} (h : R c d)
    (hstep : step c = .advanced c' entries) :
    ∃ n entries' d', Path n d entries' d' ∧ R c' d' ∧ E entries entries'
  stops {c c' d : Configuration} {outcome : Except Error Unit} (h : R c d)
    (hstops : Stops c outcome c') :
    ∃ n d' d'', Path n d [] d' ∧ Stops d' outcome d'' ∧ R c' d''

section

variable {R R' : Configuration → Configuration → Prop} {E E' : List Entry → List Entry → Prop}
  {c d : Configuration}

namespace Simulation

theorem path (hsim : Simulation R E) {n : Nat} {entries : List Entry} {c' : Configuration}
    (h : R c d) (hpath : Path n c entries c') :
    ∃ m entries' d', Path m d entries' d' ∧ R c' d' ∧ E entries entries' := by
  induction hpath generalizing d with
  | nil c => exact ⟨0, [], d, .nil d, h, hsim.nil⟩
  | cons hstep _ ih =>
      obtain ⟨m, front, d', hfront, h', hE⟩ := hsim.advance h hstep
      obtain ⟨k, back, d'', hback, h'', hE'⟩ := ih h'
      exact ⟨m + k, front ++ back, d'', hfront.append hback, h'', hsim.append hE hE'⟩

/-- A run that stops is answered by one that stops in the same way. -/
theorem ends (hsim : Simulation R E) {entries : List Entry} {outcome : Except Error Unit}
    {c' : Configuration} (h : R c d) (hends : Ends c entries outcome c') :
    ∃ entries' d', Ends d entries' outcome d' ∧ R c' d' ∧ E entries entries' := by
  obtain ⟨n, e, hpath, hstops⟩ := hends
  obtain ⟨m, entries', d', hpath', h', hE⟩ := hsim.path h hpath
  obtain ⟨k, f, d'', hlast, hstops', h''⟩ := hsim.stops h' hstops
  refine ⟨entries', d'', ⟨m + k, f, ?_, hstops'⟩, h'', hE⟩
  simpa using hpath'.append hlast

theorem endless (hsim : Simulation R E) (h : R d c) (hendless : Endless c) : Endless d := by
  rcases endless_or_ends d with hd | ⟨entries, outcome, d', hends⟩
  · exact hd
  · obtain ⟨entries', c', hends', -⟩ := hsim.ends h hends
    exact absurd hendless hends'.not_endless

/-- Two runs that answer each other either both never end, or they end in the same way, with
related configurations and entries. -/
theorem run (hsim : Simulation R E) (hsim' : Simulation R' E') {machine machine' : Machine}
    {source source' : Source} {sink sink' : Sink}
    (h : R ⟨machine, source, sink⟩ ⟨machine', source', sink'⟩)
    (h' : R' ⟨machine', source', sink'⟩ ⟨machine, source, sink⟩) :
    ((∀ fuel, machine.run fuel source sink = none) ↔
      ∀ fuel, machine'.run fuel source' sink' = none) ∧
    ∀ fuel fuel' first second, machine.run fuel source sink = some first →
      machine'.run fuel' source' sink' = some second →
      ∃ entries entries' outcome c d,
        Ends ⟨machine, source, sink⟩ entries outcome c ∧
        Ends ⟨machine', source', sink'⟩ entries' outcome d ∧ R c d ∧ E entries entries' ∧
        first = conclude outcome c entries.toArray ∧
        second = conclude outcome d entries'.toArray := by
  constructor
  · rw [run_eq_none_iff_endless, run_eq_none_iff_endless]
    exact ⟨hsim'.endless h', hsim.endless h⟩
  · intro fuel fuel' first second hfirst hsecond
    obtain ⟨entries, outcome, c, hends, rfl⟩ := exists_ends_of_run hfirst
    obtain ⟨_, _, _, hends', rfl⟩ := exists_ends_of_run hsecond
    obtain ⟨entries', d, hanswer, hR, hE⟩ := hsim.ends h hends
    obtain ⟨rfl, rfl, rfl⟩ := hanswer.unique hends'
    exact ⟨entries, entries', outcome, c, d, hends, hends', hR, hE, rfl, rfl⟩

end Simulation

end

end Machine

end ByteTape
