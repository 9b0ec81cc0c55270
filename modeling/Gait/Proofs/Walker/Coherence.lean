import Gait.Link.Memory
import Gait.Proofs.Session

/-!
# Coherent walkers

The registry, the run, the stop flag and the activity are separate parts of a walker that different
operations change.  `Walker.Coherent` says how they fit together, `Performs.coherent` that every
operation keeps it, on its refusals too, and `activity_of_run` what it means for the activity.  The
main statement collects this for every session that can be reached.
-/

namespace Gait

theorem Registry.mem_of_get? {r : Registry} {name : String} {p : Program}
    (found : r.get? name = some p) : (name, p) ∈ r.entries := by
  obtain ⟨before, behind, entries, -⟩ := List.lookup_eq_some_iff.1 found
  rw [entries]
  exact List.mem_append_right _ List.mem_cons_self

theorem Registry.contains_insert {r : Registry} {name other : String} {p : Program}
    (contained : r.contains name = true) : (r.insert other p).contains name = true := by
  unfold contains at contained ⊢
  by_cases same : name = other
  · rw [same, get?_insert_self]
    rfl
  · rwa [get?_insert_of_ne r p same]

namespace Walker

variable {L : Type}

/-- How the parts of a walker fit together. -/
structure Coherent (w : Walker L) : Prop where
  /-- Every program can be played and stands under its own name. -/
  registered : ∀ e ∈ w.registry.entries, e.2.name = e.1 ∧ ∃ mode, e.2.mode = .ok mode
  /-- What is selected is registered. -/
  selected : ∀ run, w.run = some run → w.registry.contains run.name = true
  /-- The walker is stopped when nothing is selected. -/
  stopped : w.isStopped = true ↔ w.run = none

namespace Coherent

variable {w : Walker L}

theorem selected?_of_run (coherent : w.Coherent) {run : Run} (running : w.run = some run) :
    ∃ p mode, w.registry.get? run.name = some p ∧ w.selected? = some p ∧ p.mode = .ok mode := by
  obtain ⟨p, found⟩ := Option.isSome_iff_exists.1 (coherent.selected run running)
  obtain ⟨-, mode, valid⟩ := coherent.registered _ (Registry.mem_of_get? found)
  exact ⟨p, mode, found, by simp [selected?, selectedName?, running, found], valid⟩

/-- The activity shows the mode of the registered program and whether a stop was requested. -/
theorem activity_of_run (coherent : w.Coherent) {run : Run} (running : w.run = some run) :
    ∃ p mode, w.registry.get? run.name = some p ∧ p.mode = .ok mode ∧
      w.activity =
        if w.shouldStop then .stopping mode run.phase else .running mode run.phase := by
  obtain ⟨p, mode, found, selected, valid⟩ := coherent.selected?_of_run running
  refine ⟨p, mode, found, valid, ?_⟩
  simp [activity, running, selected, Program.mode?_eq_some_of_mode valid]

theorem activity_eq_idle_iff (coherent : w.Coherent) :
    w.activity = .idle ↔ w.selectedName? = none := by
  rw [selectedName?_eq_none_iff]
  constructor
  · intro idle
    cases running : w.run with
    | none => rfl
    | some run =>
        obtain ⟨p, mode, -, -, activity⟩ := coherent.activity_of_run running
        rw [idle] at activity
        split at activity <;> cases activity
  · intro stopped
    simp [activity, stopped]

theorem selected?_eq_none_iff (coherent : w.Coherent) :
    w.selected? = none ↔ w.selectedName? = none := by
  rw [selectedName?_eq_none_iff]
  constructor
  · intro none
    cases running : w.run with
    | none => rfl
    | some run =>
        obtain ⟨p, mode, -, selected, -⟩ := coherent.selected?_of_run running
        cases none.symm.trans selected
  · intro stopped
    simp [selected?, selectedName?, stopped]

/-! ### Operations keep it -/

theorem of_eq {w' : Walker L} (coherent : w.Coherent) (registry : w'.registry = w.registry)
    (name : w'.selectedName? = w.selectedName?) (stopped : w'.isStopped = w.isStopped) :
    w'.Coherent where
  registered := registry ▸ coherent.registered
  selected := by
    intro run running
    have selectedName : w.selectedName? = some run.name := by
      rw [← name, selectedName?, running]
      rfl
    obtain ⟨old, oldRunning, same⟩ := Option.map_eq_some_iff.1 selectedName
    rw [registry, ← same]
    exact coherent.selected old oldRunning
  stopped := by
    rw [stopped, ← selectedName?_eq_none_iff, name, selectedName?_eq_none_iff]
    exact coherent.stopped

theorem insert (coherent : w.Coherent) {p : Program} (valid : ∃ mode, p.mode = .ok mode) :
    { w with registry := w.registry.insert p.name p }.Coherent := by
  refine ⟨fun e stored => ?_, fun run running => ?_, coherent.stopped⟩
  · rcases Registry.mem_insert stored with rfl | old
    · exact ⟨rfl, valid⟩
    · exact coherent.registered e old
  · exact Registry.contains_insert (coherent.selected run running)

theorem start (coherent : w.Coherent) {name : String}
    (registered : w.registry.contains name = true) (now : Nat) : (w.start now name).Coherent := by
  refine ⟨coherent.registered, fun run running => ?_, by simp [Walker.start]⟩
  cases running
  exact registered

theorem nextStep (coherent : w.Coherent) (now : Nat) : (w.nextStep now).2.Coherent := by
  obtain ⟨run, eq, name⟩ := nextStep_eq w now
  rw [eq]
  exact coherent.of_eq rfl name rfl

theorem isStopped_of_selected? (coherent : w.Coherent) {p : Program}
    (selected : w.selected? = some p) : w.isStopped = false := by
  rw [← Bool.not_eq_true, coherent.stopped, ← selectedName?_eq_none_iff,
    ← coherent.selected?_eq_none_iff, selected]
  nofun

variable [Link L]

theorem tick (coherent : w.Coherent) (now : Nat) : (w.tick now).2.Coherent := by
  have replied : w.takeReply.Coherent := coherent.of_eq rfl rfl rfl
  rcases tick_cases w now with ⟨-, eq⟩ | ⟨p, selected, ⟨-, eq⟩ | ⟨-, step, -, eq⟩ | ⟨-, -, eq⟩⟩
  · rw [eq]
    exact replied
  · rw [eq]
    exact replied
  · rw [eq]
    exact coherent.of_eq rfl selectedName?_played (coherent.isStopped_of_selected? selected).symm
  · rw [eq]
    exact ⟨coherent.registered, nofun, by simp [ended]⟩

/-- An idle tick shows that nothing is selected. -/
theorem tick_eq_idle_iff (coherent : w.Coherent) (now : Nat) :
    (w.tick now).1 = .idle ↔ w.selectedName? = none := by
  rw [← coherent.selected?_eq_none_iff]
  rcases tick_cases w now with
    ⟨none, eq⟩ | ⟨p, selected, ⟨-, eq⟩ | ⟨-, step, -, eq⟩ | ⟨-, -, eq⟩⟩
  · simp [eq, none]
  · simp [eq, selected]
  · rw [eq, selected]
    refine ⟨fun idle => ?_, nofun⟩
    have plays := plays_playStatus (w.takeReply.transmitter.run (Transmitter.sendStep step)).1
    rw [show playStatus _ = Status.idle from idle] at plays
    cases plays
  · simp [eq, selected]

end Coherent

end Walker

namespace Session

variable {L : Type}

/-! ## Sessions -/

theorem coherent_start (link : L) (policy : SelectPolicy) :
    (start link policy).walker.Coherent where
  registered := nofun
  selected := nofun
  stopped := by simp [start]

variable [Link L]

/-- Every operation keeps a walker coherent, whether it is carried out or refused. -/
theorem Performs.coherent {σ σ' : Session L} {op : Operation} {outcome : Outcome}
    (performs : Performs σ op outcome σ') (coherent : σ.walker.Coherent) : σ'.walker.Coherent := by
  cases performs with
  | registers p valid => exact coherent.insert valid
  | loads files path p valid => exact coherent.insert valid
  | selects name registered free => exact coherent.start registered σ.clock.now
  | refusesRegister | refusesLoad | refusesSelect | refusesDeselect => exact coherent
  | deselects running => exact coherent.of_eq rfl rfl rfl
  | requests => exact coherent.of_eq rfl rfl rfl
  | ticks => exact coherent.tick σ.clock.now
  | steps => exact coherent.nextStep σ.clock.now
  | sends step => exact coherent.of_eq rfl rfl rfl
  | waits milliseconds => exact coherent.of_eq rfl rfl rfl
  | advances microseconds => exact coherent

theorem Reachable.coherent {σ : Session L} (reachable : σ.Reachable) : σ.walker.Coherent := by
  induction reachable with
  | start link policy => exact coherent_start link policy
  | @perform σ _ op ih => exact (σ.performs op).coherent ih

/-- What holds in every session that can be reached: every registered program can be played and
stands under its own name; what is selected is registered; the walker is stopped, its activity idle
and every tick idle just when nothing is selected; otherwise the activity shows the mode of the
program that is now registered under the selected name, and whether a stop was requested. -/
theorem walker_of_reachable {σ : Session L} (reachable : σ.Reachable) :
    (∀ e ∈ σ.walker.registry.entries, e.2.name = e.1 ∧ ∃ mode, e.2.mode = .ok mode) ∧
      (∀ name, σ.walker.selectedName? = some name → σ.walker.registry.contains name = true) ∧
      (σ.walker.isStopped = true ↔ σ.walker.selectedName? = none) ∧
      (σ.walker.activity = .idle ↔ σ.walker.selectedName? = none) ∧
      (∀ run, σ.walker.run = some run →
        ∃ p mode, σ.walker.registry.get? run.name = some p ∧ p.mode = .ok mode ∧
          σ.walker.activity =
            if σ.walker.shouldStop then .stopping mode run.phase else .running mode run.phase) ∧
      ∀ now, (σ.walker.tick now).1 = .idle ↔ σ.walker.selectedName? = none := by
  have coherent := reachable.coherent
  refine ⟨coherent.registered, fun name selected => ?_, ?_, coherent.activity_eq_idle_iff,
    fun run running => coherent.activity_of_run running, coherent.tick_eq_idle_iff⟩
  · obtain ⟨run, running, rfl⟩ := Option.map_eq_some_iff.1 selected
    exact coherent.selected run running
  · rw [Walker.selectedName?_eq_none_iff]
    exact coherent.stopped

theorem walker_of_stopping :
    let wave : Program := { name := "wave", use := some "prg" }
    let σ : Session Link.Recording :=
      (start {} .replace).after [.register wave, .select "wave", .requestStop]
    σ.Reachable ∧ σ.walker.activity = .stopping .prg .setup ∧
      σ.walker.registry.contains "wave" = true ∧ ∀ now, (σ.walker.tick now).1 ≠ .idle := by
  intro wave σ
  have reachable : σ.Reachable := (Reachable.start (L := Link.Recording) {} .replace).after _
  obtain ⟨-, contained, -, -, -, idle⟩ := walker_of_reachable reachable
  refine ⟨reachable, by decide, contained "wave" (by decide), fun now isIdle => ?_⟩
  cases (idle now).1 isIdle

end Session

end Gait
