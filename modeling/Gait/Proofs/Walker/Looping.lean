import Gait.Proofs.Walker.Tracks
import Gait.Proofs.Walker.Waiting

/-!
# Looping over motion functions

A looping program of mode `mot` never ends by itself.  Three things have to come together: the mode
guarantees a function for every servo, a walk file only holds forward functions, and a track of
forward functions has a value at every instant if it loops (`Track.next_of_forward`).  So there is
always a next step (`Run.next_of_looping`); `Walker.Loops` is the invariant that keeps this true
from one operation to the next, as long as nobody disturbs the program or requests a stop.
-/

namespace Gait

namespace Program

variable {p : Program}

theorem emptyTrack?_eq_none (computed : p.mode = .ok .mot) : p.emptyTrack? = none := by
  unfold mode at computed
  split at computed
  · cases computed
  · next word _ =>
    cases asked : Mode.ofText? word with
    | none =>
        rw [asked] at computed
        cases computed
    | some mode =>
        cases empty : p.emptyTrack? with
        | none => rfl
        | some servo =>
            rw [asked, empty] at computed
            cases mode <;> cases computed

/-- What is played in mode `mot` has functions for every servo. -/
theorem get_tracks_ne_nil (computed : p.mode = .ok .mot) (servo : Fin servoCount) :
    p.tracks.get servo ≠ [] := by
  have member : p.tracks.get servo ∈ p.tracks.toList :=
    Vector.mem_toList_iff.2 (Vector.getElem_mem servo.isLt)
  exact List.isEmpty_eq_false_iff.1
    (List.findIdx?_eq_none_iff.1 (emptyTrack?_eq_none computed) _ member)

end Program

namespace Run

variable {run : Run} {p : Program} {now : Int}

/-- If every track has a value, the values make a step. -/
theorem nextComputed_of_values {again : Bool} (values : ∀ servo : Fin servoCount,
      ((p.tracks.get servo).next again (run.anchors.get servo) now).1.isSome = true) :
    ∃ step, (run.nextComputed p again now).1 = some step := by
  unfold nextComputed
  dsimp only
  rw [List.findIdx?_eq_none_iff.2 fun sample member => ?_]
  · exact ⟨_, rfl⟩
  · obtain ⟨servo, rfl⟩ := Vector.mem_ofFn.1 (Vector.mem_toList_iff.1 member)
    rw [← Option.not_isSome, values servo]
    rfl

/-- A looping program of mode `mot` always has a next step, if its functions are forward and no stop
was requested. -/
theorem next_of_looping (computed : p.mode = .ok .mot) (looping : p.looping = true)
    (forward : p.Forward) (started : 0 ≤ now) (bounded : now ≤ instantMax) :
    ∃ step, (run.next p .mot false now).1 = some step := by
  -- The phase only decides from which anchors the tracks are asked, and any anchors will do.
  have main (run : Run) : ∃ step, (run.nextMain p .mot false now).1 = some step := by
    unfold nextMain
    rw [looping]
    refine nextComputed_of_values fun servo => ?_
    obtain ⟨f, later, track⟩ := List.exists_cons_of_ne_nil (p.get_tracks_ne_nil computed servo)
    obtain ⟨value, after, next, -⟩ := Track.next_of_forward (track ▸ forward servo) started bounded
      (run.anchors.get servo)
    rw [track]
    exact Option.isSome_of_mem (congrArg Prod.fst next)
  unfold next
  split
  · exact ⟨_, rfl⟩
  · exact main _
  · exact main _

end Run

namespace Walker

variable {L : Type}

/-- A looping program of mode `mot` with forward functions is selected, and no stop was
requested. -/
structure Loops (w : Walker L) (name : String) (p : Program) : Prop where
  computed : p.mode = .ok .mot
  looping : p.looping = true
  forward : p.Forward
  registered : w.registry.get? name = some p
  selected : w.selectedName? = some name
  unasked : w.shouldStop = false

namespace Loops

variable {w : Walker L} {name : String} {p : Program}

theorem of_eq {w' : Walker L} (loops : w.Loops name p)
    (registered : w'.registry.get? name = w.registry.get? name)
    (selected : w'.selectedName? = w.selectedName?) (unasked : w'.shouldStop = w.shouldStop) :
    w'.Loops name p where
  computed := loops.computed
  looping := loops.looping
  forward := loops.forward
  registered := registered.trans loops.registered
  selected := selected.trans loops.selected
  unasked := unasked.trans loops.unasked

theorem insert {other : Program} (loops : w.Loops name p)
    (elsewhere : (other.name == name) = false) :
    { w with registry := w.registry.insert other.name other }.Loops name p :=
  loops.of_eq (Registry.get?_insert_elsewhere elsewhere) rfl rfl

theorem selected?_ne_none (loops : w.Loops name p) : w.selected? ≠ none := by
  rw [selected?, loops.selected, Option.bind_some, loops.registered]
  exact Option.some_ne_none p

theorem nextStep (loops : w.Loops name p) (now : Nat) :
    ∃ step, (w.nextStep now).1 = some step := by
  obtain ⟨run, running, rfl⟩ := Option.map_eq_some_iff.1 loops.selected
  obtain ⟨started, bounded⟩ := instantOfCount_mem now
  rw [nextStep_of_run now running loops.registered
    (Program.mode?_eq_some_of_mode loops.computed), loops.unasked]
  exact Run.next_of_looping loops.computed loops.looping loops.forward started bounded

end Loops

end Walker

namespace Session

variable {L : Type} [Link L]

open Walker

variable {σ σ' : Session L} {name : String} {p : Program}

/-- A tick that fires at all plays a step. -/
theorem Ticks.loops {firing : Option Firing} (ticks : σ.Ticks firing σ')
    (loops : σ.walker.Loops name p) : σ'.walker.Loops name p ∧ firing ≠ some .finish := by
  cases ticks with
  | rests => exact ⟨loops.of_eq rfl rfl rfl, nofun⟩
  | plays => exact ⟨loops.of_eq rfl selectedName?_played rfl, nofun⟩
  | ends _ _ none =>
      obtain ⟨step, next⟩ := loops.nextStep σ.clock.now
      cases none.symm.trans next

theorem Performs.loops {op : Operation} {outcome : Outcome}
    (performs : Performs σ op outcome σ') (loops : σ.walker.Loops name p)
    (undisturbed : op.disturbs name outcome = false) (unasked : outcome ≠ .stopRequested) :
    σ'.walker.Loops name p ∧ outcome.firing? ≠ some .finish := by
  cases performs with
  | registers other valid => exact ⟨loops.insert undisturbed, nofun⟩
  | loads files path other valid => exact ⟨loops.insert undisturbed, nofun⟩
  | selects | steps => cases undisturbed
  | deselects | requests => exact (unasked rfl).elim
  | ticks => exact σ.ticks.loops loops
  | sends step => exact ⟨loops.of_eq rfl rfl rfl, nofun⟩
  | waits milliseconds => exact ⟨loops.of_eq rfl rfl rfl, nofun⟩
  | refusesRegister | refusesLoad | refusesSelect | refusesDeselect | advances =>
      exact ⟨loops, nofun⟩

/-- The program goes on looping, and no cycle ends. -/
theorem loops_after (loops : σ.walker.Loops name p) (ops : List Operation)
    (undisturbed : ∀ e ∈ σ.history ops, e.1.disturbs name e.2 = false)
    (unasked : ∀ e ∈ σ.history ops, e.2 ≠ .stopRequested) :
    (σ.after ops).walker.Loops name p ∧ .finish ∉ firings (σ.history ops) := by
  induction ops generalizing σ with
  | nil => exact ⟨loops, nofun⟩
  | cons op ops ih =>
      obtain ⟨undisturbedHere, undisturbedLater⟩ := List.forall_mem_cons.1 undisturbed
      obtain ⟨unaskedHere, unaskedLater⟩ := List.forall_mem_cons.1 unasked
      obtain ⟨loops', unfinished⟩ := (σ.performs op).loops loops undisturbedHere unaskedHere
      obtain ⟨loops'', later⟩ := ih loops' undisturbedLater unaskedLater
      refine ⟨loops'', ?_⟩
      rw [history]
      cases fires : (σ.perform op).1.firing? with
      | none =>
          rw [firings_cons_none fires]
          exact later
      | some firing =>
          rw [firings_cons_some fires, List.mem_cons, not_or]
          exact ⟨fun same => unfinished (fires.trans (congrArg some same.symm)), later⟩

/-- A looping program of mode `mot` that some walk file holds never ends by itself.  From its
selection on, whatever is done to the walker short of disturbing the program or requesting a stop,
and whatever the link does, no firing ends the cycle, every firing plays a step, and a tick fires
just when the wait is over.

This rests on what a looping track gives.  If its functions have bounds as they are read, it has a
value at every instant for every anchor; the anchor stays if a function covers the time elapsed
since, and otherwise becomes one from which the start of the first function has elapsed. -/
theorem firings_of_looping :
    (∀ {L : Type} [Link L] {σ σ₀ : Session L} {name : String} {p : Program}, p.Written →
      p.mode = .ok .mot → p.looping = true → σ.walker.registry.get? name = some p →
      σ.perform (.select name) = (.selected, σ₀) → ∀ ops : List Operation,
      (∀ e ∈ σ₀.history ops, e.1.disturbs name e.2 = false ∧ e.2 ≠ .stopRequested) →
        (∀ firing ∈ firings (σ₀.history ops), ∃ step, firing = .step step) ∧
        (((σ₀.after ops).perform .tick).1.firing?.isSome = true ↔ (σ₀.after ops).Due)) ∧
    ∀ (f : MotionFunction) (later : Track), (∀ g ∈ f :: later, MotionFunction.Forward g) →
      ∀ now : Int, 0 ≤ now → now ≤ instantMax → ∀ anchor : Int,
        ∃ value after, Track.next (f :: later) true anchor now = (some value, after) ∧
          ((∃ g ∈ f :: later, g.covers (elapsed now anchor) = true) → after = anchor) ∧
          ((∀ g ∈ f :: later, g.covers (elapsed now anchor) = false) → now - after = f.first) := by
  refine ⟨?_, fun _ _ forward _ started => Track.next_of_forward forward started⟩
  intro L _ σ σ₀ name p written computed looping registered selected ops undisturbed
  have performs := σ.performs (.select name)
  rw [selected] at performs
  have loops : σ₀.walker.Loops name p := by
    cases performs with
    | selects => exact ⟨computed, looping, written.forward, registered, rfl, rfl⟩
  obtain ⟨loops', unfinished⟩ := loops_after loops ops (fun e member => (undisturbed e member).1)
    fun e member => (undisturbed e member).2
  refine ⟨fun firing fired => ?_, (σ₀.after ops).ticks.isSome_iff loops'.selected?_ne_none⟩
  cases firing with
  | step step => exact ⟨step, rfl⟩
  | finish => exact (unfinished fired).elim

theorem firings_of_swaying :
    let lines : List String := ["[info]", "Looping=yes", "Use=mot", "[end]"] ++
      (List.range servoCount).flatMap fun n =>
        [s!"[m{n}]", "-", "Interval=5,10", "Function=t", "[end]"]
    let text := String.ofList (['\n'].intercalate (lines.map String.toList))
    let sway := (WalkFile.read text).program
    let σ : Session Link.Failing :=
      { walker := { transmitter := { link := {} }, registry := Registry.empty.insert "sway" sway } }
    let σ₀ := { σ with walker := σ.walker.start σ.clock.now "sway" }
    let ops : List Operation := [.tick, .advance 30000, .setWait 0]
    let f : MotionFunction := ⟨⟨"t", .time⟩, 5, 10, by decide⟩
    sway.mode = .ok .mot ∧ sway.looping = true ∧
      σ.perform (.select "sway") = (.selected, σ₀) ∧
      (∀ firing ∈ firings (σ₀.history ops), ∃ step, firing = .step step) ∧
      ((σ₀.after ops).perform .tick).1.firing?.isSome = true ∧
      ∃ value, Track.next [f] true 10 40 = (some value, 35) := by
  intro lines text sway σ σ₀ ops f
  have written : sway.Written := WalkFile.written_read text
  have read : sway = (WalkFile.Reading.feedAll {} 1
      (WalkFile.lines (['\n'].intercalate (lines.map String.toList)))).program :=
    congrArg WalkFile.Reading.program (WalkFile.read_ofList _)
  have computed : sway.mode = .ok .mot := by
    rw [read]
    decide +kernel
  have looping : sway.looping = true := by
    rw [read]
    decide +kernel
  have registered : σ.walker.registry.get? "sway" = some sway := Registry.get?_insert_self _ _ _
  have contained : σ.walker.registry.contains "sway" = true := by
    rw [Registry.contains, registered]
    rfl
  have selected : σ.perform (.select "sway") = (.selected, σ₀) := by
    rw [perform, Walker.select, if_pos contained]
  have due : (σ₀.after ops).Due := Nat.zero_le _
  clear_value sway
  have undisturbed (σ : Session Link.Failing) : ∀ e ∈ σ.history ops,
      e.1.disturbs "sway" e.2 = false ∧ e.2 ≠ .stopRequested := by
    simp [ops, history, perform, Operation.disturbs]
  obtain ⟨plays, fires⟩ := firings_of_looping.1 written computed looping registered selected ops
    (undisturbed σ₀)
  have forward : f.Forward := ⟨by decide, by decide⟩
  obtain ⟨value, anchor, next, -, wound⟩ := firings_of_looping.2 f [] (by simpa using forward) 40
    (by decide) (by decide) 10
  have here : anchor = 35 := by
    have start := wound (by decide)
    change 40 - anchor = 5 at start
    omega
  exact ⟨computed, looping, selected, plays, fires.2 due, value, here ▸ next⟩

end Session

end Gait
