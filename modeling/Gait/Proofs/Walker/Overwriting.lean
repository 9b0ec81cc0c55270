import Gait.Proofs.Walker.Edges
import Gait.Proofs.Walker.LastPass

/-!
# Overwriting the running program

While a program runs, another one can be registered under its name.  The run keeps its phase, its
cursor and its anchors, so the cursor can come to lie behind the end of the new lists, and no
invariant of a session bounds it.  The bound is made anew at every step: `Run.fetchNext` looks up
main steps in a way that fails behind the end of the list, and `Run.fetchNext_eq` says that it is
`Run.next`, without a failure.

`Run.Draws` says what comes next by the run and the program that is registered now, and
`Run.draws_next` that nothing else does.  The main statement has this for any operations on a
session, among them any number of programs registered under the name that runs.
-/

namespace Gait

/-! ## Looking steps up -/

/-- A look-up behind the end of a list of steps. -/
structure Overrun where
  size : Nat
  index : Nat
  deriving DecidableEq, Repr

/-- Look up a step that has to be there. -/
def fetch (steps : Array Step) (index : Nat) : Except Overrun Step :=
  match steps[index]? with
  | some step => .ok step
  | none => .error ⟨steps.size, index⟩

theorem fetch_of_lt {steps : Array Step} {index : Nat} (inside : index < steps.size) :
    fetch steps index = .ok steps[index] := by
  rw [fetch, Array.getElem?_eq_getElem inside]

namespace Run

/-- The place of the next main step, or none after the last one. -/
def place? (run : Run) (p : Program) (again : Bool) : Option Nat :=
  if p.main.size ≤ run.cursor then if again && !p.main.isEmpty then some 0 else none
  else some run.cursor

/-- The next main step, looked up at its place. -/
def fetchListed (run : Run) (p : Program) (again : Bool) : Except Overrun (Option Step × Run) :=
  match run.place? p again with
  | none => .ok (none, run)
  | some place => do
    let step ← fetch p.main place
    return (some step, { run with cursor := place + 1 })

/-- The next step of the main phase, with listed steps looked up at their places. -/
def fetchMain (run : Run) (p : Program) (mode : Mode) (shouldStop : Bool) (now : Int) :
    Except Overrun (Option Step × Run) :=
  let again := p.looping && !shouldStop
  match mode with
  | .prg => run.fetchListed p again
  | .mot => .ok (run.nextComputed p again now)

/-- The next step of a run, with main steps looked up at their places. -/
def fetchNext (run : Run) (p : Program) (mode : Mode) (shouldStop : Bool) (now : Int) :
    Except Overrun (Option Step × Run) :=
  match run.phase, p.setup[run.cursor]? with
  | .setup, some step => .ok (some step, { run with cursor := run.cursor + 1 })
  | .setup, none => (run.enterMain now).fetchMain p mode shouldStop now
  | .main, _ => run.fetchMain p mode shouldStop now

variable {run : Run} {p : Program} {mode : Mode} {again shouldStop : Bool} {now : Int}

/-- The place of the next main step lies in the list, wherever the cursor is. -/
theorem place?_cases (run : Run) (p : Program) (again : Bool) :
    (∃ place, ∃ inside : place < p.main.size, run.place? p again = some place ∧
      (place = run.cursor ∨ place = 0 ∧ p.main.size ≤ run.cursor ∧ again = true) ∧
      run.nextListed p again = (some p.main[place], { run with cursor := place + 1 })) ∨
    (run.place? p again = none ∧ p.main.size ≤ run.cursor ∧ (again = false ∨ p.main.size = 0) ∧
      run.nextListed p again = (none, run)) := by
  unfold place?
  by_cases behind : p.main.size ≤ run.cursor
  · rw [if_pos behind]
    rcases Nat.eq_zero_or_pos p.main.size with empty | nonempty
    · exact .inr ⟨by simp [Array.eq_empty_of_size_eq_zero empty], behind, .inr empty,
        nextListed_empty empty⟩
    · have present : p.main.isEmpty = false := by
        rw [Array.isEmpty_eq_false_iff, ← Array.size_pos_iff]
        exact nonempty
      rw [present]
      cases again with
      | false => exact .inr ⟨rfl, behind, .inl rfl, nextListed_once behind⟩
      | true =>
          exact .inl ⟨0, nonempty, rfl, .inr ⟨rfl, behind, rfl⟩, nextListed_again behind nonempty⟩
  · have inside := Nat.not_le.1 behind
    rw [if_neg behind]
    exact .inl ⟨run.cursor, inside, rfl, .inl rfl, nextListed_of_lt inside⟩

theorem fetchListed_eq (run : Run) (p : Program) (again : Bool) :
    run.fetchListed p again = .ok (run.nextListed p again) := by
  unfold fetchListed
  rcases run.place?_cases p again with ⟨place, inside, found, -, next⟩ | ⟨none, -, -, next⟩
  · rw [found, next]
    dsimp only
    rw [fetch_of_lt inside]
    rfl
  · rw [none, next]

theorem fetchMain_eq (run : Run) (p : Program) (mode : Mode) (shouldStop : Bool) (now : Int) :
    run.fetchMain p mode shouldStop now = .ok (run.nextMain p mode shouldStop now) := by
  cases mode with
  | prg => exact run.fetchListed_eq p _
  | mot => rfl

/-- No look-up fails. -/
theorem fetchNext_eq (run : Run) (p : Program) (mode : Mode) (shouldStop : Bool) (now : Int) :
    run.fetchNext p mode shouldStop now = .ok (run.next p mode shouldStop now) := by
  cases phase : run.phase with
  | setup =>
      cases left : p.setup[run.cursor]? with
      | some step => simp only [fetchNext, next, phase, left]
      | none => simp only [fetchNext, next, phase, left, fetchMain_eq]
  | main => simp only [fetchNext, next, phase, fetchMain_eq]

/-! ## Where the next step comes from -/

/-- What a run fires next, by where it stands, the program that is registered, and where it stands
afterwards.  In the setup phase, as long as there is one, it is the setup step at the cursor.  Else
it is a main step: the first one where the main phase begins, the one at the cursor, and behind the
last the first one again or the end.  Or it is what the tracks answer for the times elapsed since
the anchors. -/
inductive Draws (run later : Run) (p : Program) (again : Bool) (now : Int) : Firing → Prop
  | setup {step : Step} (phase : run.phase = .setup) (left : p.setup[run.cursor]? = some step) :
    Draws run later p again now (.step step)
  | listed {place : Nat} (past : run.phase = .setup → p.setup[run.cursor]? = none)
    (mode : p.mode = .ok .prg) (inside : place < p.main.size)
    (here : run.phase = .main ∧ place = run.cursor ∨
      place = 0 ∧ (run.phase = .main → p.main.size ≤ run.cursor ∧ again = true)) :
    Draws run later p again now (.step p.main[place])
  | exhausted (past : run.phase = .setup → p.setup[run.cursor]? = none)
    (mode : p.mode = .ok .prg)
    (behind : run.phase = .main ∧ p.main.size ≤ run.cursor ∧ again = false ∨ p.main.size = 0) :
    Draws run later p again now .finish
  | computed {firing : Firing} (past : run.phase = .setup → p.setup[run.cursor]? = none)
    (mode : p.mode = .ok .mot) (answers : p.Answers (later.times now) firing) :
    Draws run later p again now firing

/-- In the main phase, entered just now or before. -/
theorem draws_nextMain {start : Run} (valid : p.mode = .ok mode)
    (past : run.phase = .setup → p.setup[run.cursor]? = none)
    (entered : run.phase = .setup ∧ start = run.enterMain now ∨ run.phase = .main ∧ start = run) :
    run.Draws (start.nextMain p mode shouldStop now).2 p (p.looping && !shouldStop) now
      (.ofNext (start.nextMain p mode shouldStop now).1) := by
  cases mode with
  | mot => exact .computed past valid (start.nextComputed_answers p _ now)
  | prg =>
      simp only [nextMain]
      rcases start.place?_cases p (p.looping && !shouldStop) with
        ⟨place, inside, -, here, next⟩ | ⟨-, behind, last, next⟩
      · rw [next]
        refine .listed past valid inside ?_
        rcases entered with ⟨setup, rfl⟩ | ⟨main, rfl⟩
        · have first : place = 0 := here.elim id (·.1)
          exact .inr ⟨first, fun main => by cases setup.symm.trans main⟩
        · rcases here with cursor | ⟨first, behind, again⟩
          · exact .inl ⟨main, cursor⟩
          · exact .inr ⟨first, fun _ => ⟨behind, again⟩⟩
      · rw [next]
        refine .exhausted past valid ?_
        rcases entered with ⟨-, rfl⟩ | ⟨main, rfl⟩
        · exact .inr (Nat.le_zero.1 behind)
        · exact last.imp_left fun once => ⟨main, behind, once⟩

theorem draws_next (valid : p.mode = .ok mode) (shouldStop : Bool) (now : Int) :
    run.Draws (run.next p mode shouldStop now).2 p (p.looping && !shouldStop) now
      (.ofNext (run.next p mode shouldStop now).1) := by
  unfold next
  split
  · next phase left => exact .setup phase left
  · next phase none => exact draws_nextMain valid (fun _ => none) (.inl ⟨phase, rfl⟩)
  · next phase =>
    refine draws_nextMain valid (fun setup => ?_) (.inr ⟨phase, rfl⟩)
    cases phase.symm.trans setup

end Run

namespace Walker

variable {L : Type}

/-- The next step of the selected program, with main steps looked up at their places. -/
def fetchNext (w : Walker L) (now : Nat) : Except Overrun (Option Step × Walker L) :=
  match w.run, w.selected? with
  | some run, some p =>
    match p.mode? with
    | some mode => do
      let (step, run) ← run.fetchNext p mode w.shouldStop (instantOfCount now)
      return (step, { w with run := some run })
    | none => .ok (none, w)
  | _, _ => .ok (none, w)

theorem fetchNext_eq (w : Walker L) (now : Nat) : w.fetchNext now = .ok (w.nextStep now) := by
  cases running : w.run with
  | none => simp only [fetchNext, nextStep, running]
  | some run =>
      cases selected : w.selected? with
      | none => simp only [fetchNext, nextStep, running, selected]
      | some p =>
          cases asked : p.mode? with
          | none => simp only [fetchNext, nextStep, running, selected, asked]
          | some mode =>
              simp only [fetchNext, nextStep, running, selected, asked, Run.fetchNext_eq]
              rfl

end Walker

namespace Session

variable {L : Type} [Link L]

/-! ## What is registered -/

theorem get?_after {name : String} (σ : Session L) (ops : List Operation)
    (unregistered : ∀ e ∈ σ.history ops, e.2 ≠ .registered name) :
    (σ.after ops).walker.registry.get? name = σ.walker.registry.get? name := by
  induction ops generalizing σ with
  | nil => rfl
  | cons op ops ih =>
      obtain ⟨here, later⟩ := List.forall_mem_cons.1 unregistered
      exact (ih (σ.perform op).2 later).trans ((σ.performs op).get?_of_unregistered here)

/-- What was registered last under a name stands there. -/
theorem get?_of_last {name : String} {q : Program} {earlier later : List (Operation × Outcome)}
    (σ : Session L) (ops : List Operation)
    (registers : σ.history ops = earlier ++ (.register q, .registered name) :: later)
    (last : ∀ e ∈ later, e.2 ≠ .registered name) :
    (σ.after ops).walker.registry.get? name = some q := by
  induction ops generalizing σ earlier with
  | nil => cases (List.append_ne_nil_of_right_ne_nil earlier (List.cons_ne_nil _ _)) registers.symm
  | cons op ops ih =>
      cases earlier with
      | cons e earlier => exact ih (σ.perform op).2 (List.cons.inj registers).2
      | nil =>
          obtain ⟨here, rfl⟩ := List.cons.inj registers
          obtain ⟨rfl, outcome⟩ := Prod.mk.inj here
          have performs := σ.performs (.register q)
          rw [outcome] at performs
          refine (get?_after _ ops last).trans ?_
          generalize (σ.perform (.register q)).2 = σ' at performs
          cases performs with
          | registers => exact Registry.get?_insert_self _ _ q

/-! ## The run -/

/-- Without a selection the setup phase is not entered again. -/
theorem phase_after {σ : Session L} (reachable : σ.Reachable) (ops : List Operation)
    (past : σ.walker.run.map (·.phase) ≠ some .setup)
    (unselected : ∀ e ∈ σ.history ops, e.2 ≠ .selected) :
    (σ.after ops).walker.run.map (·.phase) ≠ some .setup := by
  have onward := onward_after reachable ops unselected
  have coherent := reachable.coherent
  have coherent' := (reachable.after ops).coherent
  intro setup
  obtain ⟨run', running', phase'⟩ := Option.map_eq_some_iff.1 setup
  obtain ⟨mode', after⟩ := coherent'.busy_of_run running'
  cases running : σ.walker.run with
  | none =>
      rw [onward.idle (Walker.activity_of_run_eq_none running)] at after
      exact Activity.busy_ne_idle after.symm
  | some run =>
      obtain ⟨mode, before⟩ := coherent.busy_of_run running
      have main : run.phase = .main := by
        cases phase : run.phase with
        | main => rfl
        | setup => exact (past (by rw [running, ← phase]; rfl)).elim
      refine onward.main ?_ ?_
      · rw [before, Activity.phase?_busy, main]
      · rw [after, Activity.phase?_busy, phase']

/-- The program that runs can be overwritten at any time.  After any operations on a session that
can be reached, registering programs under the name that runs among them:

No look-up of the next step goes past the end of a list.

Whatever fires next comes from the program that now stands under the name, which is the one that was
registered there last: it is the setup step at the cursor while the run is in its setup phase and
there is one, and otherwise comes from the main steps or the tracks.

A run that is past its setup phase does not come back to it, unless something is selected. -/
theorem overwritten_run_is_safe {σ : Session L} (reachable : σ.Reachable) (ops : List Operation) :
    let σ' := σ.after ops
    let now := σ'.clock.now
    let next := σ'.walker.nextStep now
    σ'.walker.fetchNext now = .ok next ∧
    (∀ run, σ'.walker.run = some run →
      ∃ p later, σ'.walker.registry.get? run.name = some p ∧ next.2.run = some later ∧
        run.Draws later p (p.looping && !σ'.walker.shouldStop) (instantOfCount now)
          (.ofNext next.1) ∧
        (∀ firing, (σ'.perform .tick).1.firing? = some firing → firing = .ofNext next.1) ∧
        ∀ earlier q after,
          σ.history ops = earlier ++ (.register q, .registered run.name) :: after →
            (∀ e ∈ after, e.2 ≠ .registered run.name) → p = q) ∧
    (σ.walker.run.map (·.phase) ≠ some .setup → (∀ e ∈ σ.history ops, e.2 ≠ .selected) →
      σ'.walker.run.map (·.phase) ≠ some .setup) := by
  intro σ' now next
  refine ⟨σ'.walker.fetchNext_eq now, fun run running => ?_, phase_after reachable ops⟩
  obtain ⟨p, mode, registered, -, valid⟩ := (reachable.after ops).coherent.selected?_of_run running
  have eq : next = _ :=
    Walker.nextStep_of_run now running registered (Program.mode?_eq_some_of_mode valid)
  refine ⟨p, _, registered, by rw [eq], ?_, fun firing fires => ?_,
    fun earlier q after registers last => ?_⟩
  · rw [eq]
    exact Run.draws_next valid _ _
  · exact ((σ'.performs .tick).fires fires).2
  · exact Option.some.inj (registered.symm.trans (get?_of_last σ ops registers last))

/-- The cursor stands behind two steps when the list shrinks to one; it begins again there, as the
new program loops. -/
theorem firing_of_shrunk_wave :
    let first : Step := ⟨Vector.replicate servoCount 90, 0⟩
    let long : Program :=
      { name := "wave", use := some "prg", setup := #[first], main := #[first, first, first] }
    let short : Program := { name := "wave", use := some "prg", looping := true, main := #[.zero] }
    let σ : Session Link.Null :=
      (start {} .replace).after [.register long, .select "wave", .tick, .tick, .tick]
    let σ' := σ.after [.register short]
    let run : Run := ⟨"wave", .main, 2, Vector.replicate servoCount 0⟩
    σ.Reachable ∧ σ'.walker.run = some run ∧
      σ'.walker.fetchNext 0 = .ok (σ'.walker.nextStep 0) ∧
      (σ'.perform .tick).1.firing? = some (.step .zero) ∧
      (∃ later, run.Draws later short true 0 (.step .zero)) ∧
      σ'.walker.run.map (·.phase) ≠ some .setup := by
  intro first long short σ σ' run
  have reachable : σ.Reachable := (Reachable.start (L := Link.Null) {} .replace).after _
  have running : σ'.walker.run = some run := by decide +kernel
  have main : σ.walker.run.map (·.phase) ≠ some .setup := by decide +kernel
  have fires : (σ'.perform .tick).1.firing? = some (.step .zero) := by decide +kernel
  have unasked : σ'.walker.shouldStop = false := by decide +kernel
  have now : σ'.clock.now = 0 := by decide +kernel
  clear_value σ
  obtain ⟨bound, draws, past⟩ := overwritten_run_is_safe reachable [.register short]
  have registers : σ.history [.register short] = [(.register short, .registered "wave")] := rfl
  have unselected : ∀ e ∈ σ.history [.register short], e.2 ≠ .selected := by simp [registers]
  obtain ⟨p, later, -, -, drawn, fired, last⟩ := draws run running
  have same : p = short := last [] short [] registers (by simp)
  rw [← fired _ fires, same, show (σ.after _).walker.shouldStop = false from unasked,
    show (σ.after _).clock.now = 0 from now] at drawn
  rw [show (σ.after _).clock.now = 0 from now] at bound
  exact ⟨reachable, running, bound, fires, ⟨later, drawn⟩, past main unselected⟩

end Session

end Gait
