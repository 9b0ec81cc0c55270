import Gait.Walker.Tick
import Mathlib.Algebra.Order.Floor.Div

/-!
# Schedules of listed steps

What a program of mode `prg` plays in one cycle.  `Program.scheduled?` is the step that comes after
some number of played steps, `Program.cycleLength?` the number of steps of the whole cycle, which
for a looping program depends on when a stop was first requested.  `StandsAt.follows` says that a
run keeps to this: the phase, the cursor and the stop flag agree on the next step and on where the
cycle ends.
-/

namespace Gait

/-! ## The schedule of a program -/

namespace Program

/-- The step that follows `k` played steps: the setup steps once, then the main steps again and
again. -/
def scheduled? (p : Program) (k : Nat) : Option Step :=
  if k < p.setup.size then p.setup[k]? else p.main[(k - p.setup.size) % p.main.size]?

/-- The number of steps in a cycle, if it ends.  Programs that do not loop, and those without main
steps, end after one pass.  A looping program goes on until a stop is requested, first after `stop`
steps, and ends with the pass it is in by then; between two passes nothing more is played, and
before the first one that pass still is. -/
def cycleLength? (p : Program) (stop : Option Nat) : Option Nat :=
  if p.looping ∧ 0 < p.main.size then
    stop.map fun k => p.setup.size + p.main.size * max 1 ((k - p.setup.size) ⌈/⌉ p.main.size)
  else some (p.setup.size + p.main.size)

variable {p : Program} {stop : Option Nat} {k n : Nat}

theorem cycleLength?_eq_passes (length : p.cycleLength? stop = some n) :
    ∃ passes, 1 ≤ passes ∧ n = p.setup.size + p.main.size * passes := by
  unfold cycleLength? at length
  split at length
  · obtain ⟨j, -, rfl⟩ := Option.map_eq_some_iff.1 length
    exact ⟨_, Nat.le_max_left _ _, rfl⟩
  · cases length
    exact ⟨1, Nat.le_refl 1, by rw [Nat.mul_one]⟩

/-- A later request does not change where a cycle ends that ends already. -/
theorem cycleLength?_or (length : p.cycleLength? stop = some n) (later : Option Nat) :
    p.cycleLength? (stop.or later) = some n := by
  cases stop with
  | some j => exact length
  | none =>
      unfold cycleLength? at length ⊢
      split at length
      · cases length
      · next once => rwa [if_neg once]

/-- A later request does not shorten what was played before it. -/
theorem le_cycleLength?_or (unfinished : ∀ n, p.cycleLength? stop = some n → k ≤ n)
    {later : Option Nat} (after : ∀ j, later = some j → k ≤ j) :
    ∀ n, p.cycleLength? (stop.or later) = some n → k ≤ n := by
  intro n length
  cases stop with
  | some j => exact unfinished n length
  | none =>
      by_cases again : p.looping ∧ 0 < p.main.size
      · rw [Option.none_or, cycleLength?, if_pos again] at length
        obtain ⟨j, requested, rfl⟩ := Option.map_eq_some_iff.1 length
        have covered : j - p.setup.size ≤ p.main.size * ((j - p.setup.size) ⌈/⌉ p.main.size) :=
          (ceilDiv_le_iff_le_mul again.2).1 (Nat.le_refl _)
        have passes := Nat.mul_le_mul_left p.main.size
          (Nat.le_max_right 1 ((j - p.setup.size) ⌈/⌉ p.main.size))
        have before := after j requested
        omega
      · refine unfinished n ?_
        rw [cycleLength?, if_neg again] at length ⊢
        exact length

end Program

/-! ## One step of a run -/

namespace Run

/-- After `k` played steps a run stands here: among the setup steps, or behind a main step. -/
def StandsAt (run : Run) (p : Program) (k : Nat) : Prop :=
  (run.phase = .setup ∧ run.cursor = k ∧ k ≤ p.setup.size) ∨
    (run.phase = .main ∧ 0 < run.cursor ∧ run.cursor ≤ p.main.size ∧
      ∃ passes, k = p.setup.size + p.main.size * passes + run.cursor)

variable {run : Run} {p : Program}

theorem nextListed_of_lt {again : Bool} (inside : run.cursor < p.main.size) :
    run.nextListed p again = (some p.main[run.cursor], { run with cursor := run.cursor + 1 }) := by
  have stays : ¬(p.main.size ≤ run.cursor ∧ again = true) := by omega
  simp only [nextListed, if_neg stays, Array.getElem?_eq_getElem inside]

theorem nextListed_again (behind : p.main.size ≤ run.cursor) (nonempty : 0 < p.main.size) :
    run.nextListed p true = (some p.main[0], { run with cursor := 1 }) := by
  simp [nextListed, behind, Array.getElem?_eq_getElem nonempty]

theorem nextListed_once (behind : p.main.size ≤ run.cursor) :
    run.nextListed p false = (none, run) := by
  simp [nextListed, behind]

theorem nextListed_empty {again : Bool} (empty : p.main.size = 0) :
    run.nextListed p again = (none, run) := by
  simp [nextListed, empty]

variable {shouldStop : Bool} {now : Int}

theorem next_of_setup (phase : run.phase = .setup) (inside : run.cursor < p.setup.size) :
    run.next p .prg shouldStop now =
      (some p.setup[run.cursor], { run with cursor := run.cursor + 1 }) := by
  simp only [next, phase, Array.getElem?_eq_getElem inside]

theorem next_of_setup_end (phase : run.phase = .setup) (behind : p.setup.size ≤ run.cursor) :
    run.next p .prg shouldStop now =
      (run.enterMain now).nextListed p (p.looping && !shouldStop) := by
  simp only [next, phase, Array.getElem?_eq_none behind, nextMain]

theorem next_of_main (phase : run.phase = .main) :
    run.next p .prg shouldStop now = run.nextListed p (p.looping && !shouldStop) := by
  simp only [next, phase, nextMain]

variable {k : Nat} {stop : Option Nat}

/-- What a run plays when it stands after `k` steps: the step that is scheduled there, or nothing if
this is where the cycle ends. -/
def Follows (run : Run) (p : Program) (k : Nat) (stop : Option Nat) (now : Int) : Prop :=
  (∃ step later, run.next p .prg stop.isSome now = (some step, later) ∧
    p.scheduled? k = some step ∧ later.StandsAt p (k + 1) ∧
      ∀ n, p.cycleLength? stop = some n → k < n) ∨
    ∃ later, run.next p .prg stop.isSome now = (none, later) ∧ p.cycleLength? stop = some k

theorem follows_setup (phase : run.phase = .setup) (cursor : run.cursor = k)
    (inSetup : k ≤ p.setup.size) : run.Follows p k stop now := by
  subst cursor
  rcases Nat.lt_or_eq_of_le inSetup with inside | atEnd
  · refine Or.inl ⟨_, _, next_of_setup phase inside, ?_, Or.inl ⟨phase, rfl, inside⟩, ?_⟩
    · rw [Program.scheduled?, if_pos inside, Array.getElem?_eq_getElem inside]
    · intro n length
      obtain ⟨passes, -, rfl⟩ := Program.cycleLength?_eq_passes length
      omega
  · have next : run.next p .prg stop.isSome now =
        (run.enterMain now).nextListed p (p.looping && !stop.isSome) :=
      next_of_setup_end phase atEnd.ge
    rcases Nat.eq_zero_or_pos p.main.size with empty | nonempty
    · refine Or.inr ⟨_, next.trans (nextListed_empty empty), ?_⟩
      simp [Program.cycleLength?, empty, atEnd]
    · refine Or.inl ⟨_, _, next.trans (nextListed_of_lt nonempty), ?_,
        Or.inr ⟨rfl, Nat.one_pos, nonempty, 0, ?_⟩, ?_⟩
      · simp [Program.scheduled?, atEnd, enterMain, Array.getElem?_eq_getElem nonempty]
      · rw [Nat.mul_zero, Nat.add_zero, atEnd]
        rfl
      · intro n length
        obtain ⟨passes, one, rfl⟩ := Program.cycleLength?_eq_passes length
        have whole := Nat.le_mul_of_pos_right p.main.size one
        omega

theorem scheduled?_main {passes c : Nat} (inside : c < p.main.size) :
    p.scheduled? (p.setup.size + p.main.size * passes + c) = some p.main[c] := by
  have past : ¬p.setup.size + p.main.size * passes + c < p.setup.size := by omega
  have behind : p.setup.size + p.main.size * passes + c - p.setup.size =
      p.main.size * passes + c := by
    omega
  rw [Program.scheduled?, if_neg past, behind, Nat.mul_add_mod,
    Nat.mod_eq_of_lt inside, Array.getElem?_eq_getElem inside]

theorem follows_inside (phase : run.phase = .main) (positive : 0 < run.cursor)
    (inside : run.cursor < p.main.size) {passes : Nat}
    (count : k = p.setup.size + p.main.size * passes + run.cursor)
    (unfinished : ∀ n, p.cycleLength? stop = some n → k ≤ n) :
    run.Follows p k stop now := by
  refine Or.inl ⟨_, _, (next_of_main phase).trans (nextListed_of_lt inside), ?_,
    Or.inr ⟨phase, Nat.succ_pos _, inside, passes, by rw [count]; rfl⟩, fun n length => ?_⟩
  · rw [count, scheduled?_main inside]
  · -- a cycle ends between two passes, and the run stands within one
    refine Nat.lt_of_le_of_ne (unfinished n length) fun atEnd => ?_
    obtain ⟨whole, -, rfl⟩ := Program.cycleLength?_eq_passes length
    have between : p.main.size * passes + run.cursor = p.main.size * whole := by omega
    have cursor := congrArg (· % p.main.size) between
    simp only [Nat.mul_add_mod, Nat.mod_eq_of_lt inside, Nat.mul_mod_right] at cursor
    omega

theorem follows_again (phase : run.phase = .main) (nonempty : 0 < p.main.size)
    (atEnd : run.cursor = p.main.size) {passes : Nat}
    (count : k = p.setup.size + p.main.size * passes + run.cursor)
    (looping : p.looping = true) : run.Follows p k none now := by
  have next : run.next p .prg false now = run.nextListed p true := by
    rw [next_of_main phase, looping]
    rfl
  have count' : k = p.setup.size + p.main.size * (passes + 1) + 0 := by
    rw [count, atEnd, Nat.mul_succ, Nat.add_assoc]
    rfl
  refine Or.inl ⟨_, _, next.trans (nextListed_again atEnd.ge nonempty), ?_,
    Or.inr ⟨phase, Nat.one_pos, nonempty, passes + 1, congrArg (· + 1) count'⟩, fun n length => ?_⟩
  · rw [count', scheduled?_main nonempty]
  · rw [Program.cycleLength?, if_pos ⟨looping, nonempty⟩] at length
    cases length

theorem follows_once (phase : run.phase = .main) (nonempty : 0 < p.main.size)
    (atEnd : run.cursor = p.main.size) {passes : Nat}
    (count : k = p.setup.size + p.main.size * passes + run.cursor)
    (once : (p.looping && !stop.isSome) = false) (requested : ∀ j, stop = some j → j ≤ k)
    (unfinished : ∀ n, p.cycleLength? stop = some n → k ≤ n) :
    run.Follows p k stop now := by
  have next : run.next p .prg stop.isSome now = run.nextListed p false := by
    rw [next_of_main phase, once]
  refine Or.inr ⟨_, next.trans (nextListed_once atEnd.ge), ?_⟩
  unfold Program.cycleLength? at unfinished ⊢
  cases looping : p.looping with
  | false =>
      rw [looping, if_neg (by simp)] at unfinished
      rw [if_neg (by simp)]
      have one := unfinished _ rfl
      rw [Option.some.injEq]
      omega
  | true =>
      rw [looping, if_pos ⟨rfl, nonempty⟩] at unfinished
      rw [if_pos ⟨rfl, nonempty⟩]
      obtain ⟨j, rfl⟩ : ∃ j, stop = some j := by
        simpa [looping, Option.isSome_iff_exists] using once
      have long : k ≤ p.setup.size +
          p.main.size * max 1 ((j - p.setup.size) ⌈/⌉ p.main.size) :=
        unfinished _ rfl
      have whole : k = p.setup.size + p.main.size * (passes + 1) := by
        rw [count, atEnd, Nat.mul_succ, Nat.add_assoc]
      have passed : (j - p.setup.size) ⌈/⌉ p.main.size ≤ passes + 1 := by
        rw [ceilDiv_le_iff_le_mul nonempty]
        have early := requested j rfl
        omega
      have short : p.main.size * max 1 ((j - p.setup.size) ⌈/⌉ p.main.size) ≤
          p.main.size * (passes + 1) :=
        Nat.mul_le_mul_left _ (Nat.max_le.2 ⟨Nat.succ_pos passes, passed⟩)
      rw [Option.map_some, Option.some.injEq]
      omega

theorem StandsAt.follows (stands : run.StandsAt p k) (now : Int)
    (requested : ∀ j, stop = some j → j ≤ k)
    (unfinished : ∀ n, p.cycleLength? stop = some n → k ≤ n) :
    run.Follows p k stop now := by
  rcases stands with ⟨phase, cursor, inSetup⟩ | ⟨phase, positive, inMain, passes, count⟩
  · exact follows_setup phase cursor inSetup
  · rcases Nat.lt_or_eq_of_le inMain with inside | atEnd
    · exact follows_inside phase positive inside count unfinished
    · have nonempty : 0 < p.main.size := atEnd ▸ positive
      cases once : p.looping && !stop.isSome with
      | false => exact follows_once phase nonempty atEnd count once requested unfinished
      | true =>
          obtain ⟨looping, rfl⟩ : p.looping = true ∧ stop = none := by simpa using once
          exact follows_again phase nonempty atEnd count looping

end Run

end Gait
