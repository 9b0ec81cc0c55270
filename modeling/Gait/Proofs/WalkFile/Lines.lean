import Gait.WalkFile

/-!
# What single lines give

Facts about the parts of a walk file that are read from one line or from a pair of lines.  The
readers are chains of steps that may fail; `Yields` says what holds of their results, and is put
together along the chain.

`readPair_forward`: the bounds of an interval are digits without a sign, so a motion function never
begins before zero and has no bound past the largest instant.  `read_plain`: a step line without a
colon gets the delay it is read with.
-/

namespace Gait

/-- Whatever a reader gives has a property. -/
def Yields {ε α : Type} (r : Except ε α) (P : α → Prop) : Prop := ∀ a, r = .ok a → P a

namespace Yields

variable {ε α β : Type} {P : α → Prop} {Q : β → Prop}

theorem ok {a : α} (holds : P a) : Yields (.ok a : Except ε α) P := by
  intro b eq
  cases eq
  exact holds

theorem error (e : ε) : Yields (.error e : Except ε α) P := nofun

theorem bind {r : Except ε α} {f : α → Except ε β} (first : Yields r P)
    (next : ∀ a, P a → Yields (f a) Q) : Yields (r >>= f) Q := by
  intro b eq
  cases result : r with
  | error e =>
      rw [result] at eq
      cases eq
  | ok a =>
      rw [result] at eq
      exact next a (first a result) b eq

theorem mapM {f : α → Except ε β} {xs : List α} (each : ∀ x ∈ xs, Yields (f x) Q) :
    Yields (xs.mapM f) fun ys => ∀ y ∈ ys, Q y := by
  induction xs with
  | nil => exact ok nofun
  | cons x xs ih =>
      obtain ⟨here, later⟩ := List.forall_mem_cons.1 each
      rw [List.mapM_cons]
      refine bind here fun y holds => bind (ih later) fun ys hold => ok ?_
      exact List.forall_mem_cons.2 ⟨holds, hold⟩

end Yields

/-! ## Motion functions -/

/-- The interval of a function begins at zero or later and ends within the instants. -/
structure MotionFunction.Forward (f : MotionFunction) : Prop where
  started : 0 ≤ f.first
  bounded : f.last ≤ instantMax

theorem MotionFunction.forward_between {a b : Int} (x : Expr) (low : 0 ≤ a ∧ a ≤ instantMax)
    (high : 0 ≤ b ∧ b ≤ instantMax) : (between x a b).Forward where
  started := Int.le_min.2 ⟨low.1, high.1⟩
  bounded := Int.max_le.2 ⟨low.2, high.2⟩

namespace WalkFile

theorem number?_le {digits : List Char} {n : Nat} (read : StepLine.number? digits = some n) :
    (n : Int) ≤ instantMax := by
  have bounded := (Option.filter_eq_some_iff.1 read).2
  rw [decide_eq_true_eq] at bounded
  exact Int.ofNat_le.2 bounded

theorem bounds_mem (value : List Char) :
    Yields (bounds value) fun (a, b) =>
      (0 ≤ a ∧ a ≤ instantMax) ∧ 0 ≤ b ∧ b ≤ instantMax := by
  unfold bounds
  refine Yields.bind (P := fun numbers => ∀ n ∈ numbers, 0 ≤ n ∧ n ≤ instantMax)
    (Yields.mapM fun run _ => ?_) fun numbers bounded => ?_
  · split
    · next n read => exact .ok ⟨Int.natCast_nonneg n, number?_le read⟩
    · exact .error _
  · split
    · next a b =>
      exact .ok ⟨bounded a (by simp), bounded b (by simp)⟩
    · exact .error _

/-- An interval that was read has both bounds among the instants from zero on. -/
def Pair.Forward (pair : Pair) : Prop :=
  ∀ a b, pair.interval = some (a, b) → (0 ≤ a ∧ a ≤ instantMax) ∧ 0 ≤ b ∧ b ≤ instantMax

theorem Pair.add_forward {pair : Pair} (forward : pair.Forward) (line : List Char) :
    Yields (pair.add line) Pair.Forward := by
  unfold Pair.add
  split
  · exact .error _
  · split
    · refine Yields.bind (bounds_mem _) fun (a, b) bounded => .ok ?_
      rintro _ _ ⟨⟩
      exact bounded
    · exact .ok forward
    · exact .ok forward

theorem compile_forward {a b : Int} (source : String) (low : 0 ≤ a ∧ a ≤ instantMax)
    (high : 0 ≤ b ∧ b ≤ instantMax) :
    Yields (MotionFunction.compile source a b) MotionFunction.Forward := by
  unfold MotionFunction.compile
  exact Yields.bind (P := fun _ => True) (fun _ _ => trivial) fun x _ =>
    .ok (MotionFunction.forward_between x low high)

/-- The function of a pair of lines is forward. -/
theorem readPair_forward (line₁ line₂ : List Char) :
    Yields (readPair line₁ line₂) MotionFunction.Forward := by
  have empty : Pair.Forward {} := nofun
  unfold readPair
  refine Yields.bind (Pair.add_forward empty line₁) fun first forward =>
    Yields.bind (Pair.add_forward forward line₂) fun pair forward => ?_
  split
  · next a b interval =>
    obtain ⟨low, high⟩ := forward a b interval
    split
    · split
      · next f compiled =>
        exact .ok (compile_forward _ low high f compiled)
      · exact .error _
    · exact .error _
  · exact .error _

/-! ## Delays -/

/-- A step line without a colon gets the delay it is read with. -/
theorem read_plain {tick : Nat} {line : List Char} (plain : ':' ∉ line) :
    Yields (StepLine.read tick line) fun step => step.delay = tick := by
  unfold StepLine.read
  split
  · next body =>
    rw [Text.cut?_eq_none fun inBody => plain (List.mem_cons_of_mem _ inBody)]
    exact Yields.bind (P := fun parts => parts.2 = tick) (.ok rfl) fun (entries, delay) same =>
      Yields.bind (P := fun _ => True) (fun _ _ => trivial) fun _ _ => .ok same
  · exact .error _

end WalkFile

end Gait
