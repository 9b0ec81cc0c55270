import Gait.Proofs.WalkFile.Program

/-!
# Delays of step lines

A step line that gives no delay takes the tick of the program.  The line is read while the program
is still being built, so this is the tick that was set last *before* the line, and zero where none
was.  `tick_feedAll` says which tick a program has at any place of a text, `listed_feedAll` that
a step stays where it was put.

The main statement says when such a delay is the tick of the finished program: just when the lines
behind it do not leave another tick.  `delay_before_late_tick` is a text for which they do.
-/

namespace Gait

/-- The steps that a region lists. -/
def Program.listed (p : Program) : WalkFile.Region → Array Step
  | .setup => p.setup
  | .main => p.main
  | _ => #[]

namespace WalkFile

namespace Reading

/-- The ticks that lines set, in order. -/
def ticksSet (r : Reading) (n : Nat) : List (List Char) → List Nat
  | [] => []
  | line :: lines => (r.tickSet? line).toList ++ (r.feed n line).ticksSet (n + 1) lines

theorem Feeds.tick {r : Reading} {line : List Char} {p : Program} (feeds : r.Feeds line p) :
    p.tick = (r.tickSet? line).getD r.program.tick := by
  cases feeds with
  | describes tick => exact tick
  | addsSetup unset | addsMain unset | addsFunction unset =>
      rw [unset]
      rfl

/-- The tick is the one that was set last. -/
theorem tick_feedAll (r : Reading) (n : Nat) (lines : List (List Char)) :
    (r.feedAll n lines).program.tick = (r.ticksSet n lines).getLast?.getD r.program.tick := by
  induction lines generalizing r n with
  | nil => rfl
  | cons line lines ih =>
      rw [feedAll, ih, (r.feeds n line).tick, ticksSet, List.getLast?_append]
      cases ((r.feed n line).ticksSet (n + 1) lines).getLast? with
      | some tick => rfl
      | none => cases r.tickSet? line <;> rfl

theorem feedAll_append (r : Reading) (n : Nat) (earlier later : List (List Char)) :
    r.feedAll n (earlier ++ later) =
      (r.feedAll n earlier).feedAll (n + earlier.length) later := by
  induction earlier generalizing r n with
  | nil => rfl
  | cons line earlier ih =>
      rw [List.cons_append, feedAll, ih, feedAll, List.length_cons, Nat.add_right_comm,
        Nat.add_assoc]

/-! ## Steps stay -/

theorem Feeds.listed {r : Reading} {line : List Char} {p : Program} (feeds : r.Feeds line p)
    (region : Region) : (r.program.listed region).toList <+: (p.listed region).toList := by
  cases feeds with
  | describes _ setup main =>
      have same : p.listed region = r.program.listed region := by
        unfold Program.listed
        rw [setup, main]
      exact same ▸ List.prefix_rfl
  | addsSetup _ step | addsMain _ step =>
      unfold Program.listed
      cases region <;> simp
  | addsFunction => exact List.prefix_rfl

/-- What a region lists is never dropped. -/
theorem listed_feedAll (r : Reading) (n : Nat) (lines : List (List Char)) (region : Region) :
    (r.program.listed region).toList <+: ((r.feedAll n lines).program.listed region).toList := by
  induction lines generalizing r n with
  | nil => exact List.prefix_rfl
  | cons line lines ih => exact ((r.feeds n line).listed region).trans (ih _ (n + 1))

/-- A step line adds its step to what its region lists. -/
theorem feed_step {r : Reading} {line : List Char} {step : Step} (n : Nat)
    (region : r.region = .setup ∨ r.region = .main)
    (parses : StepLine.read r.program.tick (content line) = .ok step) :
    (r.feed n line).program.listed r.region = (r.program.listed r.region).push step := by
  have nonempty : (content line).isEmpty = false := by
    rw [Bool.eq_false_iff]
    intro empty
    rw [List.isEmpty_iff.1 empty] at parses
    cases parses
  have inside : closes r.region (content line) = false := by
    rw [Bool.eq_false_iff]
    intro close
    rcases eq_of_closes close with code | code
    · rw [code] at parses
      cases parses
    · rw [code] at parses
      cases parses
  unfold feed
  simp only [nonempty, inside]
  rcases region with region | region
  · simp [region, feedRegion, parses, Program.listed]
  · simp [region, feedRegion, parses, Program.listed]

end Reading

/-- The reading of some first lines. -/
def readLines (earlier : List (List Char)) : Reading := Reading.feedAll {} 1 earlier

/-- The step of a line that gives no delay stands in the program where the line put it, and its
delay is the tick that was set last before the line, or zero.  It is the tick of the program just
if the lines behind it set no tick or set the same one last. -/
theorem delay_eq_tick_iff {text : String} {earlier later : List (List Char)} {line : List Char}
    {step : Step} (whole : lines text.toList = earlier ++ line :: later)
    (region : (readLines earlier).region = .setup ∨ (readLines earlier).region = .main)
    (parses : StepLine.read (readLines earlier).program.tick (content line) = .ok step)
    (plain : ':' ∉ content line) :
    let r := readLines earlier
    let behind := (r.feed (earlier.length + 1) line).ticksSet (earlier.length + 2) later
    ((read text).program.listed r.region)[(r.program.listed r.region).size]? = some step ∧
      step.delay = (Reading.ticksSet {} 1 earlier).getLast?.getD 0 ∧
      (step.delay = (read text).program.tick ↔ ∀ tick ∈ behind.getLast?, tick = step.delay) := by
  intro r behind
  have result : read text =
      (r.feed (earlier.length + 1) line).feedAll (earlier.length + 2) later := by
    rw [read, whole, Reading.feedAll_append, Reading.feedAll, Nat.add_comm 1]
    rfl
  have delay : step.delay = r.program.tick := read_plain plain step parses
  have before : r.program.tick = (Reading.ticksSet {} 1 earlier).getLast?.getD 0 :=
    Reading.tick_feedAll {} 1 earlier
  -- A step line sets no tick, so only the lines behind it can leave another one.
  have tick : (read text).program.tick = behind.getLast?.getD step.delay := by
    have unset : r.tickSet? line = none :=
      Reading.tickSet?_of_ne_info fun info => by
        rcases region with region | region <;> cases info.symm.trans region
    rw [result, Reading.tick_feedAll, (r.feeds _ line).tick, unset, delay]
    rfl
  refine ⟨?_, delay.trans before, ?_⟩
  · obtain ⟨more, stays⟩ :=
      (r.feed (earlier.length + 1) line).listed_feedAll (earlier.length + 2) later r.region
    rw [result, ← Array.getElem?_toList, ← stays, Reading.feed_step _ region parses,
      Array.toList_push, List.append_assoc, ← Array.length_toList,
      List.getElem?_append_right (Nat.le_refl _), Nat.sub_self]
    rfl
  · rw [tick]
    cases behind.getLast? with
    | none =>
        refine iff_of_true rfl fun tick set => ?_
        cases set
    | some late => simp [eq_comm]

theorem delay_between_tick_lines :
    let text := "[info]\nTick=5\n[end]\n[setup]\n>40\n[end]\n[info]\nTick=7\n[end]"
    let earlier := ["[info]", "Tick=5", "[end]", "[setup]"].map String.toList
    let later := ["[end]", "[info]", "Tick=7", "[end]"].map String.toList
    let step : Step := ⟨#v[40, 0, 0, 0, 0, 0, 0, 0, 0, 0, 0, 0], 5⟩
    lines text.toList = earlier ++ ">40".toList :: later ∧
      (readLines earlier).region = .setup ∧
      StepLine.read (readLines earlier).program.tick (content ">40".toList) = .ok step ∧
      ':' ∉ content ">40".toList ∧ (read text).program.setup[0]? = some step ∧
      (read text).program.tick ≠ step.delay := by
  intro text earlier later step
  have whole : lines text.toList = earlier ++ ">40".toList :: later := by decide +kernel
  have region : (readLines earlier).region = .setup := by decide +kernel
  have parses :
      StepLine.read (readLines earlier).program.tick (content ">40".toList) = .ok step := by
    rfl
  have plain : ':' ∉ content ">40".toList := by decide
  have empty : ((readLines earlier).program.listed .setup).size = 0 := by decide +kernel
  have behind : (((readLines earlier).feed 5 ">40".toList).ticksSet 6 later).getLast? = some 7 := by
    decide +kernel
  obtain ⟨stands, -, same⟩ := delay_eq_tick_iff whole (.inl region) parses plain
  rw [region, empty] at stands
  refine ⟨whole, region, parses, plain, stands, fun eq => ?_⟩
  cases same.1 eq.symm 7 behind

/-- A tick that is set behind a step line comes too late for it. -/
theorem delay_before_late_tick :
    let p := (read "[prg]\n>40\n[end]\n[info]\nTick=7\n[end]").program
    p.main.map (·.delay) = #[0] ∧ p.tick = 7 := by
  decide +kernel

end WalkFile

end Gait
