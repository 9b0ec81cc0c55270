import Gait.Proofs.WalkFile.Delays
import Gait.Proofs.WalkFile.Intervals

/-!
# Pairs of lines

A motion function is written by two lines in either order, an interval and an expression.  `Paired`
says which lines are such a pair; the reader takes one line after the other into a `Pair`, and
`Pair.Adds` is what a single line can do to it.  No line gives both parts, so a pair that has both
got them from different lines (`paired_of_adds`).

`Reading.feedAll_pair` is the effect of both lines in a region, with comments and blank lines
between them, and `interval_of_pair` says which interval the pair adds.
-/

namespace Gait.WalkFile

/-! ## The lines of a pair -/

/-- The line gives an interval with these bounds. -/
def IntervalLine (line : List Char) (m n : Nat) : Prop :=
  ∃ value, line = "Interval=".toList ++ value ∧ FirstNumbers value m n

/-- The line gives an expression. -/
def FunctionLine (line : List Char) (x : Expr) : Prop :=
  ∃ source, source ≠ [] ∧ line = "Function=".toList ++ source ∧
    Expr.compile (String.ofList source) = .ok x

/-- One of the lines gives an interval and the other one an expression. -/
inductive Paired : List Char → List Char → MotionFunction → Prop
  | intervalFirst {line₁ line₂ : List Char} {m n : Nat} {x : Expr}
    (interval : IntervalLine line₁ m n) (function : FunctionLine line₂ x) :
    Paired line₁ line₂ (.between x m n)
  | functionFirst {line₁ line₂ : List Char} {m n : Nat} {x : Expr}
    (function : FunctionLine line₁ x) (interval : IntervalLine line₂ m n) :
    Paired line₁ line₂ (.between x m n)

theorem keyValue?_eq_some {line key value : List Char}
    (assigns : keyValue? line = some (key, value)) : line = key ++ '=' :: value ∧ value ≠ [] := by
  obtain ⟨cut, valid⟩ := Option.filter_eq_some_iff.1 assigns
  refine ⟨?_, ?_⟩
  · rw [← Text.cut?_eq_some cut]
    simp
  · rintro rfl
    simp at valid

theorem keyValue?_interval {value : List Char} (nonempty : value ≠ []) :
    keyValue? ("Interval=".toList ++ value) = some ("Interval".toList, value) := by
  have cut : Text.cut? ['='] ("Interval=".toList ++ value) = some ("Interval".toList, value) := rfl
  rw [keyValue?, cut]
  simp [List.isEmpty_eq_false_iff.2 nonempty]

theorem keyValue?_function {source : List Char} (nonempty : source ≠ []) :
    keyValue? ("Function=".toList ++ source) = some ("Function".toList, source) := by
  have cut : Text.cut? ['='] ("Function=".toList ++ source) = some ("Function".toList, source) :=
    rfl
  rw [keyValue?, cut]
  simp [List.isEmpty_eq_false_iff.2 nonempty]

theorem FirstNumbers.ne_nil {value : List Char} {m n : Nat} (numbers : FirstNumbers value m n) :
    value ≠ [] := by
  rintro rfl
  obtain ⟨d₁, d₂, more, eq, -⟩ := firstNumbers_iff.1 numbers
  cases eq

/-- What a line of a pair can add to it. -/
inductive Pair.Adds (pair : Pair) (line : List Char) : Pair → Prop
  | interval {value : List Char} {m n : Nat} (written : line = "Interval=".toList ++ value)
    (numbers : FirstNumbers value m n) : Adds pair line { pair with interval := some (m, n) }
  | function {source : List Char} (written : line = "Function=".toList ++ source)
    (nonempty : source ≠ []) : Adds pair line { pair with function := some source }
  | nothing : Adds pair line pair

theorem Pair.adds_of_add {pair after : Pair} {line : List Char}
    (added : pair.add line = .ok after) : pair.Adds line after := by
  unfold add at added
  split at added
  · cases added
  · next key value assigns =>
    obtain ⟨written, nonempty⟩ := keyValue?_eq_some assigns
    split at added
    · next named =>
      have key : key = "Interval".toList := by rw [← named, String.toList_ofList]
      cases read : bounds value with
      | error fault =>
          rw [read] at added
          cases added
      | ok limits =>
          obtain ⟨a, b⟩ := limits
          rw [read] at added
          cases added
          obtain ⟨m, n, numbers, rfl, rfl⟩ := bounds_eq_ok_iff.1 read
          exact .interval (by rw [written, key]; rfl) numbers
    · next named =>
      have key : key = "Function".toList := by rw [← named, String.toList_ofList]
      cases added
      exact .function (by rw [written, key]; rfl) nonempty
    · cases added
      exact .nothing

theorem Pair.add_interval (pair : Pair) {line : List Char} {m n : Nat}
    (interval : IntervalLine line m n) :
    pair.add line = .ok { pair with interval := some (m, n) } := by
  obtain ⟨value, rfl, numbers⟩ := interval
  have read := bounds_eq_ok_iff.2 ⟨m, n, numbers, rfl, rfl⟩
  rw [add, keyValue?_interval numbers.ne_nil]
  simp [read, bind, Except.bind, pure, Except.pure]

theorem Pair.add_function (pair : Pair) {source : List Char} (nonempty : source ≠ []) :
    pair.add ("Function=".toList ++ source) = .ok { pair with function := some source } := by
  rw [add, keyValue?_function nonempty]
  simp

/-- The time is an expression. -/
theorem exists_functionLine_time : ∃ x, FunctionLine "Function=t".toList x := by
  have compiles : (Expr.compile (String.ofList ['t'])).toOption.isSome = true := by decide +kernel
  cases compiled : Expr.compile (String.ofList ['t']) with
  | error e =>
      rw [compiled] at compiles
      cases compiles
  | ok x => exact ⟨x, ['t'], nofun, rfl, compiled⟩

theorem compile_eq_ok_iff {source : String} {a b : Int} {f : MotionFunction} :
    MotionFunction.compile source a b = .ok f ↔
      ∃ x, Expr.compile source = .ok x ∧ f = .between x a b := by
  unfold MotionFunction.compile
  cases Expr.compile source with
  | error e => simp [bind, Except.bind]
  | ok x => simp [bind, Except.bind, pure, Except.pure, eq_comm]

/-- A pair gives a motion function where it has both an interval and an expression that compiles. -/
theorem readPair_eq_ok_iff_of_add {line₁ line₂ : List Char} {first pair : Pair}
    (added₁ : Pair.add {} line₁ = .ok first) (added₂ : first.add line₂ = .ok pair)
    {f : MotionFunction} :
    readPair line₁ line₂ = .ok f ↔ ∃ a b source, pair.interval = some (a, b) ∧
      pair.function = some source ∧
      MotionFunction.compile (String.ofList source) a b = .ok f := by
  unfold readPair
  simp only [added₁, added₂, bind, Except.bind]
  rcases pair.interval with - | ⟨a, b⟩
  · simp
  · rcases pair.function with - | source
    · simp
    · have here : (∃ a' b' source', some (a, b) = some (a', b') ∧ some source = some source' ∧
          MotionFunction.compile (String.ofList source') a' b' = .ok f) ↔
          MotionFunction.compile (String.ofList source) a b = .ok f := by
        constructor
        · rintro ⟨_, _, _, ⟨⟩, ⟨⟩, compiled⟩
          exact compiled
        · exact fun compiled => ⟨a, b, source, rfl, rfl, compiled⟩
      rw [here]
      cases result : MotionFunction.compile (String.ofList source) a b <;>
        simp [result, pure, Except.pure]

/-- A pair that has both parts got each of them from a line of its own. -/
theorem paired_of_adds {line₁ line₂ : List Char} {first pair : Pair} {a b : Int}
    {source : List Char} {x : Expr} (adds₁ : Pair.Adds {} line₁ first)
    (adds₂ : first.Adds line₂ pair) (interval : pair.interval = some (a, b))
    (function : pair.function = some source)
    (compiled : Expr.compile (String.ofList source) = .ok x) :
    Paired line₁ line₂ (.between x a b) := by
  -- A line adds one part at most, so the second line adds the part that the first does not.
  cases adds₁ with
  | interval written numbers =>
      cases adds₂ with
      | function written' nonempty =>
          cases interval
          cases function
          exact .intervalFirst ⟨_, written, numbers⟩ ⟨_, nonempty, written', compiled⟩
      | interval | nothing => cases function
  | function written nonempty =>
      cases adds₂ with
      | interval written' numbers =>
          cases interval
          cases function
          exact .functionFirst ⟨_, nonempty, written, compiled⟩ ⟨_, written', numbers⟩
      | function | nothing => cases interval
  | nothing =>
      cases adds₂ with
      | interval => cases function
      | function | nothing => cases interval

/-- Two lines are read as a motion function just if they are a pair. -/
theorem readPair_eq_ok_iff {line₁ line₂ : List Char} {f : MotionFunction} :
    readPair line₁ line₂ = .ok f ↔ Paired line₁ line₂ f := by
  constructor
  · intro read
    cases added₁ : Pair.add {} line₁ with
    | error fault =>
        rw [readPair, added₁] at read
        cases read
    | ok first =>
        cases added₂ : first.add line₂ with
        | error fault =>
            rw [readPair, added₁] at read
            simp only [bind, Except.bind, added₂] at read
            cases read
        | ok pair =>
            obtain ⟨a, b, source, interval, function, built⟩ :=
              (readPair_eq_ok_iff_of_add added₁ added₂).1 read
            obtain ⟨x, compiled, rfl⟩ := compile_eq_ok_iff.1 built
            exact paired_of_adds (Pair.adds_of_add added₁) (Pair.adds_of_add added₂) interval
              function compiled
  · rintro (⟨interval, function⟩ | ⟨function, interval⟩)
    · obtain ⟨source, nonempty, rfl, compiled⟩ := function
      refine (readPair_eq_ok_iff_of_add (Pair.add_interval {} interval)
        (Pair.add_function _ nonempty)).2 ⟨_, _, source, rfl, rfl, ?_⟩
      exact compile_eq_ok_iff.2 ⟨_, compiled, rfl⟩
    · obtain ⟨source, nonempty, rfl, compiled⟩ := function
      refine (readPair_eq_ok_iff_of_add (Pair.add_function {} nonempty)
        (Pair.add_interval _ interval)).2 ⟨_, _, source, rfl, rfl, ?_⟩
      exact compile_eq_ok_iff.2 ⟨_, compiled, rfl⟩

/-- One of two lines gives the interval, with this value. -/
def GivesInterval (line₁ line₂ value : List Char) : Prop :=
  line₁ = "Interval=".toList ++ value ∨ line₂ = "Interval=".toList ++ value

theorem FunctionLine.ne_interval {line value : List Char} {x : Expr}
    (function : FunctionLine line x) : line ≠ "Interval=".toList ++ value := by
  obtain ⟨source, -, rfl, -⟩ := function
  intro same
  have head := congrArg List.head? same
  simp at head

theorem IntervalLine.numbers {value : List Char} {m n : Nat}
    (interval : IntervalLine ("Interval=".toList ++ value) m n) : FirstNumbers value m n := by
  obtain ⟨value', same, numbers⟩ := interval
  rwa [List.append_cancel_left same]

namespace Paired

variable {line₁ line₂ : List Char} {f : MotionFunction}

/-- The bounds of a motion function are the first two numbers of its interval line, in order. -/
theorem numbers (paired : Paired line₁ line₂ f) {value : List Char}
    (gives : GivesInterval line₁ line₂ value) :
    ∃ m n, FirstNumbers value m n ∧ f.first = min (m : Int) n ∧ f.last = max (m : Int) n := by
  cases paired with
  | @intervalFirst m n x interval function =>
      rcases gives with written | written
      · exact ⟨m, n, (written ▸ interval).numbers, rfl, rfl⟩
      · exact (function.ne_interval written).elim
  | @functionFirst m n x function interval =>
      rcases gives with written | written
      · exact (function.ne_interval written).elim
      · exact ⟨m, n, (written ▸ interval).numbers, rfl, rfl⟩

end Paired

/-! ## Pairs in a region -/

/-- The motion function is added for the servo of a region, if there is such a servo. -/
def adding (servo : Option (Fin servoCount)) (f : MotionFunction) (p : Program) : Program :=
  servo.elim p fun s => Reading.addFunction p s f

namespace Reading

variable {r : Reading} {n : Nat} {line : List Char} {servo : Option (Fin servoCount)}

theorem feed_blank (blank : content line = []) : r.feed n line = r := by
  simp [feed, blank]

theorem feedAll_blank {gap : List (List Char)} (blank : ∀ line ∈ gap, content line = []) :
    r.feedAll n gap = r := by
  induction gap generalizing n with
  | nil => rfl
  | cons line gap ih =>
      obtain ⟨here, later⟩ := List.forall_mem_cons.1 blank
      rw [feedAll, feed_blank here]
      exact ih later

/-- The line is neither blank nor does it close a region of motion functions. -/
def Inner (line : List Char) : Prop := content line ≠ [] ∧ content line ≠ "[end]".toList

theorem feed_track {p : Pairing} (region : r.region = .track servo p) (inner : Inner line) :
    r.feed n line = r.feedTrack n (content line) servo p := by
  have some : (content line).isEmpty = false := List.isEmpty_eq_false_iff.2 inner.1
  have inside : closes r.region (content line) = false := by
    have code : String.ofList (content line) ≠ "[end]" := fun same => inner.2 (by
      rw [← same, String.toList_ofList])
    simp [closes, region, code]
  simp [feed, some, region, feedRegion, region ▸ inside]

/-- The effect of both lines of a pair, with blank lines between them. -/
theorem feedAll_pair {line₁ line₂ : List Char} {gap : List (List Char)}
    (region : r.region = .track servo .unlocked) (inner₁ : Inner line₁) (inner₂ : Inner line₂)
    (blank : ∀ line ∈ gap, content line = []) :
    let after := r.feedAll n (line₁ :: (gap ++ [line₂]))
    (∀ f, readPair (content line₁) (content line₂) = .ok f →
      after = { r with region := .track servo .locked, program := adding servo f r.program }) ∧
    ∀ fault, readPair (content line₁) (content line₂) = .error fault →
      after = { r with region := .track servo .locked }.skip n (.pair fault) := by
  intro after
  have eq : after = { r with region := .track servo (.half n (content line₁)) }.feedTrack
      (n + 1 + gap.length) (content line₂) servo (.half n (content line₁)) := by
    unfold after
    rw [feedAll, feedAll_append, feed_track region inner₁, feedTrack, feedAll_blank blank, feedAll,
      feed_track rfl inner₂]
    rfl
  rw [eq]
  refine ⟨fun f read => ?_, fun fault read => ?_⟩
  · simp only [feedTrack, read]
    cases servo <;> rfl
  · simp only [feedTrack, read]

end Reading

/-- Bounds without their signs are the same interval just if there is no sign. -/
theorem natAbs_bounds_eq_iff {i j : Int} :
    min (i.natAbs : Int) j.natAbs = min i j ∧ max (i.natAbs : Int) j.natAbs = max i j ↔
      0 ≤ i ∧ 0 ≤ j := by
  omega

/-- Two lines in a region of motion functions that are a pair add its function and nothing else,
and the bounds of the function are the smaller and the larger one of the first two runs of digits of
the interval.  Where the interval is written in the documented form, these are the bounds that are
written just if neither is negative.  Two lines that are no pair add nothing and are reported at the
first of them; that is so for every interval without two runs of digits that are small enough. -/
theorem interval_of_pair {earlier gap : List (List Char)} {line₁ line₂ : List Char}
    {servo : Option (Fin servoCount)}
    (unlocked : (readLines earlier).region = .track servo .unlocked)
    (inner₁ : Reading.Inner line₁) (inner₂ : Reading.Inner line₂)
    (blank : ∀ line ∈ gap, content line = []) :
    let before := readLines earlier
    let after := readLines (earlier ++ line₁ :: (gap ++ [line₂]))
    (∀ f, Paired (content line₁) (content line₂) f →
      after.program = adding servo f before.program ∧ after.skipped = before.skipped ∧
        ∀ value, GivesInterval (content line₁) (content line₂) value →
          (∃ m n, FirstNumbers value m n ∧ f.first = min (m : Int) n ∧
            f.last = max (m : Int) n) ∧
          ∀ i j, WritesBounds value i j →
            (f.first = min i j ∧ f.last = max i j ↔ 0 ≤ i ∧ 0 ≤ j)) ∧
    ((∀ f, ¬Paired (content line₁) (content line₂) f) →
      after.program = before.program ∧
        ∃ fault, after.skipped = before.skipped.push ⟨earlier.length + 1, .pair fault⟩) ∧
    ∀ value, GivesInterval (content line₁) (content line₂) value →
      (∀ m n, ¬FirstNumbers value m n) → ∀ f, ¬Paired (content line₁) (content line₂) f := by
  intro before after
  have eq : after = before.feedAll (1 + earlier.length) (line₁ :: (gap ++ [line₂])) :=
    Reading.feedAll_append _ _ _ _
  obtain ⟨accepted, refused⟩ := Reading.feedAll_pair (n := 1 + earlier.length) unlocked inner₁ inner₂
    blank
  rw [← eq] at accepted refused
  refine ⟨fun f paired => ?_, fun unpaired => ?_, fun value gives unnumbered f paired => ?_⟩
  · have added := accepted f (readPair_eq_ok_iff.2 paired)
    refine ⟨by rw [added], by rw [added], fun value gives => ?_⟩
    obtain ⟨m, n, numbers, first, last⟩ := paired.numbers gives
    refine ⟨⟨m, n, numbers, first, last⟩, fun i j written => ?_⟩
    obtain ⟨rfl, rfl⟩ := numbers.unique written.firstNumbers
    rw [first, last]
    exact natAbs_bounds_eq_iff
  · cases read : readPair (content line₁) (content line₂) with
    | ok f => exact (unpaired f (readPair_eq_ok_iff.1 read)).elim
    | error fault =>
        have dropped := refused fault read
        refine ⟨by rw [dropped]; rfl, fault, ?_⟩
        rw [dropped, Nat.add_comm]
        rfl
  · obtain ⟨m, n, numbers, -⟩ := paired.numbers gives
    exact unnumbered m n numbers

theorem interval_of_signed_pair :
    let servo : Fin servoCount := ⟨0, by decide⟩
    let earlier := ["[m0]", "-"].map String.toList
    let gap := ["# from behind".toList]
    let line₁ := "Function=t".toList
    let line₂ := "Interval=-50, 100".toList
    (readLines earlier).region = .track (some servo) .unlocked ∧ Reading.Inner line₁ ∧
      Reading.Inner line₂ ∧ (∀ line ∈ gap, content line = []) ∧
      WritesBounds "-50, 100".toList (-50) 100 ∧
      ∃ f, Paired (content line₁) (content line₂) f ∧
        (readLines (earlier ++ line₁ :: (gap ++ [line₂]))).program.tracks.get servo = [f] ∧
        f.first = 50 ∧ f.last = 100 := by
  intro servo earlier gap line₁ line₂
  have unlocked : (readLines earlier).region = .track (some servo) .unlocked := by rfl
  have inner₁ : Reading.Inner line₁ := ⟨by decide, by decide⟩
  have inner₂ : Reading.Inner line₂ := ⟨by decide, by decide⟩
  have blank : ∀ line ∈ gap, content line = [] := by decide
  have written : WritesBounds "-50, 100".toList (-50) 100 :=
    ⟨[], "-50".toList, [], [' '], "100".toList, [], rfl, by simp [Text.isBlank],
      .minus (n := 50) ⟨by decide, by decide, by decide⟩,
      .plain (n := 100) ⟨by decide, by decide, by decide⟩⟩
  have empty : (readLines earlier).program.tracks.get servo = [] := by decide +kernel
  obtain ⟨x, function⟩ := exists_functionLine_time
  have interval : IntervalLine (content line₂) 50 100 :=
    ⟨"-50, 100".toList, by decide, written.firstNumbers⟩
  have paired : Paired (content line₁) (content line₂) (.between x (50 : Nat) (100 : Nat)) :=
    .functionFirst function interval
  obtain ⟨accepted, -, -⟩ := interval_of_pair unlocked inner₁ inner₂ blank
  obtain ⟨program, -, -⟩ := accepted _ paired
  refine ⟨unlocked, inner₁, inner₂, blank, written, _, paired, ?_, rfl, rfl⟩
  rw [program]
  exact (Reading.get_addFunction _ servo servo _).trans (by simp [empty])

/-- Bounds are taken from values of other forms: the sign of a bound, a fraction and a third number
are passed over, and nothing is reported. -/
theorem bounds_of_other_forms :
    let servo : Fin servoCount := ⟨0, by decide⟩
    let reading (value : String) :=
      read ("[m0]\n-\nInterval=" ++ value ++ "\nFunction=t\n[end]")
    let limits (value : String) :=
      ((reading value).program.tracks.get servo).map fun f => (f.first, f.last)
    limits "-50,100" = [(50, 100)] ∧ limits "0.5,10" = [(0, 5)] ∧ limits "1,2,3" = [(1, 2)] ∧
      ∀ value ∈ ["-50,100", "0.5,10", "1,2,3"], (reading value).skipped.size = 0 := by
  decide +kernel

end Gait.WalkFile
