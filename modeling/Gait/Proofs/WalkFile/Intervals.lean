import Gait.Proofs.WalkFile.Lines

/-!
# Bounds of intervals

The bounds of an interval are picked out of its value: the value is split at whatever is no digit,
and the first two runs of digits are the bounds.  `FirstRun` says what such a run is in terms of the
text, and `bounds_eq_ok_iff` that the bounds are the first two of them.

`WritesBounds` is the form in which walk files are said to give an interval: two whole numbers with
a comma between them.  A sign is no digit, so what is read of this form is each number without its
sign (`WritesBounds.firstNumbers`).
-/

namespace Gait

namespace StepLine

/-- The digits write a number that is not too large. -/
structure Writes (digits : List Char) (n : Nat) : Prop where
  written : Text.isNumeral digits = true
  value : Text.decimalValue digits = n
  bounded : n ≤ numberMax

theorem number?_eq_some_iff {digits : List Char} {n : Nat} :
    number? digits = some n ↔ Writes digits n := by
  rw [number?, Option.filter_eq_some_iff, Text.natural?_eq_some, decide_eq_true_eq]
  exact ⟨fun ⟨⟨written, value⟩, bounded⟩ => ⟨written, value, bounded⟩,
    fun ⟨written, value, bounded⟩ => ⟨⟨written, value⟩, bounded⟩⟩

end StepLine

namespace WalkFile

/-! ## Runs of digits -/

/-- The first run of digits of a text, and what stands behind it. -/
structure FirstRun (text digits rest : List Char) : Prop where
  whole : ∃ gap, text = gap ++ digits ++ rest ∧ ∀ c ∈ gap, c.isDigit = false
  written : Text.isNumeral digits = true
  stops : ∀ c ∈ rest.head?, c.isDigit = false

/-- All runs of digits of a text, in order. -/
def runs (text : List Char) : List (List Char) :=
  (text.splitOnP fun c => !c.isDigit).filter fun run => !run.isEmpty

theorem runs_append_cons {c : Char} (other : c.isDigit = false) (before behind : List Char) :
    runs (before ++ c :: behind) = runs before ++ runs behind := by
  rw [runs, List.splitOnP_append_cons _ _ (by simp [other]), List.filter_append, runs, runs]

theorem runs_of_isNumeral {digits : List Char} (written : Text.isNumeral digits = true) :
    runs digits = [digits] := by
  rw [Text.isNumeral, Bool.and_eq_true, List.all_eq_true] at written
  rw [runs, List.splitOnP_eq_singleton (by simpa using written.2)]
  simp only [List.filter_cons, written.1, List.filter_nil, if_true]

theorem runs_append_of_gap {gap : List Char} (other : ∀ c ∈ gap, c.isDigit = false)
    (text : List Char) : runs (gap ++ text) = runs text := by
  induction gap with
  | nil => rfl
  | cons c gap ih =>
      obtain ⟨here, later⟩ := List.forall_mem_cons.1 other
      exact (runs_append_cons here [] (gap ++ text)).trans (ih later)

theorem FirstRun.runs_eq {text digits rest : List Char} (first : FirstRun text digits rest) :
    runs text = digits :: runs rest := by
  obtain ⟨⟨gap, rfl, other⟩, written, stops⟩ := first
  rw [List.append_assoc, runs_append_of_gap other]
  cases rest with
  | nil => rw [List.append_nil, runs_of_isNumeral written]; rfl
  | cons c rest =>
      have here : c.isDigit = false := stops c rfl
      have behind : runs (c :: rest) = runs rest := runs_append_cons here [] rest
      rw [runs_append_cons here, runs_of_isNumeral written, behind, List.singleton_append]

theorem exists_firstRun {text : List Char} (nonempty : runs text ≠ []) :
    ∃ digits rest, FirstRun text digits rest := by
  let gap := text.takeWhile fun c => !c.isDigit
  let behind := text.dropWhile fun c => !c.isDigit
  have cut : gap ++ behind = text := List.takeWhile_append_dropWhile
  have other : ∀ c ∈ gap, c.isDigit = false := by
    have all := List.all_takeWhile (p := fun c : Char => !c.isDigit) (l := text)
    simpa using List.all_eq_true.1 all
  refine ⟨behind.takeWhile Char.isDigit, behind.dropWhile Char.isDigit, ⟨gap, ?_, other⟩, ?_, ?_⟩
  · rw [List.append_assoc, List.takeWhile_append_dropWhile, cut]
  · rw [Text.isNumeral, List.all_takeWhile, Bool.and_true]
    cases some : behind with
    | nil =>
        rw [← cut, some, runs_append_of_gap other] at nonempty
        exact (nonempty rfl).elim
    | cons c rest =>
        have digit : c.isDigit = true := by
          have stop := List.head?_dropWhile_not (fun c : Char => !c.isDigit) text
          rw [show text.dropWhile _ = c :: rest from some] at stop
          simpa using stop
        simp [digit]
  · intro c head
    have stop := List.head?_dropWhile_not Char.isDigit behind
    rw [head] at stop
    exact stop

/-- The first two runs of digits of a text write these numbers. -/
def FirstNumbers (text : List Char) (m n : Nat) : Prop :=
  ∃ d₁ behind₁ d₂ behind₂, FirstRun text d₁ behind₁ ∧ FirstRun behind₁ d₂ behind₂ ∧
    StepLine.Writes d₁ m ∧ StepLine.Writes d₂ n

theorem firstNumbers_iff {text : List Char} {m n : Nat} :
    FirstNumbers text m n ↔ ∃ d₁ d₂ more, runs text = d₁ :: d₂ :: more ∧
      StepLine.Writes d₁ m ∧ StepLine.Writes d₂ n := by
  constructor
  · rintro ⟨d₁, behind₁, d₂, behind₂, first, second, writes₁, writes₂⟩
    exact ⟨d₁, d₂, runs behind₂, by rw [first.runs_eq, second.runs_eq], writes₁, writes₂⟩
  · rintro ⟨d₁, d₂, more, eq, writes₁, writes₂⟩
    have some : runs text ≠ [] := by simp [eq]
    obtain ⟨d, behind₁, first⟩ := exists_firstRun some
    obtain ⟨rfl, tail⟩ := List.cons.inj (first.runs_eq.symm.trans eq)
    have again : runs behind₁ ≠ [] := by simp [tail]
    obtain ⟨d', behind₂, second⟩ := exists_firstRun again
    obtain ⟨rfl, -⟩ := List.cons.inj (second.runs_eq.symm.trans tail)
    exact ⟨d, behind₁, d', behind₂, first, second, writes₁, writes₂⟩

/-- The bounds of an interval are its first two runs of digits, whatever stands around them. -/
theorem bounds_eq_ok_iff {value : List Char} {a b : Int} :
    bounds value = .ok (a, b) ↔ ∃ m n : Nat, FirstNumbers value m n ∧ a = m ∧ b = n := by
  simp only [firstNumbers_iff, ← StepLine.number?_eq_some_iff]
  unfold bounds
  change (((runs value).take 2).mapM _ >>= _) = _ ↔ _
  rcases runs value with - | ⟨d₁, - | ⟨d₂, more⟩⟩
  · simp [pure, Except.pure, bind, Except.bind]
  · cases read₁ : StepLine.number? d₁ <;> simp [read₁, pure, Except.pure, bind, Except.bind]
  · cases read₁ : StepLine.number? d₁ with
    | none => simp [read₁, bind, Except.bind]
    | some m =>
        cases read₂ : StepLine.number? d₂ with
        | none => simp [read₁, read₂, bind, Except.bind]
        | some n =>
            simp only [List.take_succ_cons, List.take_zero, List.mapM_cons, List.mapM_nil, read₁,
              read₂, bind, Except.bind, pure, Except.pure, Except.ok.injEq, Prod.mk.injEq]
            constructor
            · rintro ⟨rfl, rfl⟩
              exact ⟨m, n, ⟨d₁, d₂, more, rfl, read₁, read₂⟩, rfl, rfl⟩
            · rintro ⟨m', n', ⟨_, _, _, same, read₁', read₂'⟩, rfl, rfl⟩
              cases same
              rw [read₁] at read₁'
              rw [read₂] at read₂'
              cases read₁'
              cases read₂'
              exact ⟨rfl, rfl⟩

/-! ## The documented form -/

/-- The text writes a whole number with at most a minus sign in front. -/
inductive WritesWhole : List Char → Int → Prop
  | plain {digits : List Char} {n : Nat} (writes : StepLine.Writes digits n) :
    WritesWhole digits n
  | minus {digits : List Char} {n : Nat} (writes : StepLine.Writes digits n) :
    WritesWhole ('-' :: digits) (-n)

/-- The text writes two whole numbers with a comma between them and blanks around them. -/
def WritesBounds (text : List Char) (i j : Int) : Prop :=
  ∃ gap₁ first gap₂ gap₃ second gap₄,
    text = gap₁ ++ first ++ gap₂ ++ ',' :: (gap₃ ++ second ++ gap₄) ∧
      (∀ gap ∈ [gap₁, gap₂, gap₃, gap₄], ∀ c ∈ gap, Text.isBlank c = true) ∧
      WritesWhole first i ∧ WritesWhole second j

theorem isDigit_eq_false_of_isBlank {c : Char} (blank : Text.isBlank c = true) :
    c.isDigit = false := by
  rw [Bool.eq_false_iff]
  intro digit
  have range : 48 ≤ c.toNat ∧ c.toNat ≤ 57 := by
    simpa [Char.isDigit, UInt32.le_iff_toNat_le] using digit
  simp only [Text.isBlank, Bool.or_eq_true, Bool.and_eq_true, decide_eq_true_eq, beq_iff_eq]
    at blank
  omega

/-- A whole number is written by digits behind something that is none. -/
theorem WritesWhole.exists_digits {text : List Char} {i : Int} (writes : WritesWhole text i) :
    ∃ sign digits, text = sign ++ digits ∧ (∀ c ∈ sign, c.isDigit = false) ∧
      StepLine.Writes digits i.natAbs := by
  cases writes with
  | plain writes => exact ⟨[], _, rfl, nofun, by simpa using writes⟩
  | minus writes => exact ⟨['-'], _, rfl, by simp, by simpa using writes⟩

/-- In the documented form, the signs have no part in the first two numbers. -/
theorem WritesBounds.firstNumbers {text : List Char} {i j : Int} (writes : WritesBounds text i j) :
    FirstNumbers text i.natAbs j.natAbs := by
  obtain ⟨gap₁, first, gap₂, gap₃, second, gap₄, rfl, blank, writes₁, writes₂⟩ := writes
  obtain ⟨sign₁, d₁, rfl, unsigned₁, written₁⟩ := writes₁.exists_digits
  obtain ⟨sign₂, d₂, rfl, unsigned₂, written₂⟩ := writes₂.exists_digits
  have other : ∀ gap ∈ [gap₁, gap₂, gap₃, gap₄], ∀ c ∈ gap, c.isDigit = false :=
    fun gap member c inGap => isDigit_eq_false_of_isBlank (blank gap member c inGap)
  simp only [List.forall_mem_cons, List.not_mem_nil, false_imp_iff, forall_const, and_true]
    at other
  obtain ⟨other₁, other₂, other₃, other₄⟩ := other
  refine ⟨d₁, gap₂ ++ ',' :: (gap₃ ++ (sign₂ ++ d₂) ++ gap₄), d₂, gap₄, ⟨?_, written₁.written, ?_⟩,
    ⟨?_, written₂.written, ?_⟩, written₁, written₂⟩
  · -- The first run of digits stands behind blanks and the sign, which are no digits.
    refine ⟨gap₁ ++ sign₁, by simp, fun c member => ?_⟩
    exact (List.mem_append.1 member).elim (other₁ c) (unsigned₁ c)
  · intro c head
    cases gap₂ with
    | nil => cases head; rfl
    | cons b gap₂ => cases head; exact other₂ _ List.mem_cons_self
  · refine ⟨gap₂ ++ ',' :: (gap₃ ++ sign₂), by simp, fun c member => ?_⟩
    rcases List.mem_append.1 member with inGap | behind
    · exact other₂ c inGap
    · rcases List.mem_cons.1 behind with rfl | behind
      · rfl
      · exact (List.mem_append.1 behind).elim (other₃ c) (unsigned₂ c)
  · exact fun c head => other₄ c (List.mem_of_mem_head? head)

theorem FirstNumbers.unique {text : List Char} {m n m' n' : Nat} (numbers : FirstNumbers text m n)
    (others : FirstNumbers text m' n') : m = m' ∧ n = n' := by
  obtain ⟨d₁, d₂, more, eq, writes₁, writes₂⟩ := firstNumbers_iff.1 numbers
  obtain ⟨_, _, _, eq', writes₁', writes₂'⟩ := firstNumbers_iff.1 others
  cases eq.symm.trans eq'
  exact ⟨writes₁.value.symm.trans writes₁'.value, writes₂.value.symm.trans writes₂'.value⟩

end WalkFile

end Gait
