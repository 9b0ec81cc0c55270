import Gait.Proofs.WalkFile.Appending
import Gait.Proofs.WalkFile.Layout
import Gait.Proofs.WalkFile.Pairs

/-!
# Reports

A line that is dropped is reported under its own number, and a pair of lines under the number of the
first one, which the region remembers in the meantime (`Region.halfLine?`).  Each line with content
can be named once: `effect_reports` says this of a single line, and `faults_sublist` of a whole
text, whose reports are among the numbers of its lines with content, in their order.

In a region that is read line by line, a dropped line leaves nothing behind but its report.  So
`skipped_accounts` can say for every text that nothing is lost and nothing is counted twice: a step
line adds a step or is reported, and in place of a reported line there might as well stand a blank
one.
-/

namespace Gait.WalkFile

open scoped List

/-! ## Regions that are read line by line -/

/-- A region whose lines are read and reported one by one. -/
def Region.Linewise (region : Region) : Prop := region = .info ∨ region = .setup ∨ region = .main

theorem exists_within_of_stepping (region : Region) (n : Nat) (add : StepLine.Draft → Edit)
    (draft : Except StepLine.Fault StepLine.Draft) :
    ∃ result, stepping region n add draft = .within region n result := by
  cases draft with
  | ok draft => exact ⟨.ok (add draft), rfl⟩
  | error fault => exact ⟨.error (.step fault), rfl⟩

theorem inside_linewise {region : Region} (linewise : region.Linewise) (n : Nat)
    (code : List Char) : ∃ result, inside n code region = .within region n result := by
  rcases linewise with rfl | rfl | rfl
  · rw [inside]
    cases keyValue? code with
    | none => exact ⟨.error .notKeyValue, rfl⟩
    | some parts => exact ⟨_, rfl⟩
  · exact exists_within_of_stepping _ _ _ _
  · exact exists_within_of_stepping _ _ _ _

/-! ## Under which number a line is reported -/

/-- The number of the line that a region holds as the first half of a pair. -/
def Region.halfLine? : Region → Option Nat
  | .track _ (.half n₁ _) => some n₁
  | _ => none

/-- What a line with content does to the reports.  A report is about the first half of a pair, if
one is there, or else about the line itself; the half is then gone.  Only the line itself can become
a half. -/
structure Effect.Reports (e : Effect) (region : Region) (n : Nat) : Prop where
  line : ∀ s ∈ e.fault, s.line = region.halfLine?.getD n ∧ e.region.halfLine? = none
  half : e.region.halfLine? = none ∨ e.region.halfLine? = some n

section Effects

variable {region : Region} {n : Nat}

theorem Effect.Reports.silent {e : Effect} (silent : e.fault = none)
    (whole : e.region.halfLine? = none) : e.Reports region n where
  line := by
    rw [silent]
    nofun
  half := .inl whole

theorem Effect.Reports.itself {e : Effect} {reason : Reason} (fault : e.fault = some ⟨n, reason⟩)
    (before : region.halfLine? = none) (whole : e.region.halfLine? = none) :
    e.Reports region n where
  line := by
    rw [fault]
    rintro _ ⟨⟩
    exact ⟨by rw [before]; rfl, whole⟩
  half := .inl whole

theorem Effect.within_reports (whole : region.halfLine? = none) (result : Except Reason Edit) :
    (Effect.within region n result).Reports region n := by
  cases result with
  | ok edit => exact .silent rfl whole
  | error reason => exact .itself rfl whole whole

theorem opening_reports (code : List Char) : (opening n code).Reports .outside n := by
  unfold opening
  split
  case h_5 =>
    split
    · exact .silent rfl rfl
    · split
      · exact .silent rfl rfl
      · exact .itself rfl rfl rfl
  case h_1 | h_2 | h_3 | h_4 => exact .silent rfl rfl

theorem pairing_reports (code : List Char) (servo : Option (Fin servoCount)) (p : Pairing) :
    (pairing n code servo p).Reports (.track servo p) n := by
  cases p with
  | locked =>
      rw [pairing]
      split <;> exact .silent rfl rfl
  | unlocked =>
      refine ⟨?_, .inr rfl⟩
      intro s fault
      cases fault
  | half n₁ code₁ =>
      rw [pairing]
      cases readPair code₁ code with
      | ok f => exact .silent rfl (by rfl)
      | error fault =>
          refine ⟨?_, .inl rfl⟩
          rintro _ ⟨⟩
          exact ⟨rfl, rfl⟩

theorem inside_reports (code : List Char) : (inside n code region).Reports region n := by
  have linewise (one : region.Linewise) (whole : region.halfLine? = none) :
      (inside n code region).Reports region n := by
    obtain ⟨result, eq⟩ := inside_linewise one n code
    rw [eq]
    exact Effect.within_reports whole result
  cases region with
  | outside => exact .silent rfl rfl
  | fileInfo => exact .silent rfl rfl
  | info => exact linewise (.inl rfl) rfl
  | setup => exact linewise (.inr (.inl rfl)) rfl
  | main => exact linewise (.inr (.inr rfl)) rfl
  | track servo p => exact pairing_reports code servo p

theorem effect_reports (region : Region) (n : Nat) {line : List Char}
    (nonblank : content line ≠ []) : (effect region n line).Reports region n := by
  unfold effect
  dsimp only
  rw [if_neg (by rwa [List.isEmpty_iff])]
  split
  · next outside =>
    rw [outside]
    exact opening_reports _
  · split
    · exact .silent rfl rfl
    · exact inside_reports _

end Effects

/-! ## The reports of a text -/

/-- The numbers of the lines with content, if the first line has number `n`. -/
def contentNumbers (n : Nat) (lines : List (List Char)) : List Nat :=
  ((lines.zipIdx n).filter fun p => content p.1 ≠ []).map Prod.snd

theorem contentNumbers_cons (n : Nat) (line : List Char) (lines : List (List Char)) :
    contentNumbers n (line :: lines) =
      (if content line = [] then [] else [n]) ++ contentNumbers (n + 1) lines := by
  rw [contentNumbers, List.zipIdx_cons, List.filter_cons]
  by_cases blank : content line = []
  · simp [blank, contentNumbers]
  · simp [blank, contentNumbers]

theorem mem_contentNumbers {n k : Nat} {lines : List (List Char)} :
    k ∈ contentNumbers n lines ↔ ∃ line, (line, k) ∈ lines.zipIdx n ∧ content line ≠ [] := by
  simp [contentNumbers]

theorem bounds_of_mem_contentNumbers {n k : Nat} {lines : List (List Char)}
    (member : k ∈ contentNumbers n lines) : n ≤ k ∧ k < n + lines.length := by
  obtain ⟨line, listed, -⟩ := mem_contentNumbers.1 member
  have lower := List.le_snd_of_mem_zipIdx listed
  have upper := List.snd_lt_add_of_mem_zipIdx listed
  exact ⟨lower, by omega⟩

theorem contentNumbers_pairwise (n : Nat) (lines : List (List Char)) :
    (contentNumbers n lines).Pairwise (· < ·) := by
  induction lines generalizing n with
  | nil => exact .nil
  | cons line lines ih =>
      rw [contentNumbers_cons]
      split
      · exact ih (n + 1)
      · refine List.pairwise_cons.2 ⟨fun k later => ?_, ih (n + 1)⟩
        exact (bounds_of_mem_contentNumbers later).1

/-- Reports name lines with content, none twice and in the order of the text.  The first of them may
be about a half pair from before. -/
theorem faults_sublist (region : Region) (n : Nat) (lines : List (List Char)) :
    (faults region n lines).map (·.line) <+
      region.halfLine?.toList ++ contentNumbers n lines := by
  induction lines generalizing region n with
  | nil => exact List.nil_sublist _
  | cons line lines ih =>
      rw [faults_cons, contentNumbers_cons, List.map_append]
      have later := ih (effect region n line).region (n + 1)
      by_cases blank : content line = []
      · rw [effect_blank blank] at later ⊢
        rw [if_pos blank]
        exact later
      · obtain ⟨here, half⟩ := effect_reports region n blank
        have among : (faults (effect region n line).region (n + 1) lines).map (·.line) <+
            [n] ++ contentNumbers (n + 1) lines := by
          rcases half with half | half
          · rw [half] at later
            exact later.trans (List.sublist_append_right [n] _)
          · rwa [half] at later
        rw [if_neg blank]
        cases fault : (effect region n line).fault with
        | none => exact among.trans (List.sublist_append_right _ _)
        | some s =>
            obtain ⟨named, whole⟩ := here s fault
            rw [whole] at later
            rw [Option.toList_some, List.map_singleton, named]
            cases region.halfLine? with
            | none => exact later.append_left [n]
            | some n₁ => exact among.append_left [n₁]

/-! ## One line of a text -/

variable {text : String} {earlier later : List (List Char)} {line : List Char}

theorem read_split (whole : lines text.toList = earlier ++ line :: later) :
    read text =
      ((readLines earlier).feed (earlier.length + 1) line).feedAll (earlier.length + 2) later := by
  rw [read, whole, Reading.feedAll_append, Reading.feedAll, Nat.add_comm 1]
  rfl

theorem skipped_readLines (earlier : List (List Char)) :
    (readLines earlier).skipped.toList = faults .outside 1 earlier := by
  simp [readLines, Reading.skipped_feedAll]

/-- The reports of a text are those of the lines before one of its lines, of the line and of the
lines behind it. -/
theorem skipped_split (whole : lines text.toList = earlier ++ line :: later) :
    let n := earlier.length + 1
    let e := effect (readLines earlier).region n line
    (read text).skipped.toList =
      faults .outside 1 earlier ++ e.fault.toList ++ faults e.region (n + 1) later := by
  intro n e
  rw [read_split whole, Reading.skipped_feedAll, Reading.feed_eq]
  simp only [Effect.on, Array.toList_append, skipped_readLines, Option.toList_toArray]
  rfl

theorem lt_of_mem_before {k : Nat} (member : k ∈ (faults .outside 1 earlier).map (·.line)) :
    k < earlier.length + 1 := by
  have bounds := bounds_of_mem_contentNumbers ((faults_sublist .outside 1 earlier).subset member)
  omega

theorem lt_of_mem_behind {region : Region} (whole : region.halfLine? = none) {n k : Nat}
    (member : k ∈ (faults region (n + 1) later).map (·.line)) : n < k := by
  have named := (faults_sublist region (n + 1) later).subset member
  rw [whole] at named
  exact (bounds_of_mem_contentNumbers named).1

/-! ## Lines of such regions -/

instance (line : List Char) : Decidable (Reading.Inner line) :=
  inferInstanceAs (Decidable (_ ∧ _))

section Linewise

variable {region : Region} {n : Nat}

theorem effect_of_not_inner (region : Region) (n : Nat) (outer : ¬Reading.Inner line) :
    effect region n line = { region } ∨ effect region n line = { region := .outside } := by
  by_cases blank : content line = []
  · exact .inl (effect_blank blank region n)
  · have close : content line = "[end]".toList :=
      Decidable.of_not_not fun other => outer ⟨blank, other⟩
    have same : content line = content "[end]".toList := close.trans (by decide)
    exact .inr ((effect_congr same region n).trans (effect_end region n))

theorem effect_of_inner (linewise : region.Linewise) (inner : Reading.Inner line) :
    effect region n line = inside n (content line) region := by
  have code : (content line).isEmpty = false := List.isEmpty_eq_false_iff.2 inner.1
  have other : String.ofList (content line) ≠ "[end]" := fun same =>
    inner.2 (by rw [← same, String.toList_ofList])
  rcases linewise with rfl | rfl | rfl <;> simp [effect, code, Reading.closes, other]

theorem effect_linewise (linewise : region.Linewise) (n : Nat) (line : List Char) :
    effect region n line = { region } ∨ effect region n line = { region := .outside } ∨
      ∃ result, effect region n line = .within region n result := by
  by_cases inner : Reading.Inner line
  · rw [effect_of_inner linewise inner]
    exact .inr (.inr (inside_linewise linewise n _))
  · exact (effect_of_not_inner region n inner).imp_right .inl

theorem effect_linewise_whole (linewise : region.Linewise) (n : Nat) (line : List Char) :
    (effect region n line).region.halfLine? = none := by
  have whole : region.halfLine? = none := by
    rcases linewise with rfl | rfl | rfl <;> rfl
  rcases effect_linewise linewise n line with same | closed | ⟨result, read⟩
  · rwa [same]
  · rw [closed]
    rfl
  · rw [read]
    cases result <;> exact whole

/-- A line that is dropped in such a region does nothing but to be reported. -/
theorem effect_of_fault (linewise : region.Linewise) {s : Skipped}
    (fault : (effect region n line).fault = some s) :
    effect region n line = { region, fault := some s } ∧ s.line = n := by
  rcases effect_linewise linewise n line with same | closed | ⟨result, read⟩
  · rw [same] at fault
    cases fault
  · rw [closed] at fault
    cases fault
  · rw [read] at fault ⊢
    cases result with
    | ok edit => cases fault
    | error reason =>
        cases fault
        exact ⟨rfl, rfl⟩

end Linewise

/-- The report of a line that stands in a region that is read line by line is the line's own. -/
theorem mem_fault_of_mem_skipped (whole : lines text.toList = earlier ++ line :: later)
    (linewise : (readLines earlier).region.Linewise) {s : Skipped}
    (member : s ∈ (read text).skipped) (here : s.line = earlier.length + 1) :
    (effect (readLines earlier).region (earlier.length + 1) line).fault = some s := by
  rw [← Array.mem_toList_iff, skipped_split whole, List.mem_append, List.mem_append] at member
  rcases member with (before | own) | behind
  · have lower := lt_of_mem_before (List.mem_map_of_mem before)
    omega
  · exact Option.mem_toList.1 own
  · have upper := lt_of_mem_behind (effect_linewise_whole linewise _ line)
      (List.mem_map_of_mem behind)
    omega

/-- A blank line might as well stand in place of one that is reported. -/
theorem read_with_blank (whole : lines text.toList = earlier ++ line :: later)
    (linewise : (readLines earlier).region.Linewise) {s : Skipped}
    (member : s ∈ (read text).skipped) (here : s.line = earlier.length + 1) {text' : String}
    (blanked : lines text'.toList = earlier ++ [] :: later) :
    (read text').program = (read text).program ∧
      ∃ front back, (read text).skipped.toList = front ++ s :: back ∧
        (read text').skipped.toList = front ++ back := by
  have fault := mem_fault_of_mem_skipped whole linewise member here
  obtain ⟨dropped, -⟩ := effect_of_fault linewise fault
  have still (region : Region) (n : Nat) : effect region n [] = { region } :=
    effect_blank rfl region n
  refine ⟨?_, ?_⟩
  · rw [read_split whole, read_split blanked, Reading.program_feedAll, Reading.program_feedAll,
      Reading.feed_eq, Reading.feed_eq, dropped, still]
    rfl
  · refine ⟨faults .outside 1 earlier, faults (readLines earlier).region (earlier.length + 2) later,
      ?_, ?_⟩
    · rw [skipped_split whole, dropped]
      simp
    · rw [skipped_split blanked, still]
      simp

/-! ## Step lines -/

/-- A line that is tried as a step: its number and what it is read as. -/
structure Trial where
  line : Nat
  result : Except StepLine.Fault Step

namespace Reading

/-- The step line that a line is in a region. -/
def trial? (r : Reading) (region : Region) (n : Nat) (line : List Char) : Option Trial :=
  if r.region = region ∧ Inner line then some ⟨n, StepLine.read r.program.tick (content line)⟩
  else none

/-- The step lines of a region, in the order of the text: its lines with content. -/
def trials (r : Reading) (region : Region) (n : Nat) : List (List Char) → List Trial
  | [] => []
  | line :: lines =>
    (r.trial? region n line).toList ++ (r.feed n line).trials region (n + 1) lines

theorem mem_trials_iff {r : Reading} {region : Region} {n : Nat} {lines : List (List Char)}
    {t : Trial} :
    t ∈ r.trials region n lines ↔ ∃ earlier line later, lines = earlier ++ line :: later ∧
      (r.feedAll n earlier).trial? region (n + earlier.length) line = some t := by
  induction lines generalizing r n with
  | nil => simp [trials]
  | cons first lines ih =>
      rw [trials, List.mem_append, Option.mem_toList, ih]
      constructor
      · rintro (here | ⟨earlier, line, later, rfl, tried⟩)
        · exact ⟨[], first, lines, rfl, here⟩
        · refine ⟨first :: earlier, line, later, rfl, ?_⟩
          rwa [List.length_cons, Nat.add_comm earlier.length, ← Nat.add_assoc]
      · rintro ⟨earlier, line, later, split, tried⟩
        cases earlier with
        | nil =>
            cases split
            exact .inl tried
        | cons _ earlier =>
            cases split
            refine .inr ⟨earlier, line, later, rfl, ?_⟩
            rwa [Nat.add_assoc, Nat.add_comm 1]

end Reading

/-- The region that lists the step that an edit adds. -/
def Edit.lister? : Edit → Option Region
  | addSetup _ => some .setup
  | addMain _ => some .main
  | assign _ | addFunction _ _ => none

theorem Edit.listed_on {edit : Edit} {region : Region} (elsewhere : edit.lister? ≠ some region)
    (p : Program) : (edit.on p).listed region = p.listed region := by
  cases edit <;> cases region <;> first | rfl | exact (elsewhere rfl).elim

theorem opening_edit (n : Nat) (code : List Char) : (opening n code).edit = none := by
  unfold opening
  split
  case h_5 =>
    split
    · rfl
    · split <;> rfl
  case h_1 | h_2 | h_3 | h_4 => rfl

theorem exists_draft_of_stepping {region : Region} {n : Nat} {add : StepLine.Draft → Edit}
    {result : Except StepLine.Fault StepLine.Draft} {edit : Edit}
    (made : (stepping region n add result).edit = some edit) : ∃ draft, edit = add draft := by
  cases result with
  | error fault => cases made
  | ok draft =>
      cases made
      exact ⟨draft, rfl⟩

theorem inside_lister? {region lister : Region} {n : Nat} {code : List Char} {edit : Edit}
    (made : (inside n code region).edit = some edit) (lists : edit.lister? = some lister) :
    region = lister := by
  cases region with
  | outside => cases made
  | fileInfo =>
      obtain ⟨version, -, rfl⟩ := Option.map_eq_some_iff.1 made
      cases lists
  | info =>
      rw [inside] at made
      cases assigned : keyValue? code with
      | none =>
          rw [assigned] at made
          cases made
      | some parts =>
          rw [assigned] at made
          dsimp only at made
          cases described : describing parts.1 parts.2 <;> rw [described] at made <;> cases made
          cases lists
  | setup =>
      obtain ⟨draft, rfl⟩ := exists_draft_of_stepping made
      cases lists
      rfl
  | main =>
      obtain ⟨draft, rfl⟩ := exists_draft_of_stepping made
      cases lists
      rfl
  | track servo p =>
      rw [inside] at made
      cases p with
      | locked | unlocked => cases made
      | half n₁ code₁ =>
          rw [pairing] at made
          cases paired : readPair code₁ code with
          | error fault =>
              rw [paired] at made
              cases made
          | ok f =>
              rw [paired] at made
              obtain ⟨s, -, rfl⟩ := Option.map_eq_some_iff.1 made
              cases lists

/-- A step is added by the region that lists it, from a line with content. -/
theorem effect_lister? {region lister : Region} {n : Nat} {edit : Edit}
    (made : (effect region n line).edit = some edit) (lists : edit.lister? = some lister) :
    region = lister ∧ Reading.Inner line := by
  have inner : Reading.Inner line := by
    by_cases inner : Reading.Inner line
    · exact inner
    · rcases effect_of_not_inner region n inner with still | closed
      · rw [still] at made
        cases made
      · rw [closed] at made
        cases made
  refine ⟨?_, inner⟩
  unfold effect at made
  dsimp only at made
  split at made
  · cases made
  · split at made
    · rw [opening_edit] at made
      cases made
    · split at made
      · cases made
      · exact inside_lister? made lists

/-! ## Each step line once -/

section Trials

variable {r : Reading} {region : Region} {n : Nat} {t : Trial}

/-- A step line adds its step and is not reported, or it is reported and adds nothing. -/
theorem feed_trial (steps : region = .setup ∨ region = .main)
    (tried : r.trial? region n line = some t) :
    t.line = n ∧ r.region = region ∧
      (∀ step, t.result = .ok step → (effect r.region n line).fault = none ∧
        (r.feed n line).program.listed region = (r.program.listed region).push step) ∧
      ∀ fault, t.result = .error fault → (effect r.region n line).fault = some ⟨n, .step fault⟩ ∧
        (r.feed n line).program.listed region = r.program.listed region := by
  rw [Reading.trial?, Option.ite_none_right_eq_some] at tried
  obtain ⟨⟨here, inner⟩, ⟨⟩⟩ := tried
  rw [Reading.feed_eq, here, effect_of_inner (steps.elim (.inr ∘ .inl) (.inr ∘ .inr)) inner]
  dsimp only
  rw [StepLine.read_eq]
  cases drafted : StepLine.readDraft (content line) with
  | ok draft =>
      refine ⟨rfl, rfl, fun step read => ?_, fun fault read => by cases read⟩
      cases read
      rcases steps with rfl | rfl <;>
        simp [inside, drafted, stepping, Effect.within, Effect.on, Edit.on, Program.listed]
  | error fault =>
      refine ⟨rfl, rfl, fun step read => (by cases read), fun fault read => ?_⟩
      cases read
      rcases steps with rfl | rfl <;>
        simp [inside, drafted, stepping, Effect.within, Effect.on]

theorem listed_feed_eq (untried : r.trial? region n line = none) :
    (r.feed n line).program.listed region = r.program.listed region := by
  rw [Reading.feed_eq]
  cases made : (effect r.region n line).edit with
  | none => rw [Effect.on, made]; rfl
  | some edit =>
      rw [Effect.on, made]
      apply Edit.listed_on
      intro lists
      obtain ⟨here, inner⟩ := effect_lister? made lists
      rw [Reading.trial?, if_pos ⟨here, inner⟩] at untried
      cases untried

/-- A region lists the steps of its step lines, in the order of the text. -/
theorem listed_feedAll_eq (steps : region = .setup ∨ region = .main) (r : Reading) (n : Nat)
    (lines : List (List Char)) :
    ((r.feedAll n lines).program.listed region).toList = (r.program.listed region).toList ++
      (r.trials region n lines).filterMap (·.result.toOption) := by
  induction lines generalizing r n with
  | nil => simp [Reading.feedAll, Reading.trials]
  | cons line lines ih =>
      rw [Reading.feedAll, ih, Reading.trials, List.filterMap_append, ← List.append_assoc]
      congr 1
      cases tried : r.trial? region n line with
      | none =>
          rw [listed_feed_eq tried]
          simp
      | some t =>
          obtain ⟨-, -, added, dropped⟩ := feed_trial steps tried
          cases result : t.result with
          | ok step =>
              rw [(added step result).2]
              simp [result, Except.toOption]
          | error fault =>
              rw [(dropped fault result).2]
              simp [result, Except.toOption]

end Trials

theorem count_skipped (whole : lines text.toList = earlier ++ line :: later)
    (linewise : (readLines earlier).region.Linewise) :
    ((read text).skipped.toList.map (·.line)).count (earlier.length + 1) =
      (effect (readLines earlier).region (earlier.length + 1) line).fault.toList.length := by
  have unhalved := effect_linewise_whole linewise (earlier.length + 1) line
  rw [skipped_split whole, List.map_append, List.map_append, List.count_append, List.count_append,
    List.count_eq_zero_of_not_mem fun before => Nat.lt_irrefl _ (lt_of_mem_before before),
    List.count_eq_zero_of_not_mem fun behind => Nat.lt_irrefl _ (lt_of_mem_behind unhalved behind),
    Nat.zero_add, Nat.add_zero]
  cases fault : (effect (readLines earlier).region (earlier.length + 1) line).fault with
  | none => rfl
  | some s =>
      rw [Option.toList_some, List.map_singleton, (effect_of_fault linewise fault).2,
        List.count_singleton_self]
      rfl

/-- A step line is reported once just if it is not read. -/
theorem count_trial {region : Region} (steps : region = .setup ∨ region = .main) {t : Trial}
    (tried : t ∈ Reading.trials {} region 1 (lines text.toList)) :
    ((read text).skipped.toList.map (·.line)).count t.line = if t.result.isOk then 0 else 1 := by
  obtain ⟨earlier, line, later, whole, trial⟩ := Reading.mem_trials_iff.1 tried
  rw [Nat.add_comm 1] at trial
  obtain ⟨number, here, added, dropped⟩ := feed_trial steps trial
  have linewise : (readLines earlier).region.Linewise := .inr (here ▸ steps)
  rw [number, count_skipped whole linewise]
  cases result : t.result with
  | ok step => exact congrArg (·.toList.length) (added step result).1
  | error fault => exact congrArg (·.toList.length) (dropped fault result).1

/-- Every line of a text is accounted for.  The dropped lines are reported in the order of the text
and none twice, and each of them has content.  A region of steps lists just the steps that its lines
with content are read as, in their order, and reports each of the others once.  In a region that is
read line by line, a blank line in place of a reported one leaves the program as it is and takes
nothing but the report away. -/
theorem skipped_accounts (text : String) :
    let r := read text
    let numbers := r.skipped.toList.map (·.line)
    (numbers.Pairwise (· < ·) ∧
      ∀ k ∈ numbers, ∃ line, (line, k) ∈ (lines text.toList).zipIdx 1 ∧ content line ≠ []) ∧
    (∀ region, region = .setup ∨ region = .main →
      let tried := Reading.trials {} region 1 (lines text.toList)
      (r.program.listed region).toList = tried.filterMap (·.result.toOption) ∧
        ∀ t ∈ tried, numbers.count t.line = if t.result.isOk then 0 else 1) ∧
    ∀ earlier line later, lines text.toList = earlier ++ line :: later →
      (readLines earlier).region.Linewise →
      ∀ s ∈ r.skipped, s.line = earlier.length + 1 →
      ∀ text', lines text'.toList = earlier ++ [] :: later →
        (read text').program = r.program ∧
          ∃ front back, r.skipped.toList = front ++ s :: back ∧
            (read text').skipped.toList = front ++ back := by
  intro r numbers
  have among : numbers <+ contentNumbers 1 (lines text.toList) := by
    have reports := faults_sublist .outside 1 (lines text.toList)
    rwa [← skipped_readLines] at reports
  refine ⟨⟨?_, ?_⟩, fun region steps => ⟨?_, ?_⟩, ?_⟩
  · exact (contentNumbers_pairwise 1 _).sublist among
  · exact fun k named => mem_contentNumbers.1 (among.subset named)
  · have unlisted : (({} : Reading).program.listed region).toList = [] := by
      rcases steps with rfl | rfl <;> rfl
    have listed := listed_feedAll_eq steps {} 1 (lines text.toList)
    rwa [unlisted, List.nil_append] at listed
  · exact fun t tried => count_trial steps tried
  · exact fun earlier line later whole linewise s member here text' blanked =>
      read_with_blank whole linewise member here blanked

/-- The report of the pair comes with its second line, and the one of the step line goes with it. -/
theorem skipped_accounts_of_pair_and_step :
    let text := "[m0]\n-\nInterval=9\n\nFunction=t\n[end]\n[prg]\n>40:5\n>oops\n>50:5"
    let text' := "[m0]\n-\nInterval=9\n\nFunction=t\n[end]\n[prg]\n>40:5\n\n>50:5"
    let earlier := ["[m0]", "-", "Interval=9", "", "Function=t", "[end]", "[prg]", ">40:5"].map
      String.toList
    lines text.toList = earlier ++ ">oops".toList :: [">50:5".toList] ∧
      (readLines earlier).region.Linewise ∧ (∃ s ∈ (read text).skipped, s.line = 9) ∧
      lines text'.toList = earlier ++ [] :: [">50:5".toList] ∧
      (read text').program = (read text).program ∧ (read text').program.main.size = 2 ∧
      (read text).skipped.map (·.line) = #[3, 9] ∧ (read text').skipped.map (·.line) = #[3] := by
  intro text text' earlier
  have whole : lines text.toList = earlier ++ ">oops".toList :: [">50:5".toList] := by
    decide +kernel
  have blanked : lines text'.toList = earlier ++ [] :: [">50:5".toList] := by decide +kernel
  have main : (readLines earlier).region = .main := by decide +kernel
  have reports : (read text).skipped.map (·.line) = #[3, 9] := by decide +kernel
  have named : ∃ s ∈ (read text).skipped, s.line = 9 := by
    rw [← Array.mem_map, reports]
    simp
  obtain ⟨s, member, here⟩ := named
  obtain ⟨-, -, blank⟩ := skipped_accounts text
  obtain ⟨program, -⟩ := blank _ _ _ whole (.inr (.inr main)) s member here text' blanked
  exact ⟨whole, .inr (.inr main), ⟨s, member, here⟩, blanked, program, by decide +kernel, reports,
    by decide +kernel⟩

end Gait.WalkFile
