import Gait.Proofs.WalkFile.Pairs

/-!
# Groups of lines in a region of motion functions

In a region of motion functions a separator takes the next two lines that are not blank as a pair,
whatever they are, and other lines are ignored.  `groups` finds these pairs of lines, and `pending`
is what is left over when the lines end: nothing, a separator, or a separator and the first line of
its pair.  A reading is at no other place than this (`Reading.feedAll_gathers`), so a region can be
read in pieces, with what is pending put before the next piece (`groups_append`).

A separator is a line as any other for a separator that is pending.  `function_of_pair_in_region`
is what follows for a pair of lines: it gives its function if nothing is pending before its
separator and is lost otherwise, and in both cases nothing is pending behind it.
-/

namespace Gait.WalkFile

/-! ## Groups -/

/-- What the lines say that are not blank. -/
def contents (lines : List (List Char)) : List (List Char) :=
  (lines.map content).filter (· ≠ [])

/-- The pairs of lines that separators take: each takes the next two lines, whatever they are. -/
def groups : List (List Char) → List (List Char × List Char)
  | [] => []
  | line :: rest =>
    if line = ['-'] then
      match rest with
      | first :: second :: more => (first, second) :: groups more
      | _ => []
    else groups rest

/-- The last separator with the line it has, if it is still waiting for lines. -/
def pending : List (List Char) → List (List Char)
  | [] => []
  | line :: rest =>
    if line = ['-'] then
      match rest with
      | _ :: _ :: more => pending more
      | _ => line :: rest
    else pending rest

section Groups

variable {line first second : List Char} {rest more : List (List Char)}

@[simp] theorem groups_nil : groups [] = [] := rfl

@[simp] theorem pending_nil : pending [] = [] := rfl

@[simp] theorem groups_separator :
    groups (['-'] :: first :: second :: more) = (first, second) :: groups more := by
  simp [groups]

@[simp] theorem pending_separator :
    pending (['-'] :: first :: second :: more) = pending more := by
  simp [pending]

theorem groups_other (other : line ≠ ['-']) : groups (line :: rest) = groups rest :=
  (groups.eq_def _).trans (if_neg other)

theorem pending_other (other : line ≠ ['-']) : pending (line :: rest) = pending rest :=
  (pending.eq_def _).trans (if_neg other)

theorem pending_cases (lines : List (List Char)) :
    pending lines = [] ∨ pending lines = [['-']] ∨ ∃ first, pending lines = [['-'], first] := by
  fun_induction pending lines with
  | case1 => exact .inl rfl
  | case2 first second more ih => exact ih
  | case3 rest short =>
      rcases rest with - | ⟨first, - | ⟨second, more⟩⟩
      · exact .inr (.inl rfl)
      · exact .inr (.inr ⟨first, rfl⟩)
      · exact (short first second more rfl).elim
  | case4 line rest other ih => exact ih

/-- Groups can be found piece by piece if what is pending is put before the next piece. -/
theorem groups_append (earlier later : List (List Char)) :
    groups (earlier ++ later) = groups earlier ++ groups (pending earlier ++ later) := by
  fun_induction pending earlier with
  | case1 => simp
  | case2 first second more ih => simp [ih]
  | case3 rest short =>
      rcases rest with - | ⟨first, - | ⟨second, more⟩⟩
      · rfl
      · rfl
      · exact (short first second more rfl).elim
  | case4 line rest other ih => simp [groups_other other, ih]

theorem pending_append (earlier later : List (List Char)) :
    pending (earlier ++ later) = pending (pending earlier ++ later) := by
  fun_induction pending earlier with
  | case1 => rfl
  | case2 first second more ih => simp [ih]
  | case3 => rfl
  | case4 line rest other ih => simp [pending_other other, ih]

end Groups

/-! ## Functions -/

/-- The motion functions of the groups that are pairs. -/
def functions (lines : List (List Char)) : List MotionFunction :=
  (groups lines).filterMap fun (first, second) => (readPair first second).toOption

theorem functions_append (earlier later : List (List Char)) :
    functions (earlier ++ later) = functions earlier ++ functions (pending earlier ++ later) := by
  rw [functions, groups_append, List.filterMap_append, functions, functions]

section Pairs

variable {first second line : List Char} {f : MotionFunction}

theorem toOption_readPair_eq_some_iff :
    (readPair first second).toOption = some f ↔ Paired first second f := by
  rw [← readPair_eq_ok_iff]
  cases readPair first second <;> simp [Except.toOption]

/-- No line of a pair is a separator. -/
theorem Paired.ne_separator (paired : Paired first second f) : first ≠ ['-'] ∧ second ≠ ['-'] := by
  cases paired with
  | intervalFirst interval function | functionFirst function interval =>
      obtain ⟨value, written, -⟩ := interval
      obtain ⟨source, -, written', -⟩ := function
      subst written written'
      exact ⟨nofun, nofun⟩

theorem functions_group :
    functions [['-'], first, second] = (readPair first second).toOption.toList := by
  cases read : (readPair first second).toOption <;> simp [functions, read]

/-- A pair behind lines that leave nothing pending gives its function, and a pair behind others
gives none.  Either way nothing is pending behind it. -/
theorem Paired.functions_pending (paired : Paired first second f) (earlier : List (List Char)) :
    functions (pending earlier ++ [['-'], first, second]) =
        (if pending earlier = [] then [f] else []) ∧
      pending (pending earlier ++ [['-'], first, second]) = [] := by
  obtain ⟨other₁, other₂⟩ := paired.ne_separator
  have unpaired {a b : List Char} (separator : a = ['-'] ∨ b = ['-']) :
      (readPair a b).toOption = none :=
    Option.eq_none_iff_forall_ne_some.2 fun g read => by
      obtain ⟨not₁, not₂⟩ := (toOption_readPair_eq_some_iff.1 read).ne_separator
      exact separator.elim not₁ not₂
  -- What is pending takes the separator of the pair, with or without the first line; the lines that
  -- are left of the pair are no separators, so they are ignored.
  rcases pending_cases earlier with none | separator | ⟨half, separator⟩
  · rw [none, List.nil_append, functions_group, toOption_readPair_eq_some_iff.2 paired]
    simp
  · rw [separator]
    simp [functions, unpaired, groups_other other₂, pending_other other₂]
  · rw [separator]
    simp [functions, unpaired, groups_other, pending_other, other₁, other₂]

end Pairs

/-! ## Regions -/

/-- The motion functions are added for the servo of a region, if there is such a servo. -/
def addingAll (servo : Option (Fin servoCount)) (fs : List MotionFunction) (p : Program) :
    Program :=
  fs.foldl (fun p f => adding servo f p) p

theorem addingAll_append (servo : Option (Fin servoCount)) (fs gs : List MotionFunction)
    (p : Program) : addingAll servo (fs ++ gs) p = addingAll servo gs (addingAll servo fs p) :=
  List.foldl_append

theorem get_addingAll (servo other : Fin servoCount) (fs : List MotionFunction) (p : Program) :
    (addingAll (some servo) fs p).tracks.get other =
      if servo = other then p.tracks.get servo ++ fs else p.tracks.get other := by
  induction fs generalizing p with
  | nil =>
      split
      · next same => rw [same, List.append_nil]; rfl
      · rfl
  | cons f fs ih =>
      have first : addingAll (some servo) (f :: fs) p =
          addingAll (some servo) fs (Reading.addFunction p servo f) := rfl
      rw [first, ih, Reading.get_addFunction, Reading.get_addFunction]
      split <;> simp

/-- The lines of the pair that a reading is at, with the separator before them. -/
def Pairing.lines : Pairing → List (List Char)
  | locked => []
  | unlocked => [['-']]
  | half _ first => [['-'], first]

namespace Reading

variable {r : Reading} {n : Nat} {line : List Char} {servo : Option (Fin servoCount)} {p : Pairing}

/-- In a region of motion functions a reading keeps what is pending of the lines and adds the
functions of the groups that they complete. -/
structure Gathers (servo : Option (Fin servoCount)) (lines : List (List Char)) (p : Program)
    (after : Reading) : Prop where
  pairing : ∃ q : Pairing, after.region = .track servo q ∧ q.lines = pending lines
  program : after.program = addingAll servo (functions lines) p

theorem feed_gathers (region : r.region = .track servo p) (inner : Inner line) :
    Gathers servo (p.lines ++ [content line]) r.program (r.feed n line) := by
  rw [feed_track region inner]
  cases p with
  | locked =>
      by_cases separator : content line = ['-']
      · rw [separator]
        exact ⟨⟨.unlocked, rfl, rfl⟩, rfl⟩
      · rw [feedTrack, if_neg separator]
        refine ⟨⟨.locked, region, ?_⟩, ?_⟩
        · simp [Pairing.lines, pending_other separator]
        · simp [Pairing.lines, functions, groups_other separator, addingAll]
  | unlocked => exact ⟨⟨.half n (content line), rfl, rfl⟩, rfl⟩
  | half n₁ first =>
      have group : functions (Pairing.lines (.half n₁ first) ++ [content line]) =
          (readPair first (content line)).toOption.toList := functions_group
      cases read : readPair first (content line) with
      | error fault =>
          rw [read] at group
          simp only [feedTrack, read]
          exact ⟨⟨.locked, rfl, by simp [Pairing.lines]⟩, by rw [group]; rfl⟩
      | ok f =>
          rw [read] at group
          simp only [feedTrack, read]
          refine ⟨⟨.locked, ?_, by simp [Pairing.lines]⟩, ?_⟩
          · cases servo <;> rfl
          · rw [group]
            cases servo <;> rfl

theorem feedAll_gathers {body : List (List Char)} (region : r.region = .track servo p)
    (within : ∀ line ∈ body, content line ≠ "[end]".toList) :
    Gathers servo (p.lines ++ contents body) r.program (r.feedAll n body) := by
  induction body generalizing r n p with
  | nil =>
      rw [show contents [] = [] from rfl, List.append_nil]
      refine ⟨⟨p, region, ?_⟩, ?_⟩ <;> cases p <;> rfl
  | cons line body ih =>
      obtain ⟨here, later⟩ := List.forall_mem_cons.1 within
      rw [feedAll]
      by_cases blank : content line = []
      · have same : contents (line :: body) = contents body := by simp [contents, blank]
        rw [feed_blank blank, same]
        exact ih region later
      · -- The pairing behind the line stands for what is pending with the line, which the lines
        -- behind it go on from.
        obtain ⟨⟨q, inside, kept⟩, added⟩ := feed_gathers (n := n) region ⟨blank, here⟩
        obtain ⟨rest, program⟩ := ih (n := n + 1) inside later
        have whole : p.lines ++ contents (line :: body) =
            (p.lines ++ [content line]) ++ contents body := by
          simp [contents, blank]
        rw [kept] at rest program
        rw [whole]
        constructor
        · rwa [pending_append]
        · rw [program, added, ← addingAll_append, ← functions_append]

theorem feed_tag {tag : List Char} {servo : Fin servoCount} (outside : r.region = .outside)
    (opens : trackTag? (content tag) = some servo.val) :
    r.feed n tag = { r with region := .track (some servo) .locked } := by
  have nonempty : (content tag).isEmpty = false := by
    rw [Bool.eq_false_iff]
    intro empty
    rw [List.isEmpty_iff.1 empty] at opens
    cases opens
  have other (code : String) (plain : trackTag? code.toList = none) :
      String.ofList (content tag) ≠ code := by
    rintro rfl
    rw [String.toList_ofList, opens] at plain
    cases plain
  have opened :
      r.openRegion n (content tag) = { r with region := .track (some servo) .locked } := by
    unfold openRegion
    split
    · next named => exact (other _ (by decide) named).elim
    · next named => exact (other _ (by decide) named).elim
    · next named => exact (other _ (by decide) named).elim
    · next named => exact (other _ (by decide) named).elim
    · simp [opens]
  simp [feed, nonempty, outside, opened]

/-- Motion functions stay where they were added. -/
theorem Feeds.tracks {p : Program} (feeds : r.Feeds line p) (servo : Fin servoCount) :
    r.program.tracks.get servo <+: p.tracks.get servo := by
  cases feeds with
  | describes _ _ _ tracks => exact tracks ▸ List.prefix_rfl
  | addsSetup | addsMain => exact List.prefix_rfl
  | addsFunction _ own f =>
      rw [get_addFunction]
      split
      · next same => exact same ▸ List.prefix_append _ _
      · exact List.prefix_rfl

theorem tracks_feedAll (r : Reading) (n : Nat) (lines : List (List Char))
    (servo : Fin servoCount) :
    r.program.tracks.get servo <+: (r.feedAll n lines).program.tracks.get servo := by
  induction lines generalizing r n with
  | nil => exact List.prefix_rfl
  | cons line lines ih => exact ((r.feeds n line).tracks servo).trans (ih _ (n + 1))

end Reading

/-- The lines of a region add, in order, the functions of the lines before a pair, the function of
the pair, and those of the lines behind it; only where a separator is still waiting for lines, the
pair adds nothing.  Nothing is added for another servo, and nothing is dropped later. -/
theorem function_of_pair_in_region {text : String}
    {start body rest earlier later : List (List Char)} {tag first second : List Char}
    {servo : Fin servoCount} {f : MotionFunction}
    (whole : lines text.toList = start ++ tag :: (body ++ rest))
    (outside : (readLines start).region = .outside)
    (opens : trackTag? (content tag) = some servo.val)
    (within : ∀ line ∈ body, content line ≠ "[end]".toList)
    (here : contents body = earlier ++ ['-'] :: first :: second :: later)
    (paired : Paired first second f) :
    let before := (readLines start).program
    let behind := (readLines (start ++ tag :: body)).program
    behind.tracks.get servo = before.tracks.get servo ++ (functions earlier ++
        ((if pending earlier = [] then [f] else []) ++ functions later)) ∧
      (∀ other, servo ≠ other → behind.tracks.get other = before.tracks.get other) ∧
      behind.tracks.get servo <+: (read text).program.tracks.get servo := by
  intro before behind
  let opened : Reading := { readLines start with region := .track (some servo) .locked }
  have region : readLines (start ++ tag :: body) = opened.feedAll (2 + start.length) body := by
    rw [readLines, Reading.feedAll_append, Reading.feedAll, ← readLines,
      Reading.feed_tag outside opens, Nat.add_right_comm]
  have program : behind = addingAll (some servo) (functions (contents body)) before := by
    unfold behind
    rw [region]
    exact (Reading.feedAll_gathers (r := opened) rfl within).program
  have added : functions (contents body) =
      functions earlier ++ ((if pending earlier = [] then [f] else []) ++ functions later) := by
    obtain ⟨own, resynced⟩ := paired.functions_pending earlier
    have cut : pending earlier ++ ['-'] :: first :: second :: later =
        (pending earlier ++ [['-'], first, second]) ++ later := by simp
    rw [here, functions_append, cut, functions_append, own, resynced, List.nil_append]
  have result : read text = (readLines (start ++ tag :: body)).feedAll
      (1 + (start ++ tag :: body).length) rest := by
    rw [read, whole, ← List.cons_append, ← List.append_assoc, Reading.feedAll_append, readLines]
  refine ⟨?_, fun other different => ?_, ?_⟩
  · rw [program, get_addingAll, if_pos rfl, added]
  · rw [program, get_addingAll, if_neg different]
  · rw [result]
    exact Reading.tracks_feedAll _ _ rest servo

theorem function_of_pair_behind_damaged_pair :
    let text := "[m0]\n-\nInterval=0,10\nnoise\n\n-\nFunction=t # time\nInterval=0, 100\n[end]"
    let body := ["-", "Interval=0,10", "noise", "", "-", "Function=t # time", "Interval=0, 100"]
    let earlier := ["-", "Interval=0,10", "noise"].map String.toList
    let first := "Function=t".toList
    let second := "Interval=0, 100".toList
    let servo : Fin servoCount := ⟨0, by decide⟩
    lines text.toList = "[m0]".toList :: (body.map String.toList ++ ["[end]".toList]) ∧
      (readLines []).region = .outside ∧ trackTag? (content "[m0]".toList) = some servo.val ∧
      (∀ line ∈ body.map String.toList, content line ≠ "[end]".toList) ∧
      contents (body.map String.toList) = earlier ++ [['-'], first, second] ∧
      ∃ f, Paired first second f ∧ (read text).program.tracks.get servo = [f] := by
  intro text body earlier first second servo
  have whole : lines text.toList =
      "[m0]".toList :: (body.map String.toList ++ ["[end]".toList]) := by
    decide +kernel
  have opens : trackTag? (content "[m0]".toList) = some servo.val := by decide
  have within : ∀ line ∈ body.map String.toList, content line ≠ "[end]".toList := by
    decide +kernel
  have here : contents (body.map String.toList) = earlier ++ [['-'], first, second] := by
    decide +kernel
  have settled : pending earlier = [] := by decide +kernel
  have damaged : functions earlier = [] := by rfl
  obtain ⟨x, function⟩ := exists_functionLine_time
  have interval : IntervalLine second 0 100 :=
    ⟨"0, 100".toList, rfl, firstNumbers_iff.2 ⟨['0'], "100".toList, [], by decide +kernel,
      ⟨by decide, by decide, by decide⟩, ⟨by decide, by decide, by decide⟩⟩⟩
  have paired : Paired first second (.between x (0 : Nat) (100 : Nat)) :=
    .functionFirst function interval
  have one : ((read text).program.tracks.get servo).length = 1 := by decide +kernel
  obtain ⟨added, -, stays⟩ :=
    @function_of_pair_in_region _ [] _ _ _ _ _ _ _ _ _ whole rfl opens within here paired
  have only := added.trans (by rw [settled, damaged])
  rw [only] at stays
  exact ⟨whole, rfl, opens, within, here, _, paired, (stays.eq_of_length one.symm).symm⟩

/-- A pair is lost behind half a pair and behind a second separator. -/
theorem pairs_behind_pending_lines :
    let servo : Fin servoCount := ⟨0, by decide⟩
    let found (earlier : String) :=
      ((read ("[m0]\n" ++ earlier ++ "-\nInterval=0,100\nFunction=2\n[end]")).program.tracks.get
        servo).map fun f => (f.first, f.last)
    found "" = [(0, 100)] ∧ found "-\nInterval=0,10\n" = [] ∧ found "-\n" = [] := by
  decide +kernel

end Gait.WalkFile
