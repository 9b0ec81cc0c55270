import Gait.Proofs.WalkFile.Effects

/-!
# Layout

A line counts with its `content` only, so blanks around it and a comment behind it make no
difference (`Dressed.content_eq`), and a line without content does nothing.  A text that is laid out
anew is the old one with a `Change` made to each of its lines: lines without content are put in, and
the others are kept and may be dressed.

Its reading is the old one under the new line numbers (`feedAll_laid`); the region is renumbered
too, as it remembers the line of a half pair.  Hence `read_laid`: the program is the same, and so
are the dropped lines but for their numbers.
-/

namespace Gait.WalkFile

open Text

/-! ## Lines with the same content -/

section Content

variable {c : Char} {line : List Char}

theorem content_cons (blank : isBlank c = true) : content (c :: line) = content line := by
  have code : (c != '#') = true := by
    rw [bne_iff_ne]
    rintro rfl
    contradiction
  rw [content, List.takeWhile_cons, if_pos code, trim_cons blank, content]

theorem content_append {rest : List Char}
    (same : trim (line ++ rest.takeWhile (· != '#')) = trim line) :
    content (line ++ rest) = content line := by
  rw [content, List.takeWhile_append, content]
  split
  · next uncommented =>
    have whole : line.takeWhile (· != '#') = line :=
      (List.takeWhile_prefix _).eq_of_length uncommented
    rw [whole, same]
  · rfl

theorem content_concat (blank : isBlank c = true) : content (line ++ [c]) = content line := by
  apply content_append
  rw [List.takeWhile_cons]
  split
  · exact trim_concat blank line
  · rw [List.append_nil]

theorem content_comment (note : List Char) : content (line ++ '#' :: note) = content line := by
  apply content_append
  rw [List.takeWhile_cons_of_neg (by decide), List.append_nil]

end Content

/-- A line with blanks around it and comments behind it.  A carriage return is a blank. -/
inductive Dressed (line : List Char) : List Char → Prop
  | plain : Dressed line line
  | blankBefore {dressed : List Char} {c : Char} (blank : isBlank c = true)
    (rest : Dressed line dressed) : Dressed line (c :: dressed)
  | blankBehind {dressed : List Char} {c : Char} (blank : isBlank c = true)
    (rest : Dressed line dressed) : Dressed line (dressed ++ [c])
  | comment {dressed : List Char} (note : List Char) (rest : Dressed line dressed) :
    Dressed line (dressed ++ '#' :: note)

theorem Dressed.content_eq {line dressed : List Char} (dress : Dressed line dressed) :
    content dressed = content line := by
  induction dress with
  | plain => rfl
  | blankBefore blank _ ih => rw [content_cons blank, ih]
  | blankBehind blank _ ih => rw [content_concat blank, ih]
  | comment note _ ih => rw [content_comment, ih]

theorem effect_congr {line line' : List Char} (same : content line = content line')
    (region : Region) (n : Nat) : effect region n line = effect region n line' := by
  rw [effect, effect, same]

/-! ## Changes of the layout -/

/-- What becomes of a place of a text: a line is put in, or the line there is kept and dressed. -/
inductive Change where
  | insert (line : List Char)
  | keep (line dressed : List Char)

namespace Change

/-- The line that a change keeps. -/
def old? : Change → Option (List Char)
  | insert _ => none
  | keep line _ => some line

/-- The line that stands there after the change. -/
def new : Change → List Char
  | insert line => line
  | keep _ dressed => dressed

/-- The line that is put in is blank but for a comment, or the line that is kept gets no more than
blanks and a comment. -/
def Cosmetic : Change → Prop
  | insert line => Dressed [] line
  | keep line dressed => Dressed line dressed

/-- The lines that are changed. -/
def before (changes : List Change) : List (List Char) := changes.filterMap old?

/-- The lines that changes lead to. -/
def after (changes : List Change) : List (List Char) := changes.map new

/-- How many lines are put in before line `n` of the lines that are changed. -/
def insertedBefore : List Change → Nat → Nat
  | [], _ => 0
  | insert _ :: changes, n => insertedBefore changes n + 1
  | keep _ _ :: changes, n => if n ≤ 1 then 0 else insertedBefore changes (n - 1)

end Change

/-! ## Readings under other numbers -/

section Renumber

variable (number : Nat → Nat)

/-- A reading with new numbers for its lines. -/
def Reading.renumber (r : Reading) : Reading where
  program := r.program
  region := r.region.renumber number
  skipped := r.skipped.map (·.renumber number)

theorem Reading.renumber_empty : Reading.renumber number {} = {} := by
  simp [Reading.renumber, Region.renumber]

theorem Effect.on_renumber (e : Effect) (r : Reading) :
    (e.renumber number).on (r.renumber number) = (e.on r).renumber number := by
  cases fault : e.fault <;> simp [on, renumber, Reading.renumber, fault]

theorem Reading.feed_renumber (r : Reading) (n : Nat) (line : List Char) :
    (r.renumber number).feed (number n) line = (r.feed n line).renumber number := by
  rw [feed_eq, feed_eq, ← Effect.on_renumber]
  exact congrArg (Effect.on · _) (effect_renumber number r.region n line)

end Renumber

/-- Reading the changed lines is reading the lines as they were, under other numbers. -/
theorem Reading.feedAll_laid {changes : List Change} (cosmetic : ∀ c ∈ changes, c.Cosmetic)
    {number : Nat → Nat} (r : Reading) {n m : Nat}
    (numbers : ∀ i, number (n + i) = m + i + Change.insertedBefore changes (i + 1)) :
    (r.renumber number).feedAll m (Change.after changes) =
      (r.feedAll n (Change.before changes)).renumber number := by
  induction changes generalizing r n m with
  | nil => rfl
  | cons change changes ih =>
      obtain ⟨here, later⟩ := List.forall_mem_cons.1 cosmetic
      cases change with
      | insert line =>
          -- The line does nothing, and all lines behind it move on by one.
          have still : (r.renumber number).feed m line = r.renumber number := by
            rw [feed_eq, effect_blank here.content_eq]
            simp [Effect.on]
          rw [Change.after, List.map_cons, Change.new, feedAll, still]
          apply ih later
          intro i
          have place := numbers i
          rw [Change.insertedBefore] at place
          omega
      | keep line dressed =>
          have place : number n = m := numbers 0
          have same : (r.renumber number).feed m dressed = (r.feed n line).renumber number := by
            rw [← feed_renumber, place, feed_eq, feed_eq, effect_congr here.content_eq]
          rw [Change.after, List.map_cons, Change.new, feedAll, same]
          apply ih later
          intro i
          have place := numbers (i + 1)
          rw [Change.insertedBefore, if_neg (by omega), Nat.add_sub_cancel] at place
          rw [Nat.add_assoc, Nat.add_comm 1 i, place]
          omega

/-- A text that is laid out anew is read as before.  Lines that are blank but for a comment may be
put in anywhere, and every other line may get blanks in front and blanks and comments behind, also
the carriage return of a longer line break.  The program stays the same, and the same lines are
dropped for the same reasons; the number of each grows by that of the lines that were put in before
it. -/
theorem read_laid {text text' : String} {changes : List Change}
    (old : lines text.toList = Change.before changes)
    (new : lines text'.toList = Change.after changes) (cosmetic : ∀ c ∈ changes, c.Cosmetic) :
    (read text').program = (read text).program ∧
      (read text').skipped =
        (read text).skipped.map (·.renumber fun n => n + Change.insertedBefore changes n) := by
  let number (n : Nat) := n + Change.insertedBefore changes n
  have numbers (i : Nat) : number (1 + i) = 1 + i + Change.insertedBefore changes (i + 1) := by
    rw [Nat.add_comm i 1]
  have laid := Reading.feedAll_laid cosmetic {} numbers
  rw [Reading.renumber_empty] at laid
  rw [read, read, old, new, laid]
  exact ⟨rfl, rfl⟩

/-- Between the two lines of a pair, and between the mark of a pair and its first line, stand lines
that were put in. -/
theorem read_laid_within_pair :
    let changes : List Change :=
      [.insert "# hip".toList, .keep "[m2]".toList "\t[m2]\r".toList, .keep "-".toList "-".toList,
        .insert " ".toList, .keep "Interval=7".toList "Interval=7 # short\r".toList,
        .insert [], .keep "Function=t".toList " Function=t".toList,
        .keep "[end]".toList "[end]".toList, .keep "[prg]".toList "[prg]#".toList,
        .keep ">40:5".toList ">40:5\r".toList, .insert "\t#>50:5".toList,
        .keep "halt".toList "halt".toList]
    let text := "[m2]\n-\nInterval=7\nFunction=t\n[end]\n[prg]\n>40:5\nhalt"
    let text' := "# hip\n\t[m2]\r\n-\n \nInterval=7 # short\r\n\n Function=t\n[end]\n[prg]#\n" ++
      ">40:5\r\n\t#>50:5\nhalt"
    lines text.toList = Change.before changes ∧ lines text'.toList = Change.after changes ∧
      (∀ c ∈ changes, c.Cosmetic) ∧ (read text').program = (read text).program ∧
      (read text).skipped.map (·.line) = #[3, 8] ∧
      (read text').skipped.map (·.line) = #[5, 12] := by
  intro changes text text'
  have old : lines text.toList = Change.before changes := by decide +kernel
  have new : lines text'.toList = Change.after changes := by decide +kernel
  have returned (line : List Char) : Dressed line (line ++ ['\r']) :=
    .blankBehind (by decide) .plain
  have cosmetic : ∀ c ∈ changes, c.Cosmetic := by
    simp only [changes, List.forall_mem_cons]
    exact ⟨.comment " hip".toList .plain, .blankBefore (by decide) (returned _), .plain,
      .blankBefore (by decide) .plain,
      .blankBehind (by decide) (.comment " short".toList (.blankBehind (by decide) .plain)), .plain,
      .blankBefore (by decide) .plain, .plain, .comment [] .plain, returned _,
      .blankBefore (by decide) (.comment ">50:5".toList .plain), .plain, nofun⟩
  obtain ⟨program, skipped⟩ := read_laid old new cosmetic
  refine ⟨old, new, cosmetic, program, by decide +kernel, ?_⟩
  rw [skipped]
  decide +kernel

end Gait.WalkFile
