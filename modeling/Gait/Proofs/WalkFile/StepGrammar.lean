import Gait.Proofs.WalkFile.Filling
import Gait.Proofs.WalkFile.Intervals

/-!
# The grammar of step lines

A step line is `>`, entries with commas between them, and optionally a colon and a delay.
`WritesEntry`, `WritesList`, `WritesEntries` and `WritesLine` are this grammar together with the
limits on its numbers.  Each reader succeeds exactly on its part of the grammar; this is proved from
the entries upwards.  A line can be cut at its colon and its entries at their commas because neither
stands in an entry (`WritesEntry.not_mem`).

`read_iff_writesLine` says this of whole lines, and which step they are read as.
-/

namespace Gait

namespace StepLine

/-! ## The grammar -/

/-- The letter in front of values of a scale. -/
def Scale.mark : Scale → List Char
  | raw => []
  | degrees => ['d']
  | milliradians => ['r']

/-- A raw value must be a setpoint, values of other scales are converted to one. -/
def Scale.Admits (scale : Scale) (value : Nat) : Prop :=
  scale = .raw → (value : Int) ≤ Setpoint.greatest

/-- The text writes an entry: a value, or a value and how often it is repeated. -/
inductive WritesEntry : List Char → Entry → Prop
  | once {scale : Scale} {digits : List Char} {value : Nat} (writes : Writes digits value)
    (admits : scale.Admits value) : WritesEntry (scale.mark ++ digits) ⟨scale, value, 1⟩
  | repeated {scale : Scale} {digits times : List Char} {value count : Nat}
    (writes : Writes digits value) (admits : scale.Admits value) (counts : Writes times count) :
    WritesEntry (scale.mark ++ (digits ++ '.' :: '.' :: times)) ⟨scale, value, count⟩

/-- The text writes one or more entries with commas between them. -/
inductive WritesList : List Char → List Entry → Prop
  | last {text : List Char} {e : Entry} (entry : WritesEntry text e) : WritesList text [e]
  | more {text rest : List Char} {e : Entry} {es : List Entry} (entry : WritesEntry text e)
    (list : WritesList rest es) : WritesList (text ++ ',' :: rest) (e :: es)

/-- The text writes no entries, or some with at most one comma behind the last. -/
inductive WritesEntries : List Char → List Entry → Prop
  | none : WritesEntries [] []
  | listed {text : List Char} {es : List Entry} (list : WritesList text es) : WritesEntries text es
  | trailing {text : List Char} {es : List Entry} (list : WritesList text es) :
    WritesEntries (text ++ [',']) es

/-- The line writes entries and a delay, if it writes one. -/
inductive WritesLine : List Char → List Entry → Option Nat → Prop
  | plain {text : List Char} {es : List Entry} (entries : WritesEntries text es) :
    WritesLine ('>' :: text) es none
  | delayed {text digits : List Char} {es : List Entry} {delay : Nat}
    (entries : WritesEntries text es) (writes : Writes digits delay) :
    WritesLine ('>' :: (text ++ ':' :: digits)) es (some delay)

/-! ## The characters of entries -/

section Characters

variable {c : Char} {text : List Char} {n : Nat} {e : Entry} {es : List Entry}

theorem Writes.isDigit (writes : Writes text n) (member : c ∈ text) : c.isDigit = true := by
  have all := (Bool.and_eq_true_iff.1 writes.written).2
  exact List.all_eq_true.1 all c member

theorem Writes.ne_nil (writes : Writes text n) : text ≠ [] := by
  rintro rfl
  cases writes.written

/-- A character that is neither a digit, a scale letter, nor a dot stands in no entry. -/
theorem WritesEntry.not_mem (writes : WritesEntry text e) (plain : c.isDigit = false)
    (other : c ∉ ['d', 'r', '.']) : c ∉ text := by
  have mark (scale : Scale) : c ∉ scale.mark := fun member => other (by
    cases scale <;> simp_all [Scale.mark])
  have digits {ds : List Char} {n : Nat} (writes : Writes ds n) : c ∉ ds := fun member => by
    cases plain.symm.trans (writes.isDigit member)
  cases writes with
  | once writes => simp [mark, digits writes]
  | repeated writes _ counts => simp_all [digits writes, digits counts]

theorem WritesEntry.ne_nil (writes : WritesEntry text e) : text ≠ [] := by
  cases writes with
  | once writes => simp [writes.ne_nil]
  | repeated writes => simp [writes.ne_nil]

theorem WritesEntry.comma_not_mem (writes : WritesEntry text e) : ',' ∉ text :=
  writes.not_mem (by decide) (by decide)

theorem WritesEntry.colon_not_mem (writes : WritesEntry text e) : ':' ∉ text :=
  writes.not_mem (by decide) (by decide)

theorem WritesList.colon_not_mem (writes : WritesList text es) : ':' ∉ text := by
  induction writes with
  | last entry => exact entry.colon_not_mem
  | more entry list ih => simp [entry.colon_not_mem, ih]

theorem WritesEntries.colon_not_mem (writes : WritesEntries text es) : ':' ∉ text := by
  cases writes with
  | none => exact List.not_mem_nil
  | listed list => exact list.colon_not_mem
  | trailing list => simp [list.colon_not_mem]

end Characters

/-! ## Entries -/

theorem splitScale_eq (cs : List Char) : (splitScale cs).1.mark ++ (splitScale cs).2 = cs := by
  unfold splitScale
  split <;> rfl

theorem splitScale_append {scale : Scale} {body : List Char}
    (digit : ∀ c ∈ body.head?, c.isDigit = true) :
    splitScale (scale.mark ++ body) = (scale, body) := by
  cases scale with
  | degrees | milliradians => rfl
  | raw =>
      rw [Scale.mark, List.nil_append]
      unfold splitScale
      split
      · cases digit _ rfl
      · cases digit _ rfl
      · rfl

theorem Writes.head_isDigit {digits rest : List Char} {n : Nat} (writes : Writes digits n) :
    ∀ c ∈ (digits ++ rest).head?, c.isDigit = true := by
  obtain ⟨d, ds, rfl⟩ := List.exists_cons_of_ne_nil writes.ne_nil
  rintro c ⟨⟩
  exact writes.isDigit List.mem_cons_self

theorem Writes.dot_not_mem {digits : List Char} {n : Nat} (writes : Writes digits n) :
    '.' ∉ digits := fun member => by cases writes.isDigit member

theorem Scale.admits_iff {scale : Scale} {value : Nat} :
    scale.Admits value ↔ ¬(scale = .raw ∧ Setpoint.greatest < value) := by
  rw [Admits, not_and, Int.not_lt]

theorem WritesEntry.of_read {text : List Char} {e : Entry} (read : readEntry text = .ok e) :
    WritesEntry text e := by
  obtain ⟨scale, body, split⟩ : ∃ scale body, splitScale text = (scale, body) := ⟨_, _, rfl⟩
  have whole := splitScale_eq text
  rw [split] at whole
  rw [readEntry, split] at read
  cases cut : Text.cut? ['.', '.'] body with
  | none =>
      simp only [cut] at read
      cases written : number? body with
      | none =>
          rw [written] at read
          cases read
      | some value =>
          simp only [written] at read
          split at read
          · cases read
          · next small =>
            cases read
            exact whole ▸ .once (number?_eq_some_iff.1 written) (Scale.admits_iff.2 small)
  | some parts =>
      obtain ⟨digits, times⟩ := parts
      have body_eq : digits ++ '.' :: '.' :: times = body := by simpa using Text.cut?_eq_some cut
      simp only [cut] at read
      cases written : number? digits with
      | none =>
          rw [written] at read
          cases read
      | some value =>
          simp only [written] at read
          split at read
          · cases read
          · next small =>
            cases counted : number? times with
            | none =>
                rw [counted] at read
                cases read
            | some count =>
                rw [counted] at read
                cases read
                rw [← whole, ← body_eq]
                exact .repeated (number?_eq_some_iff.1 written) (Scale.admits_iff.2 small)
                  (number?_eq_some_iff.1 counted)

theorem WritesEntry.readEntry_eq {text : List Char} {e : Entry} (writes : WritesEntry text e) :
    readEntry text = .ok e := by
  cases writes with
  | @once scale digits value writes admits =>
      have split : splitScale (scale.mark ++ digits) = (scale, digits) :=
        splitScale_append (List.append_nil digits ▸ writes.head_isDigit)
      have whole : Text.cut? ['.', '.'] digits = none :=
        Text.cut?_eq_none writes.dot_not_mem
      have small := Scale.admits_iff.1 admits
      rw [readEntry, split]
      simp only [whole, number?_eq_some_iff.2 writes, if_neg small]
      rfl
  | @repeated scale digits times value count writes admits counts =>
      have split : splitScale (scale.mark ++ (digits ++ '.' :: '.' :: times)) =
          (scale, digits ++ '.' :: '.' :: times) := splitScale_append writes.head_isDigit
      have parts : Text.cut? ['.', '.'] (digits ++ '.' :: '.' :: times) = some (digits, times) :=
        Text.cut?_append writes.dot_not_mem
      have small := Scale.admits_iff.1 admits
      rw [readEntry, split]
      simp only [parts, number?_eq_some_iff.2 writes, number?_eq_some_iff.2 counts, if_neg small]
      rfl

theorem readEntry_eq_ok_iff {text : List Char} {e : Entry} :
    readEntry text = .ok e ↔ WritesEntry text e :=
  ⟨.of_read, WritesEntry.readEntry_eq⟩

/-! ## Lists of entries -/

theorem WritesList.of_mapM {texts : List (List Char)} {es : List Entry} (some : texts ≠ [])
    (read : texts.mapM readEntry = .ok es) : WritesList ([','].intercalate texts) es := by
  induction texts generalizing es with
  | nil => exact (some rfl).elim
  | cons text texts ih =>
      rw [List.mapM_cons] at read
      cases first : readEntry text with
      | error fault =>
          rw [first] at read
          cases read
      | ok e =>
          cases rest : texts.mapM readEntry with
          | error fault =>
              rw [first, rest] at read
              cases read
          | ok es' =>
              rw [first, rest] at read
              cases read
              have entry := readEntry_eq_ok_iff.1 first
              cases texts with
              | nil =>
                  cases rest
                  simpa using WritesList.last entry
              | cons next texts =>
                  simpa using WritesList.more entry (ih (by simp) rest)

theorem WritesList.mapM_eq {text : List Char} {es : List Entry} (writes : WritesList text es) :
    (text.splitOn ',').mapM readEntry = .ok es := by
  induction writes with
  | last entry =>
      rw [List.splitOn_eq_singleton entry.comma_not_mem, List.mapM_cons, entry.readEntry_eq]
      rfl
  | more entry list ih =>
      rw [List.splitOn_append_cons_self_of_not_mem entry.comma_not_mem, List.mapM_cons,
        entry.readEntry_eq, ih]
      rfl

theorem mapM_readEntry_eq_ok_iff {text : List Char} {es : List Entry} :
    (text.splitOn ',').mapM readEntry = .ok es ↔ WritesList text es := by
  refine ⟨fun read => ?_, WritesList.mapM_eq⟩
  have writes := WritesList.of_mapM (List.splitOn_ne_nil ',' text) read
  rwa [List.intercalate_splitOn] at writes

theorem WritesList.ne_nil {text : List Char} {es : List Entry} (writes : WritesList text es) :
    text ≠ [] := by
  cases writes with
  | last entry => exact entry.ne_nil
  | more => simp

theorem WritesList.getLast?_ne_comma {text : List Char} {es : List Entry}
    (writes : WritesList text es) : text.getLast? ≠ some ',' := by
  induction writes with
  | last entry => exact fun comma => entry.comma_not_mem (List.mem_of_getLast? comma)
  | more entry list ih =>
      obtain ⟨c, rest, rfl⟩ := List.exists_cons_of_ne_nil list.ne_nil
      simpa [List.getLast?_append] using ih

theorem readEntries_eq_ok_iff {text : List Char} {es : List Entry} :
    readEntries text = .ok es ↔ WritesEntries text es := by
  unfold readEntries
  constructor
  · intro read
    split at read
    · next empty =>
      rw [List.isEmpty_iff.1 empty]
      cases read
      exact .none
    · have list := mapM_readEntry_eq_ok_iff.1 read
      split at list
      · next comma =>
        obtain ⟨front, rfl⟩ := List.getLast?_eq_some_iff.1 comma
        rw [List.dropLast_concat] at list
        exact .trailing list
      · exact .listed list
  · -- No list ends with a comma, so a comma at the end is the one that may be dropped.
    rintro (_ | list | list)
    · rfl
    · rw [if_neg (by simpa using list.ne_nil), if_neg list.getLast?_ne_comma]
      exact list.mapM_eq
    · rw [if_neg (by simp), if_pos (by simp), List.dropLast_concat]
      exact list.mapM_eq

/-! ## Lines -/

theorem cut?_colon {text rest : List Char} (plain : ':' ∉ text) :
    Text.cut? [':'] (text ++ ':' :: rest) = some (text, rest) :=
  Text.cut?_append plain

theorem read_plain_eq {tick : Nat} {body : List Char} (plain : Text.cut? [':'] body = none) :
    read tick ('>' :: body) = (readEntries body).map fun es => filled es tick := by
  rw [read, plain]
  simp only [bind, Except.bind]
  cases readEntries body with
  | error fault => rfl
  | ok es => exact congrArg Except.ok (setAll_setpoints es tick)

theorem read_delayed_eq {tick delay : Nat} {body text digits : List Char}
    (cut : Text.cut? [':'] body = some (text, digits)) (written : number? digits = some delay) :
    read tick ('>' :: body) = (readEntries text).map fun es => filled es delay := by
  rw [read, cut]
  simp only [bind, Except.bind, written]
  cases readEntries text with
  | error fault => rfl
  | ok es => exact congrArg Except.ok (setAll_setpoints es delay)

theorem WritesLine.of_read {tick : Nat} {line : List Char} {step : Step}
    (accepted : read tick line = .ok step) :
    ∃ es delay, WritesLine line es delay ∧ step = filled es (delay.getD tick) := by
  rcases line with - | ⟨c, body⟩
  · cases accepted
  by_cases marked : c = '>'
  · subst marked
    cases cut : Text.cut? [':'] body with
    | none =>
        rw [read_plain_eq cut] at accepted
        cases entries : readEntries body with
        | error fault =>
            rw [entries] at accepted
            cases accepted
        | ok es =>
            rw [entries] at accepted
            cases accepted
            exact ⟨es, none, .plain (readEntries_eq_ok_iff.1 entries), rfl⟩
    | some parts =>
        obtain ⟨text, digits⟩ := parts
        have whole := Text.cut?_eq_some cut
        cases written : number? digits with
        | none =>
            rw [read, cut] at accepted
            simp only [written] at accepted
            cases accepted
        | some delay =>
            rw [read_delayed_eq cut written] at accepted
            cases entries : readEntries text with
            | error fault =>
                rw [entries] at accepted
                cases accepted
            | ok es =>
                rw [entries] at accepted
                cases accepted
                refine ⟨es, some delay, ?_, rfl⟩
                rw [← whole, List.append_assoc]
                exact .delayed (readEntries_eq_ok_iff.1 entries) (number?_eq_some_iff.1 written)
  · rw [read] at accepted
    · cases accepted
    · rintro body' ⟨⟩
      exact marked rfl

theorem WritesLine.read_eq {tick : Nat} {line : List Char} {es : List Entry} {delay : Option Nat}
    (writes : WritesLine line es delay) : read tick line = .ok (filled es (delay.getD tick)) := by
  cases writes with
  | plain entries =>
      rw [read_plain_eq (Text.cut?_eq_none entries.colon_not_mem),
        readEntries_eq_ok_iff.2 entries]
      rfl
  | delayed entries writes =>
      rw [read_delayed_eq (cut?_colon entries.colon_not_mem) (number?_eq_some_iff.2 writes),
        readEntries_eq_ok_iff.2 entries]
      rfl

/-! ## Malformed entries -/

section Malformed

variable {text tail spec : List Char} {es : List Entry} {delay : Option Nat}

end Malformed

end StepLine

end Gait
