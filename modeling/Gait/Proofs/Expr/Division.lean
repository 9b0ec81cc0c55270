import Gait.Proofs.Expr.Matches

/-!
# Texts divided into lexemes

`Divides front lexemes rest` says that `front`, with `rest` behind it, is a row of lexemes with gaps
before, between and behind them, each the longest match at its place.  `Divides.scan_append` says
that scanning goes over such a front and on with the rest, and `exists_divides` how far any text is
divided: to its end, to a character that no lexeme starts with, or to a text that is taken for a
number and is none.

A division stays one if the text ends where it ends (`Divides.alone`), and the written lexemes of a
division with single gaps between them are divided again (`joined`).
-/

namespace Gait.Expr.Lexeme

/-- A front part of a text is divided into lexemes, with the rest behind it. -/
inductive Divides : List Char → List Lexeme → List Char → Prop
  | done (rest : List Char) : Divides [] [] rest
  | gap {c : Char} {front rest : List Char} {lexemes : List Lexeme} (blank : isGap c = true)
    (later : Divides front lexemes rest) : Divides (c :: front) lexemes rest
  | lexeme {l : Lexeme} {front rest : List Char} {lexemes : List Lexeme}
    (stands : Stands l.text (.ok l) (l.text ++ (front ++ rest)))
    (later : Divides front lexemes rest) : Divides (l.text ++ front) (l :: lexemes) rest

/-- A character of no lexeme and of no gap. -/
def Foreign (c : Char) : Prop :=
  isGap c = false ∧ ∀ l : Lexeme, Match l.text (.ok l) → c ∉ l.text

/-! ## Offsets -/

section Offsets

variable {c : Char} {cs ds : List Char}

@[simp] theorem utf8Length_nil : utf8Length [] = 0 := rfl

@[simp] theorem utf8Length_append (cs ds : List Char) :
    utf8Length (cs ++ ds) = utf8Length cs + utf8Length ds := by
  rw [utf8Length, String.ofList_append, String.utf8ByteSize_append, utf8Length, utf8Length]

@[simp] theorem utf8Length_cons (c : Char) (cs : List Char) :
    utf8Length (c :: cs) = c.utf8Size + utf8Length cs := by
  have single : utf8Length [c] = c.utf8Size := by
    rw [utf8Length, ← String.singleton_eq_ofList, String.utf8ByteSize_singleton]
  rw [← List.singleton_append, utf8Length_append, single]

end Offsets

/-! ## Scanning -/

section Scan

variable {c : Char} {cs front rest : List Char} {l : Lexeme} {lexemes : List Lexeme} {offset : Nat}

theorem scan_nil : scan offset [] = .ok [] := by
  rw [scan]

theorem scan_gap (blank : isGap c = true) :
    scan offset (c :: cs) = scan (offset + c.utf8Size) cs := by
  rw [scan, if_pos blank]

theorem isGap_of_startsLexeme (starts : startsLexeme c = true) : ¬isGap c = true := by
  intro blank
  rw [startsLexeme_of_isGap blank] at starts
  cases starts

/-- Scanning takes the longest match and goes on behind it. -/
theorem scan_lexeme (stands : Stands l.text (.ok l) (l.text ++ cs)) :
    scan offset (l.text ++ cs) = (scan (offset + utf8Length l.text) cs).map (l :: ·) := by
  obtain ⟨c, text, written, starts, -⟩ := stands.made.first?_self
  have taken : first? c (text ++ cs) = some (.ok l) := by
    rw [first?_eq_some_iff]
    exact ⟨l.text, by rwa [written] at stands ⊢⟩
  have behind : (text ++ cs).drop (l.text.length - 1) = cs := by
    rw [written, List.length_cons, Nat.add_sub_cancel, List.drop_left]
  rw [congrArg (· ++ cs) written, List.cons_append, scan, if_neg (isGap_of_startsLexeme starts),
    taken]
  dsimp only
  rw [behind]
  cases scan (offset + utf8Length l.text) cs <;> rfl

/-- Scanning stops where no lexeme starts. -/
theorem scan_foreign (blank : isGap c = false) (starts : startsLexeme c = false) :
    scan offset (c :: cs) = .error (.unexpectedChar c offset) := by
  rw [scan, if_neg (by rw [blank]; exact Bool.false_ne_true), first?_eq_none_iff.2 starts]

/-- Scanning stops at the first match that is no lexeme. -/
theorem scan_misread {text : List Char} {e : CompileError} (stands : Stands text (.error e) rest) :
    scan offset rest = .error e := by
  obtain ⟨c, cs, rfl, starts, -⟩ := stands.made.first?_self
  obtain ⟨behind, rfl⟩ := stands.here
  have taken : first? c (cs ++ behind) = some (.error e) := first?_eq_some_iff.2 ⟨_, stands⟩
  rw [List.cons_append, scan, if_neg (isGap_of_startsLexeme starts), taken]

end Scan

namespace Divides

variable {front rest : List Char} {lexemes : List Lexeme}

/-- Scanning goes over what is divided, and on with the rest. -/
theorem scan_append (divides : Divides front lexemes rest) (offset : Nat) :
    scan offset (front ++ rest) =
      (scan (offset + utf8Length front) rest).map (lexemes ++ ·) := by
  induction divides generalizing offset with
  | done rest =>
      rw [List.nil_append, utf8Length_nil, Nat.add_zero]
      cases scan offset rest <;> rfl
  | gap blank _ ih => rw [List.cons_append, scan_gap blank, ih, utf8Length_cons, Nat.add_assoc]
  | @lexeme l front rest lexemes stands _ ih =>
      rw [List.append_assoc, scan_lexeme stands, ih, utf8Length_append, Nat.add_assoc]
      cases scan (offset + (utf8Length l.text + utf8Length front)) rest <;> rfl

/-- What is divided is divided as well if nothing is behind it. -/
theorem alone (divides : Divides front lexemes rest) : Divides front lexemes [] := by
  induction divides with
  | done rest => exact .done []
  | gap blank _ ih => exact .gap blank ih
  | @lexeme l front rest lexemes stands _ ih =>
      refine .lexeme (stands.of_shorter (List.prefix_append _ _) ?_) ih
      rw [List.append_nil, List.prefix_append_right_inj]
      exact List.prefix_append front rest

theorem scan_alone (divides : Divides front lexemes rest) (offset : Nat) :
    scan offset front = .ok lexemes := by
  have whole := divides.alone.scan_append offset
  rw [List.append_nil, scan_nil] at whole
  rw [whole]
  exact congrArg Except.ok (List.append_nil lexemes)

theorem made (divides : Divides front lexemes rest) : ∀ l ∈ lexemes, Match l.text (.ok l) := by
  induction divides with
  | done => exact nofun
  | gap _ _ ih => exact ih
  | lexeme stands _ ih => exact List.forall_mem_cons.2 ⟨stands.made, ih⟩

/-- Nothing in a division is foreign. -/
theorem not_foreign (divides : Divides front lexemes rest) : ∀ c ∈ front, ¬Foreign c := by
  induction divides with
  | done => exact nofun
  | gap blank _ ih =>
      refine List.forall_mem_cons.2 ⟨fun foreign => ?_, ih⟩
      rw [foreign.1] at blank
      cases blank
  | @lexeme l front rest lexemes stands _ ih =>
      intro c member foreign
      rcases List.mem_append.1 member with inside | later
      · exact foreign.2 l stands.made inside
      · exact ih c later foreign

end Divides

theorem foreign_of_startsLexeme {c : Char} (blank : isGap c = false)
    (starts : startsLexeme c = false) : Foreign c := by
  refine ⟨blank, fun l made member => ?_⟩
  rw [made.startsLexeme c member] at starts
  cases starts

/-- The lexemes of a text, written with single gaps between them, are divided again. -/
theorem joined {lexemes : List Lexeme} (made : ∀ l ∈ lexemes, Match l.text (.ok l)) {blank : Char}
    (gap : isGap blank = true) :
    Divides ([blank].intercalate (lexemes.map Lexeme.text)) lexemes [] := by
  induction lexemes with
  | nil => exact .done []
  | cons l lexemes ih =>
      obtain ⟨first, later⟩ := List.forall_mem_cons.1 made
      rcases lexemes with - | ⟨l', lexemes⟩
      · have single : [blank].intercalate ([l].map Lexeme.text) = l.text ++ [] := by
          simp [List.intercalate]
        rw [single]
        exact .lexeme (first.stands nofun) (.done [])
      · have split : [blank].intercalate ((l :: l' :: lexemes).map Lexeme.text) =
            l.text ++ blank :: [blank].intercalate ((l' :: lexemes).map Lexeme.text) := by
          simp [List.intercalate]
        rw [split]
        refine .lexeme (first.stands fun c head => ?_) (.gap gap (ih later))
        cases head
        exact gap

/-- A match is a lexeme with its text, or a number that cannot be read. -/
theorem Match.eq_ok_or_error {text : List Char} {result : Except CompileError Lexeme}
    (made : Match text result) :
    (∃ l, text = l.text ∧ result = .ok l) ∨
      Number.read? text = none ∧ result = .error (.invalidNumber (String.ofList text)) := by
  cases made with
  | misread _ unread => exact .inr ⟨unread, rfl⟩
  | _ => exact .inl ⟨_, rfl, rfl⟩

/-- How far a text is divided. -/
theorem exists_divides (cs : List Char) : ∃ front lexemes rest, cs = front ++ rest ∧
    Divides front lexemes rest ∧
      (rest = [] ∨
        (∃ c after, rest = c :: after ∧ isGap c = false ∧ startsLexeme c = false) ∨
        ∃ text, Stands text (.error (.invalidNumber (String.ofList text))) rest) := by
  induction length : cs.length using Nat.strongRecOn generalizing cs with
  | _ n ih =>
      rcases cs with - | ⟨c, cs⟩
      · exact ⟨[], [], [], rfl, .done [], .inl rfl⟩
      · rw [List.length_cons] at length
        cases blank : isGap c with
        | true =>
            obtain ⟨front, lexemes, rest, rfl, divides, stops⟩ := ih _ (by omega) cs rfl
            exact ⟨c :: front, lexemes, rest, rfl, .gap blank divides, stops⟩
        | false =>
            cases taken : first? c cs with
            | none =>
                have starts := first?_eq_none_iff.1 taken
                exact ⟨[], [], c :: cs, rfl, .done _, .inr (.inl ⟨c, cs, rfl, blank, starts⟩)⟩
            | some result =>
                obtain ⟨text, stands⟩ := stands_of_first? taken
                rcases stands.made.eq_ok_or_error with ⟨l, rfl, rfl⟩ | ⟨-, rfl⟩
                · obtain ⟨behind, written⟩ := stands.here
                  rw [← written] at stands ⊢
                  have shorter : behind.length < n := by
                    obtain ⟨d, later, text, -⟩ := stands.made.first?_self
                    have lengths := congrArg List.length written
                    rw [text, List.cons_append, List.length_cons, List.length_append,
                      List.length_cons] at lengths
                    omega
                  obtain ⟨front, lexemes, rest, rfl, divides, stops⟩ := ih _ shorter behind rfl
                  refine ⟨l.text ++ front, l :: lexemes, rest, ?_, .lexeme stands divides, stops⟩
                  rw [List.append_assoc]
                · exact ⟨[], [], c :: cs, rfl, .done _, .inr (.inr ⟨text, stands⟩)⟩

end Gait.Expr.Lexeme
