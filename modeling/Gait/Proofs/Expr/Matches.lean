import Gait.Expr.Lexeme
import Mathlib.Data.List.TakeWhile

/-!
# Longest matches

How lexemes are written, said without the scanner: `Match` lists the texts that are taken for one
lexeme, with what becomes of each, and `Stands` says that a text is the longest match at the head of
another.  `first?_eq_some_iff` says that the scanner takes longest matches.

From this follow two facts about what stands behind a match: a match stands as well if the text ends
sooner (`Stands.of_shorter`), and any match stands in front of a gap (`Match.stands`).
-/

namespace Gait.Expr.Lexeme

/-! ## How lexemes are written -/

/-- An exponent: its mark, at most one sign, and digits. -/
inductive WritesExponent : List Char → Prop
  | mk {mark : Char} {sign digits : List Char} (marks : mark = 'e' ∨ mark = 'E')
    (signs : sign = [] ∨ sign = ['+'] ∨ sign = ['-']) (some : digits ≠ [])
    (all : ∀ d ∈ digits, d.isDigit = true) : WritesExponent (mark :: (sign ++ digits))

/-- What is taken for a number: digits and points, and at most one exponent behind them. -/
inductive WritesNumber : List Char → Prop
  | plain {mantissa : List Char} (some : mantissa ≠ [])
    (all : ∀ c ∈ mantissa, isMantissa c = true) : WritesNumber mantissa
  | scaled {mantissa exponent : List Char} (some : mantissa ≠ [])
    (all : ∀ c ∈ mantissa, isMantissa c = true) (scale : WritesExponent exponent) :
    WritesNumber (mantissa ++ exponent)

/-- A text that is taken for one lexeme, and the lexeme, or what is wrong with it. -/
inductive Match : List Char → Except CompileError Lexeme → Prop
  | number {text : List Char} {value : Float} (writes : WritesNumber text)
    (read : Number.read? text = some value) : Match text (.ok (.number text value))
  | misread {text : List Char} (writes : WritesNumber text) (unread : Number.read? text = none) :
    Match text (.error (.invalidNumber (String.ofList text)))
  | word {c : Char} {cs : List Char} (starts : startsWord c = true)
    (continues : ∀ d ∈ cs, continuesWord d = true) : Match (c :: cs) (.ok (.word (c :: cs)))
  | op (o : BinaryOp) : Match o.symbol.toList (.ok (.op o))
  | openParen : Match ['('] (.ok .openParen)
  | closeParen : Match [')'] (.ok .closeParen)
  | comma : Match [','] (.ok .comma)

/-- At the head of `cs` the longest match is `text`. -/
structure Stands (text : List Char) (result : Except CompileError Lexeme) (cs : List Char) :
    Prop where
  made : Match text result
  here : text <+: cs
  longest : ∀ other result', Match other result' → other <+: cs → other.length ≤ text.length

/-! ## Characters -/

/-- The characters of operators, parentheses and commas. -/
def isSymbol (c : Char) : Bool := ['+', '-', '*', '/', '%', '(', ')', ','].contains c

/-- Whether a lexeme can start with a character. -/
def startsLexeme (c : Char) : Bool := isMantissa c || startsWord c || isSymbol c

section Characters

variable {c : Char}

theorem isMantissa_iff : isMantissa c = true ↔ (48 ≤ c.toNat ∧ c.toNat ≤ 57) ∨ c.toNat = 46 := by
  simp only [isMantissa, Char.isDigit, Bool.or_eq_true, Bool.and_eq_true, decide_eq_true_eq,
    beq_iff_eq, UInt32.le_iff_toNat_le, ge_iff_le, ← Char.toNat_inj]
  rfl

theorem startsWord_iff : startsWord c = true ↔
    (65 ≤ c.toNat ∧ c.toNat ≤ 90) ∨ (97 ≤ c.toNat ∧ c.toNat ≤ 122) ∨ c.toNat = 95 := by
  have letter : c.isAlpha = (decide ('A'.val ≤ c.val ∧ c.val ≤ 'Z'.val) ||
      (decide ('a'.val ≤ c.val) && decide (c.val ≤ 'z'.val))) := rfl
  simp only [startsWord, letter, Bool.or_eq_true, Bool.and_eq_true, decide_eq_true_eq, beq_iff_eq,
    UInt32.le_iff_toNat_le, ← Char.toNat_inj, or_assoc]
  rfl

theorem isSymbol_iff : isSymbol c = true ↔
    c.toNat = 43 ∨ c.toNat = 45 ∨ c.toNat = 42 ∨ c.toNat = 47 ∨ c.toNat = 37 ∨ c.toNat = 40 ∨
      c.toNat = 41 ∨ c.toNat = 44 := by
  simp only [isSymbol, List.contains_iff_mem, List.mem_cons, List.not_mem_nil, or_false,
    ← Char.toNat_inj]
  rfl

theorem isGap_iff : isGap c = true ↔ c.toNat = 32 ∨ c.toNat = 9 := by
  simp only [isGap, Bool.or_eq_true, beq_iff_eq, ← Char.toNat_inj]
  rfl

theorem continuesWord_iff : continuesWord c = true ↔ startsWord c = true ∨ isMantissa c = true := by
  simp only [continuesWord, startsWord, isMantissa, Char.isAlphanum, Bool.or_eq_true, beq_iff_eq]
  grind

theorem not_isMantissa_of_startsWord (starts : startsWord c = true) : ¬isMantissa c = true := by
  rw [startsWord_iff] at starts
  rw [isMantissa_iff]
  omega

theorem not_isMantissa_of_isSymbol (symbol : isSymbol c = true) : ¬isMantissa c = true := by
  rw [isSymbol_iff] at symbol
  rw [isMantissa_iff]
  omega

theorem not_startsWord_of_isSymbol (symbol : isSymbol c = true) : ¬startsWord c = true := by
  rw [isSymbol_iff] at symbol
  rw [startsWord_iff]
  omega

theorem startsLexeme_of_isGap (gap : isGap c = true) : startsLexeme c = false := by
  rw [isGap_iff] at gap
  rw [← Bool.not_eq_true, startsLexeme, Bool.or_eq_true, Bool.or_eq_true, isMantissa_iff,
    startsWord_iff, isSymbol_iff]
  omega

theorem isMantissa_of_isDigit (digit : c.isDigit = true) : isMantissa c = true := by
  rw [isMantissa, digit, Bool.true_or]

end Characters

/-! ## Numbers -/

section Numbers

variable {cs text mantissa exponent : List Char}

/-- At an exponent all digits are taken. -/
theorem exponentText_eq {mark : Char} {sign digits : List Char} (marks : mark = 'e' ∨ mark = 'E')
    (signs : sign = [] ∨ sign = ['+'] ∨ sign = ['-']) (some : digits ≠ [])
    (all : ∀ d ∈ digits, d.isDigit = true) (rest : List Char) :
    exponentText (mark :: (sign ++ (digits ++ rest))) =
      mark :: (sign ++ (digits ++ rest.takeWhile Char.isDigit)) := by
  have marked : (mark == 'e' || mark == 'E') = true := by
    simpa only [Bool.or_eq_true, beq_iff_eq] using marks
  have taken : (digits ++ rest).takeWhile Char.isDigit =
      digits ++ rest.takeWhile Char.isDigit := List.takeWhile_append_of_pos all
  have nonempty : (digits ++ rest.takeWhile Char.isDigit).isEmpty = false := by
    simp [some]
  rcases signs with rfl | rfl | rfl
  · obtain ⟨d, later, rfl⟩ := List.exists_cons_of_ne_nil some
    have digit := all d List.mem_cons_self
    have unsigned : d ≠ '+' ∧ d ≠ '-' := by
      constructor <;> (rintro rfl; cases digit)
    rw [List.cons_append] at taken
    simp [exponentText, marked, taken, unsigned]
  · simp [exponentText, marked, taken, some]
  · simp [exponentText, marked, taken, some]

theorem WritesExponent.of_takeWhile {mark : Char} {sign : List Char}
    (marks : mark = 'e' ∨ mark = 'E') (signs : sign = [] ∨ sign = ['+'] ∨ sign = ['-'])
    (some : cs.takeWhile Char.isDigit ≠ []) :
    WritesExponent (mark :: (sign ++ cs.takeWhile Char.isDigit)) ∧
      mark :: (sign ++ cs.takeWhile Char.isDigit) <+: mark :: (sign ++ cs) := by
  refine ⟨.mk marks signs some fun d member => List.mem_takeWhile_imp member, ?_⟩
  rw [List.cons_prefix_cons, List.prefix_append_right_inj]
  exact ⟨rfl, List.takeWhile_prefix _⟩

/-- What is taken behind a mantissa is an exponent, or nothing. -/
theorem exponentText_cases (cs : List Char) : exponentText cs = [] ∨
    WritesExponent (exponentText cs) ∧ exponentText cs <+: cs := by
  unfold exponentText
  split
  · exact .inl rfl
  · next mark cs =>
    split
    · next marked =>
      have marks : mark = 'e' ∨ mark = 'E' := by simpa using marked
      dsimp only
      split
      all_goals
        split
        · exact .inl rfl
        · next digits =>
          exact .inr (WritesExponent.of_takeWhile marks (by simp) (by simpa using digits))
    · exact .inl rfl

/-- No exponent at the head of a text is longer than what is taken. -/
theorem WritesExponent.length_le (writes : WritesExponent exponent) (here : exponent <+: cs) :
    exponent.length ≤ (exponentText cs).length := by
  obtain ⟨rest, rfl⟩ := here
  cases writes with
  | mk marks signs some all =>
      rw [List.cons_append, List.append_assoc, exponentText_eq marks signs some all]
      simp only [List.length_cons, List.length_append]
      omega

theorem WritesExponent.exponentText_self (writes : WritesExponent exponent) :
    exponentText exponent = exponent := by
  cases writes with
  | mk marks signs some all =>
      have whole := exponentText_eq marks signs some all []
      rwa [List.append_nil, List.takeWhile_nil, List.append_nil] at whole

/-- An exponent cuts the mantissa off. -/
theorem WritesExponent.exists_cons (writes : WritesExponent exponent) :
    ∃ mark later, exponent = mark :: later ∧ isMantissa mark = false := by
  cases writes with
  | mk marks signs some all =>
      refine ⟨_, _, rfl, ?_⟩
      rcases marks with rfl | rfl
      · decide
      · decide

theorem numberText_append (all : ∀ c ∈ mantissa, isMantissa c = true) (tail : List Char) :
    numberText (mantissa ++ tail) = mantissa ++ numberText tail := by
  rw [numberText, List.takeWhile_append_of_pos all, List.dropWhile_append_of_pos all, numberText,
    List.append_assoc]

theorem numberText_of_not_mantissa {c : Char} (other : isMantissa c = false) (cs : List Char) :
    numberText (c :: cs) = exponentText (c :: cs) := by
  have passed : ¬isMantissa c = true := by rw [other]; exact Bool.false_ne_true
  rw [numberText, List.takeWhile_cons_of_neg passed, List.dropWhile_cons_of_neg passed,
    List.nil_append]

/-- A number is taken as a whole. -/
theorem WritesNumber.numberText_self (writes : WritesNumber text) : numberText text = text := by
  cases writes with
  | plain _ all =>
      have whole := numberText_append all []
      have nothing : numberText [] = [] := rfl
      rwa [nothing, List.append_nil] at whole
  | scaled _ all scale =>
      obtain ⟨mark, later, rfl, other⟩ := scale.exists_cons
      rw [numberText_append all, numberText_of_not_mantissa other, scale.exponentText_self]

/-- No number at the head of a text is longer than what is taken. -/
theorem WritesNumber.length_le (writes : WritesNumber text) (here : text <+: cs) :
    text.length ≤ (numberText cs).length := by
  obtain ⟨rest, rfl⟩ := here
  cases writes with
  | plain _ all =>
      rw [numberText_append all, List.length_append]
      exact Nat.le_add_right _ _
  | scaled _ all scale =>
      have further := scale.length_le (List.prefix_append _ rest)
      obtain ⟨mark, later, rfl, other⟩ := scale.exists_cons
      rw [List.append_assoc, numberText_append all, List.cons_append,
        numberText_of_not_mantissa other, List.length_append, List.length_append]
      exact Nat.add_le_add_left further _

/-- What is taken for a number is one. -/
theorem writes_numberText {c : Char} (mantissa : isMantissa c = true) (cs : List Char) :
    WritesNumber (numberText (c :: cs)) ∧ numberText (c :: cs) <+: c :: cs := by
  have some : (c :: cs).takeWhile isMantissa ≠ [] := by
    rw [List.takeWhile_cons_of_pos mantissa]
    exact List.cons_ne_nil _ _
  have all : ∀ d ∈ (c :: cs).takeWhile isMantissa, isMantissa d = true :=
    fun d member => List.mem_takeWhile_imp member
  unfold numberText
  rcases exponentText_cases ((c :: cs).dropWhile isMantissa) with none | ⟨scale, here⟩
  · rw [none, List.append_nil]
    exact ⟨.plain some all, List.takeWhile_prefix _⟩
  · refine ⟨.scaled some all scale, ?_⟩
    obtain ⟨rest, whole⟩ := here
    refine ⟨rest, ?_⟩
    rw [List.append_assoc, whole, List.takeWhile_append_dropWhile]

end Numbers

/-! ## Matches -/

theorem WritesNumber.exists_cons {text : List Char} (writes : WritesNumber text) :
    ∃ c cs, text = c :: cs ∧ isMantissa c = true := by
  cases writes with
  | plain some all | scaled some all =>
      obtain ⟨c, cs, rfl⟩ := List.exists_cons_of_ne_nil some
      exact ⟨c, _, rfl, all c List.mem_cons_self⟩

/-- Every character of a number can start a lexeme. -/
theorem WritesNumber.startsLexeme {text : List Char} (writes : WritesNumber text) :
    ∀ c ∈ text, startsLexeme c = true := by
  have mantissa {c : Char} (member : isMantissa c = true) : Lexeme.startsLexeme c = true := by
    rw [Lexeme.startsLexeme, member, Bool.true_or, Bool.true_or]
  cases writes with
  | plain _ all => exact fun c member => mantissa (all c member)
  | scaled _ all scale =>
      intro c member
      rcases List.mem_append.1 member with inside | member
      · exact mantissa (all c inside)
      · cases scale with
        | mk marks signs _ digits =>
            rw [List.mem_cons, List.mem_append] at member
            rcases member with rfl | sign | digit
            · rcases marks with rfl | rfl
              · decide
              · decide
            · rcases signs with rfl | rfl | rfl
              · cases sign
              · rw [List.mem_singleton.1 sign]
                decide
              · rw [List.mem_singleton.1 sign]
                decide
            · exact mantissa (isMantissa_of_isDigit (digits c digit))

section First

variable {c : Char} {cs text : List Char} {result : Except CompileError Lexeme}

theorem first?_number (mantissa : isMantissa c = true) (cs : List Char) :
    first? c cs = some (match Number.read? (numberText (c :: cs)) with
      | some value => .ok (.number (numberText (c :: cs)) value)
      | none => .error (.invalidNumber (String.ofList (numberText (c :: cs))))) := by
  unfold first?
  rw [if_pos mantissa]
  dsimp only
  cases Number.read? (numberText (c :: cs)) <;> rfl

theorem first?_word (starts : startsWord c = true) (cs : List Char) :
    first? c cs = some (.ok (.word (c :: cs.takeWhile continuesWord))) := by
  unfold first?
  rw [if_neg (not_isMantissa_of_startsWord starts), if_pos starts]

/-- A text that is taken for a lexeme as a whole is taken so by the scanner. -/
theorem Match.first?_self (made : Match text result) :
    ∃ c cs, text = c :: cs ∧ startsLexeme c = true ∧ first? c cs = some result := by
  cases made with
  | number writes read =>
      obtain ⟨c, cs, rfl, mantissa⟩ := writes.exists_cons
      refine ⟨c, cs, rfl, writes.startsLexeme c List.mem_cons_self, ?_⟩
      rw [first?_number mantissa, writes.numberText_self, read]
  | misread writes unread =>
      obtain ⟨c, cs, rfl, mantissa⟩ := writes.exists_cons
      refine ⟨c, cs, rfl, writes.startsLexeme c List.mem_cons_self, ?_⟩
      rw [first?_number mantissa, writes.numberText_self, unread]
  | @word c cs starts continues =>
      refine ⟨c, cs, rfl, ?_, ?_⟩
      · rw [startsLexeme, starts, Bool.or_true, Bool.true_or]
      · rw [first?_word starts, List.takeWhile_eq_self_iff.2 continues]
  | op o => cases o <;> exact ⟨_, _, rfl, by decide, by rfl⟩
  | openParen | closeParen | comma => exact ⟨_, _, rfl, by decide, by rfl⟩

/-- The first character tells what a match is. -/
theorem Match.head_cases (made : Match text result) : ∃ c cs, text = c :: cs ∧
    (isMantissa c = true ∧ WritesNumber (c :: cs) ∨
      startsWord c = true ∧ (∀ d ∈ cs, continuesWord d = true) ∨
      isSymbol c = true ∧ (cs = [] ∨ (c = '*' ∨ c = '/') ∧ cs = [c])) := by
  cases made with
  | number writes | misread writes =>
      obtain ⟨c, cs, rfl, mantissa⟩ := writes.exists_cons
      exact ⟨c, cs, rfl, .inl ⟨mantissa, writes⟩⟩
  | word starts continues => exact ⟨_, _, rfl, .inr (.inl ⟨starts, continues⟩)⟩
  | op o =>
      cases o with
      | pow => exact ⟨'*', ['*'], rfl, .inr (.inr ⟨by decide, .inr ⟨.inl rfl, rfl⟩⟩)⟩
      | floorDiv => exact ⟨'/', ['/'], rfl, .inr (.inr ⟨by decide, .inr ⟨.inr rfl, rfl⟩⟩)⟩
      | _ => exact ⟨_, [], rfl, .inr (.inr ⟨by decide, .inl rfl⟩)⟩
  | openParen | closeParen | comma => exact ⟨_, [], rfl, .inr (.inr ⟨by decide, .inl rfl⟩)⟩

/-- A match that starts like a number is one. -/
theorem Match.writesNumber (made : Match (c :: cs) result) (mantissa : isMantissa c = true) :
    WritesNumber (c :: cs) := by
  obtain ⟨_, _, same, ⟨-, writes⟩ | ⟨starts, -⟩ | ⟨symbol, -⟩⟩ := made.head_cases
  · rwa [same]
  · cases same
    exact (not_isMantissa_of_startsWord starts mantissa).elim
  · cases same
    exact (not_isMantissa_of_isSymbol symbol mantissa).elim

/-- A match that starts like a word is one. -/
theorem Match.continuesWord (made : Match (c :: cs) result) (starts : startsWord c = true) :
    ∀ d ∈ cs, continuesWord d = true := by
  obtain ⟨_, _, same, ⟨mantissa, -⟩ | ⟨-, continues⟩ | ⟨symbol, -⟩⟩ := made.head_cases
  · cases same
    exact (not_isMantissa_of_startsWord starts mantissa).elim
  · cases same
    exact continues
  · cases same
    exact (not_startsWord_of_isSymbol symbol starts).elim

/-- A match that starts like a symbol is one, and only two symbols are doubled. -/
theorem Match.symbol_cases (made : Match (c :: cs) result) (symbol : isSymbol c = true) :
    cs = [] ∨ (c = '*' ∨ c = '/') ∧ cs = [c] := by
  obtain ⟨_, _, same, ⟨mantissa, -⟩ | ⟨starts, -⟩ | ⟨-, written⟩⟩ := made.head_cases
  · cases same
    exact (not_isMantissa_of_isSymbol symbol mantissa).elim
  · cases same
    exact (not_startsWord_of_isSymbol symbol starts).elim
  · cases same
    exact written

/-- A symbol stands alone unless it is doubled. -/
theorem Stands.symbol (made : Match [c] result) (symbol : isSymbol c = true)
    (single : c = '*' ∨ c = '/' → cs.head? ≠ some c) : Stands [c] result (c :: cs) := by
  refine ⟨made, List.prefix_append [c] cs, fun other result' made' here => ?_⟩
  obtain ⟨d, later, rfl, -, -⟩ := made'.first?_self
  obtain ⟨rfl, further⟩ := List.cons_prefix_cons.1 here
  rcases made'.symbol_cases symbol with rfl | ⟨doubled, rfl⟩
  · exact Nat.le_refl 1
  · obtain ⟨rest, rfl⟩ := further
    exact (single doubled rfl).elim

theorem Stands.doubled (made : Match [c, c] result) (symbol : isSymbol c = true)
    (cs : List Char) : Stands [c, c] result (c :: c :: cs) := by
  refine ⟨made, List.prefix_append [c, c] cs, fun other result' made' here => ?_⟩
  obtain ⟨d, later, rfl, -, -⟩ := made'.first?_self
  obtain ⟨rfl, -⟩ := List.cons_prefix_cons.1 here
  rcases made'.symbol_cases symbol with rfl | ⟨-, rfl⟩
  · exact Nat.le_succ 1
  · exact Nat.le_refl 2

/-- Where a symbol can be doubled, what follows it decides. -/
theorem exists_stands_of_doubled {one two : Lexeme} (symbol : isSymbol c = true)
    (oneMade : Match [c] (.ok one)) (oneText : one.text = [c])
    (twoMade : Match [c, c] (.ok two)) (twoText : two.text = [c, c])
    (single : ∀ cs, cs.head? ≠ some c → first? c cs = some (.ok one))
    (double : ∀ cs, first? c (c :: cs) = some (.ok two)) (cs : List Char) :
    ∃ l, first? c cs = some (.ok l) ∧ Stands l.text (.ok l) (c :: cs) := by
  by_cases doubled : cs.head? = some c
  · obtain ⟨behind, rfl⟩ := List.head?_eq_some_iff.1 doubled
    refine ⟨two, double behind, ?_⟩
    rw [twoText]
    exact .doubled twoMade symbol behind
  · refine ⟨one, single cs doubled, ?_⟩
    rw [oneText]
    exact .symbol oneMade symbol fun _ => doubled

theorem first?_symbol (symbol : isSymbol c = true) (cs : List Char) :
    ∃ l, first? c cs = some (.ok l) ∧ Stands l.text (.ok l) (c :: cs) := by
  have listed := symbol
  simp only [isSymbol, List.contains_iff_mem, List.mem_cons, List.not_mem_nil, or_false] at listed
  have alone {l : Lexeme} (text : l.text = [c]) (made : Match [c] (.ok l))
      (single : ¬(c = '*' ∨ c = '/')) : Stands l.text (.ok l) (c :: cs) := by
    rw [text]
    exact .symbol made symbol fun doubled => (single doubled).elim
  rcases listed with rfl | rfl | rfl | rfl | rfl | rfl | rfl | rfl
  · exact ⟨.op .add, rfl, alone rfl (.op .add) (by decide)⟩
  · exact ⟨.op .sub, rfl, alone rfl (.op .sub) (by decide)⟩
  · refine exists_stands_of_doubled symbol (.op .mul) rfl (.op .pow) rfl (fun cs other => ?_)
      (fun _ => rfl) cs
    unfold first?
    rw [if_neg (by decide), if_neg (by decide)]
    split <;> simp_all
  · refine exists_stands_of_doubled symbol (.op .div) rfl (.op .floorDiv) rfl (fun cs other => ?_)
      (fun _ => rfl) cs
    unfold first?
    rw [if_neg (by decide), if_neg (by decide)]
    split <;> simp_all
  · exact ⟨.op .mod, rfl, alone rfl (.op .mod) (by decide)⟩
  · exact ⟨.openParen, rfl, alone rfl .openParen (by decide)⟩
  · exact ⟨.closeParen, rfl, alone rfl .closeParen (by decide)⟩
  · exact ⟨.comma, rfl, alone rfl .comma (by decide)⟩

/-! ## Longest matches at the head of a text -/

theorem Stands.number (mantissa : isMantissa c = true)
    (made : Match (numberText (c :: cs)) result) :
    Stands (numberText (c :: cs)) result (c :: cs) := by
  refine ⟨made, (writes_numberText mantissa cs).2, fun other result' made' here => ?_⟩
  obtain ⟨d, later, rfl, -⟩ := made'.head_cases
  obtain ⟨rfl, -⟩ := List.cons_prefix_cons.1 here
  exact (made'.writesNumber mantissa).length_le here

theorem Stands.word (starts : startsWord c = true) (cs : List Char) :
    Stands (c :: cs.takeWhile continuesWord) (.ok (.word (c :: cs.takeWhile continuesWord)))
      (c :: cs) := by
  refine ⟨.word starts fun d member => List.mem_takeWhile_imp member, ?_,
    fun other result' made' here => ?_⟩
  · exact List.cons_prefix_cons.2 ⟨rfl, List.takeWhile_prefix _⟩
  · obtain ⟨d, later, rfl, -⟩ := made'.head_cases
    obtain ⟨rfl, rest, rfl⟩ := List.cons_prefix_cons.1 here
    rw [List.takeWhile_append_of_pos (made'.continuesWord starts)]
    simp only [List.length_cons, List.length_append]
    omega

/-- The scanner finds no lexeme just where none can start. -/
theorem first?_eq_none_iff : first? c cs = none ↔ startsLexeme c = false := by
  rw [startsLexeme, Bool.or_eq_false_iff, Bool.or_eq_false_iff]
  constructor
  · intro nothing
    refine ⟨⟨?_, ?_⟩, ?_⟩ <;> rw [← Bool.not_eq_true]
    · intro mantissa
      rw [first?_number mantissa] at nothing
      cases nothing
    · intro starts
      rw [first?_word starts] at nothing
      cases nothing
    · intro symbol
      obtain ⟨l, taken, -⟩ := first?_symbol symbol cs
      rw [taken] at nothing
      cases nothing
  · rintro ⟨⟨mantissa, starts⟩, symbol⟩
    unfold first?
    rw [if_neg (Bool.not_eq_true _ ▸ mantissa), if_neg (Bool.not_eq_true _ ▸ starts)]
    split
    all_goals first | rfl | cases symbol

/-- The scanner takes the longest match. -/
theorem stands_of_first? (taken : first? c cs = some result) :
    ∃ text, Stands text result (c :: cs) := by
  have starts : startsLexeme c = true := by
    rw [← Bool.not_eq_false]
    intro other
    rw [first?_eq_none_iff.2 other] at taken
    cases taken
  rw [startsLexeme, Bool.or_eq_true, Bool.or_eq_true] at starts
  rcases starts with (mantissa | starts) | symbol
  · rw [first?_number mantissa, Option.some.injEq] at taken
    refine ⟨_, .number mantissa ?_⟩
    rw [← taken]
    cases read : Number.read? (numberText (c :: cs)) with
    | some value => exact .number (writes_numberText mantissa cs).1 read
    | none => exact .misread (writes_numberText mantissa cs).1 read
  · rw [first?_word starts, Option.some.injEq] at taken
    rw [← taken]
    exact ⟨_, .word starts cs⟩
  · obtain ⟨l, taken', stands⟩ := first?_symbol symbol cs
    rw [taken', Option.some.injEq] at taken
    rw [← taken]
    exact ⟨_, stands⟩

/-- There is only one longest match. -/
theorem Stands.unique {text' : List Char} {result' : Except CompileError Lexeme}
    (stands : Stands text result cs) (stands' : Stands text' result' cs) :
    text = text' ∧ result = result' := by
  have length : text.length = text'.length :=
    Nat.le_antisymm (stands'.longest _ _ stands.made stands.here)
      (stands.longest _ _ stands'.made stands'.here)
  obtain rfl : text = text' :=
    (List.prefix_of_prefix_length_le stands.here stands'.here length.le).eq_of_length length
  obtain ⟨c, later, rfl, -, taken⟩ := stands.made.first?_self
  obtain ⟨_, _, same, -, taken'⟩ := stands'.made.first?_self
  cases same
  rw [taken, Option.some.injEq] at taken'
  exact ⟨rfl, taken'⟩

/-- What the scanner takes is the longest match. -/
theorem first?_eq_some_iff :
    first? c cs = some result ↔ ∃ text, Stands text result (c :: cs) := by
  refine ⟨stands_of_first?, fun ⟨text, stands⟩ => ?_⟩
  obtain ⟨d, later, rfl, starts, -⟩ := stands.made.first?_self
  obtain ⟨rfl, -⟩ := List.cons_prefix_cons.1 stands.here
  cases taken : first? d cs with
  | none =>
      rw [first?_eq_none_iff.1 taken] at starts
      cases starts
  | some result' =>
      obtain ⟨text', stands'⟩ := stands_of_first? taken
      rw [(stands.unique stands').2]

/-! ## What stands behind a match -/

/-- A match stands as well if the text ends sooner. -/
theorem Stands.of_shorter {shorter : List Char} (stands : Stands text result cs)
    (here : text <+: shorter) (ends : shorter <+: cs) : Stands text result shorter :=
  ⟨stands.made, here, fun other result' made' here' =>
    stands.longest other result' made' (here'.trans ends)⟩

/-- Every character of a match can start a lexeme. -/
theorem Match.startsLexeme (made : Match text result) : ∀ c ∈ text, startsLexeme c = true := by
  obtain ⟨c, cs, rfl, ⟨-, writes⟩ | ⟨starts, continues⟩ | ⟨symbol, written⟩⟩ := made.head_cases
  · exact writes.startsLexeme
  · intro d member
    rcases List.mem_cons.1 member with rfl | later
    · rw [Lexeme.startsLexeme, starts, Bool.or_true, Bool.true_or]
    · rcases continuesWord_iff.1 (continues d later) with word | mantissa
      · rw [Lexeme.startsLexeme, word, Bool.or_true, Bool.true_or]
      · rw [Lexeme.startsLexeme, mantissa, Bool.true_or, Bool.true_or]
  · intro d member
    have same : d = c := by
      rcases written with rfl | ⟨-, rfl⟩
      · exact List.mem_singleton.1 member
      · simpa using member
    rw [same, Lexeme.startsLexeme, symbol, Bool.or_true]

/-- In front of a gap or at the end, any match stands. -/
theorem Match.stands (made : Match text result) {tail : List Char}
    (gap : ∀ c, tail.head? = some c → isGap c = true) : Stands text result (text ++ tail) := by
  refine ⟨made, List.prefix_append text tail, fun other result' made' here => ?_⟩
  by_contra longer
  have within : text <+: other :=
    List.prefix_of_prefix_length_le (List.prefix_append text tail) here (by omega)
  obtain ⟨further, rfl⟩ := within
  rw [List.prefix_append_right_inj] at here
  rcases further with - | ⟨c, further⟩
  · simp at longer
  · obtain ⟨rest, rfl⟩ := here
    have starts := made'.startsLexeme c (by simp)
    rw [startsLexeme_of_isGap (gap c rfl)] at starts
    cases starts

end First

end Gait.Expr.Lexeme
