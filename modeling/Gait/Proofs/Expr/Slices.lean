import Gait.Proofs.Expr.Division
import Gait.Proofs.Text.ByteOrder

/-!
# Scanning by bytes

`scanBytes` divides a text into lexemes as a reader of bytes does: it finds among the bytes where a
lexeme ends, and cuts the lexeme out of the text at these offsets.  A cut inside a character gives
nothing.  `scanBytes_eq` says that every cut gives something, and that the result is that of `scan`:
characters beyond the first 128 begin with a byte that belongs to no lexeme.

`scan_divides_text` says what a scanned text consists of, or else where scanning stops and at what.
-/

namespace Gait.Expr.Lexeme

/-! ## Bytes -/

/-- The bytes of a text in UTF-8, each as the character of its number. -/
def byteChars (cs : List Char) : List Char :=
  (Text.bytes (String.ofList cs)).map Char.ofUInt8

section Bytes

variable {c : Char} {cs text behind : List Char}

@[simp] theorem byteChars_nil : byteChars [] = [] := by
  rw [byteChars, Text.bytes_eq, String.toList_ofList, List.flatMap_nil, List.map_nil]

theorem byteChars_cons (c : Char) (cs : List Char) :
    byteChars (c :: cs) = (String.utf8EncodeChar c).map Char.ofUInt8 ++ byteChars cs := by
  simp only [byteChars, Text.bytes_eq, String.toList_ofList, List.flatMap_cons, List.map_append]

/-- A character of the first 128 is one byte, of its own number. -/
theorem byteChars_ascii (ascii : c.toNat < 128) (cs : List Char) :
    byteChars (c :: cs) = c :: byteChars cs := by
  have size : c.utf8Size = 1 := by
    rw [Char.utf8Size_eq_one_iff, UInt32.le_iff_toNat_le]
    exact Nat.le_of_lt_succ ascii
  have same : Char.ofUInt8 c.val.toUInt8 = c := by
    rw [← Char.toNat_inj]
    change c.val.toNat % 256 = c.toNat
    exact Nat.mod_eq_of_lt (by change c.toNat < 256; omega)
  rw [byteChars_cons, String.utf8EncodeChar_eq_singleton size, List.map_singleton, same,
    List.singleton_append]

/-- Any other character begins with a byte beyond the first 128. -/
theorem byteChars_wide (wide : 128 ≤ c.toNat) (cs : List Char) :
    ∃ b bs, byteChars (c :: cs) = b :: bs ∧ 128 ≤ b.toNat := by
  have number (b : UInt8) : (Char.ofUInt8 b).toNat = b.toNat := rfl
  have first : ∃ b bs, String.utf8EncodeChar c = b :: bs ∧ 128 ≤ b.toNat := by
    have code : ¬c.val.toNat ≤ 127 := Nat.not_le.2 wide
    unfold String.utf8EncodeChar
    dsimp only
    rw [if_neg code]
    split_ifs
    all_goals
      refine ⟨_, _, rfl, ?_⟩
      rw [UInt8.toNat_ofNat']
      omega
  obtain ⟨b, bs, encoded, beyond⟩ := first
  refine ⟨Char.ofUInt8 b, bs.map Char.ofUInt8 ++ byteChars cs, ?_, ?_⟩
  · rw [byteChars_cons, encoded, List.map_cons, List.cons_append]
  · rwa [number]

/-- A text of the first 128 characters is at the head of the bytes just where it is at the head. -/
theorem prefix_byteChars (ascii : ∀ c ∈ text, c.toNat < 128) :
    text <+: byteChars cs ↔ text <+: cs := by
  induction text generalizing cs with
  | nil => exact ⟨fun _ => List.nil_prefix, fun _ => List.nil_prefix⟩
  | cons c text ih =>
      obtain ⟨first, later⟩ := List.forall_mem_cons.1 ascii
      rcases cs with - | ⟨d, cs⟩
      · rw [byteChars_nil]
      · by_cases narrow : d.toNat < 128
        · rw [byteChars_ascii narrow, List.cons_prefix_cons, List.cons_prefix_cons, ih later]
        · obtain ⟨b, bs, bytes, beyond⟩ := byteChars_wide (Nat.not_lt.1 narrow) cs
          rw [bytes, List.cons_prefix_cons, List.cons_prefix_cons]
          constructor
          · rintro ⟨rfl, -⟩
            omega
          · rintro ⟨rfl, -⟩
            omega

theorem byteChars_append (ascii : ∀ c ∈ text, c.toNat < 128) (behind : List Char) :
    byteChars (text ++ behind) = text ++ byteChars behind := by
  induction text with
  | nil => rw [List.nil_append, List.nil_append]
  | cons c text ih =>
      obtain ⟨first, later⟩ := List.forall_mem_cons.1 ascii
      rw [List.cons_append, byteChars_ascii first, ih later, List.cons_append]

theorem utf8Length_ascii (ascii : ∀ c ∈ text, c.toNat < 128) : utf8Length text = text.length := by
  induction text with
  | nil => exact utf8Length_nil
  | cons c text ih =>
      obtain ⟨first, later⟩ := List.forall_mem_cons.1 ascii
      have size : c.utf8Size = 1 := by
        rw [Char.utf8Size_eq_one_iff, UInt32.le_iff_toNat_le]
        exact Nat.le_of_lt_succ first
      rw [utf8Length_cons, size, ih later, List.length_cons, Nat.add_comm]

end Bytes

/-! ## Cuts -/

/-- A text cut in two behind so many bytes: nothing if that is inside a character or behind the
end. -/
def cutAt? : Nat → List Char → Option (List Char × List Char)
  | 0, cs => some ([], cs)
  | _ + 1, [] => none
  | n + 1, c :: cs =>
    if c.utf8Size ≤ n + 1 then
      (cutAt? (n + 1 - c.utf8Size) cs).map fun (front, rest) => (c :: front, rest)
    else none

theorem cutAt?_eq (front rest : List Char) :
    cutAt? (utf8Length front) (front ++ rest) = some (front, rest) := by
  induction front with
  | nil => rw [utf8Length_nil, List.nil_append, cutAt?]
  | cons c front ih =>
      have positive := c.utf8Size_pos
      rw [utf8Length_cons, List.cons_append]
      obtain ⟨n, size⟩ : ∃ n, c.utf8Size + utf8Length front = n + 1 :=
        ⟨c.utf8Size + utf8Length front - 1, by omega⟩
      have left : n + 1 - c.utf8Size = utf8Length front := by omega
      rw [size, cutAt?, if_pos (by omega), left, ih, Option.map_some]

/-! ## The reader of bytes -/

/-- How many bytes the lexeme at the head of some bytes has, if one starts there. -/
def span? (b : Char) (bs : List Char) : Option Nat :=
  if isMantissa b then some (numberText (b :: bs)).length
  else if startsWord b then some (b :: bs.takeWhile continuesWord).length
  else if isSymbol b then
    if (b == '*' || b == '/') && bs.head? == some b then some 2 else some 1
  else none

/-- What a text that is cut out is read as. -/
def whole? : List Char → Option (Except CompileError Lexeme)
  | [] => none
  | c :: cs => first? c cs

/-- Divide a source text, whose bytes from offset `start` on are given, into lexemes: nothing if a
cut goes through a character. -/
def scanBytes (source : List Char) (start : Nat) :
    List Char → Option (Except CompileError (List Lexeme))
  | [] => some (.ok [])
  | b :: bs =>
    if isGap b then scanBytes source (start + 1) bs
    else do
      let (_, behind) ← cutAt? start source
      match span? b bs with
      | none => return .error (.unexpectedChar (behind.head?.getD '?') start)
      | some n =>
        let (text, _) ← cutAt? n behind
        match ← whole? text with
        | .error e => return .error e
        | .ok l =>
          -- The lexeme's first byte is `b`, the others are dropped here.
          let rest ← scanBytes source (start + n) (bs.drop (n - 1))
          return rest.map (l :: ·)
termination_by bs => bs.length
decreasing_by all_goals simp only [List.length_cons, List.length_drop]; omega

section ScanBytes

variable {c : Char} {cs text : List Char} {result : Except CompileError Lexeme}

theorem ascii_of_startsLexeme (starts : startsLexeme c = true) : c.toNat < 128 := by
  rw [startsLexeme, Bool.or_eq_true, Bool.or_eq_true, isMantissa_iff, startsWord_iff,
    isSymbol_iff] at starts
  omega

theorem ascii_of_isGap (gap : isGap c = true) : c.toNat < 128 := by
  rw [isGap_iff] at gap
  omega

/-- Matches are written with the first 128 characters. -/
theorem Match.ascii (made : Match text result) : ∀ c ∈ text, c.toNat < 128 :=
  fun c member => ascii_of_startsLexeme (made.startsLexeme c member)

/-- The longest match among the bytes is that of the text. -/
theorem Stands.bytes (stands : Stands text result cs) : Stands text result (byteChars cs) := by
  refine ⟨stands.made, (prefix_byteChars stands.made.ascii).2 stands.here,
    fun other result' made' here => ?_⟩
  exact stands.longest other result' made' ((prefix_byteChars made'.ascii).1 here)

theorem span?_eq_none (starts : startsLexeme c = false) : span? c cs = none := by
  rw [startsLexeme, Bool.or_eq_false_iff, Bool.or_eq_false_iff] at starts
  obtain ⟨⟨mantissa, word⟩, symbol⟩ := starts
  unfold span?
  rw [if_neg (Bool.not_eq_true _ ▸ mantissa), if_neg (Bool.not_eq_true _ ▸ word),
    if_neg (Bool.not_eq_true _ ▸ symbol)]

/-- The bytes of a lexeme are those of the longest match. -/
theorem Stands.span? (stands : Stands text result (c :: cs)) :
    span? c cs = some text.length := by
  obtain ⟨d, later, rfl, kind⟩ := stands.made.head_cases
  obtain ⟨rfl, further⟩ := List.cons_prefix_cons.1 stands.here
  unfold Lexeme.span?
  rcases kind with ⟨mantissa, writes⟩ | ⟨starts, continues⟩ | ⟨symbol, written⟩
  · obtain ⟨result', made⟩ : ∃ result', Match (numberText (d :: cs)) result' := by
      cases read : Number.read? (numberText (d :: cs)) with
      | some value => exact ⟨_, .number (writes_numberText mantissa cs).1 read⟩
      | none => exact ⟨_, .misread (writes_numberText mantissa cs).1 read⟩
    rw [if_pos mantissa, (stands.unique (.number mantissa made)).1]
  · rw [if_neg (not_isMantissa_of_startsWord starts), if_pos starts,
      (stands.unique (.word starts cs)).1]
  · rw [if_neg (not_isMantissa_of_isSymbol symbol), if_neg (not_startsWord_of_isSymbol symbol),
      if_pos symbol]
    rcases written with rfl | ⟨doubled, rfl⟩
    · rw [if_neg]
      · rfl
      · intro twice
        rw [Bool.and_eq_true, Bool.or_eq_true, beq_iff_eq, beq_iff_eq, beq_iff_eq] at twice
        obtain ⟨doubled, second⟩ := twice
        obtain ⟨behind, rfl⟩ := List.head?_eq_some_iff.1 second
        obtain ⟨result', made⟩ : ∃ result', Match [d, d] result' := by
          rcases doubled with rfl | rfl
          · exact ⟨_, .op .pow⟩
          · exact ⟨_, .op .floorDiv⟩
        have longer := stands.longest _ _ made (List.prefix_append [d, d] behind)
        exact (Nat.not_succ_le_self 1 longer).elim
    · obtain ⟨behind, rfl⟩ := further
      rw [if_pos]
      · rfl
      · rw [Bool.and_eq_true, Bool.or_eq_true, beq_iff_eq, beq_iff_eq, beq_iff_eq]
        exact ⟨doubled, rfl⟩

end ScanBytes

section Cutting

variable {c : Char} {cs text source before rest : List Char} {lexemes : List Lexeme}
  {result : Except CompileError Lexeme}

theorem scanBytes_nil (start : Nat) : scanBytes source start (byteChars []) = some (.ok []) := by
  rw [byteChars_nil, scanBytes]

theorem scanBytes_gap (gap : isGap c = true) (start : Nat) :
    scanBytes source start (byteChars (c :: cs)) =
      scanBytes source (start + c.utf8Size) (byteChars cs) := by
  have size : utf8Length [c] = 1 := by
    refine utf8Length_ascii (List.forall_mem_singleton.2 (ascii_of_isGap gap))
  rw [utf8Length_cons, utf8Length_nil, Nat.add_zero] at size
  rw [byteChars_ascii (ascii_of_isGap gap), scanBytes, if_pos gap, size]

/-- The longest match is cut out of the text, whatever becomes of it. -/
theorem scanBytes_match (stands : Stands text result (text ++ rest))
    (whole : source = before ++ (text ++ rest)) :
    scanBytes source (utf8Length before) (byteChars (text ++ rest)) =
      match result with
      | .error e => some (.error e)
      | .ok l => (scanBytes source (utf8Length (before ++ text)) (byteChars rest)).map
          (·.map (l :: ·)) := by
  obtain ⟨c, cs, written, starts, taken⟩ := stands.made.first?_self
  have size := utf8Length_ascii stands.made.ascii
  have cut : cutAt? (utf8Length before) source = some (before, text ++ rest) := by
    rw [whole, cutAt?_eq]
  have cut' : cutAt? text.length (text ++ rest) = some (text, rest) := by
    rw [← size, cutAt?_eq]
  have bytes : byteChars (text ++ rest) = c :: (cs ++ byteChars rest) := by
    rw [byteChars_append stands.made.ascii, written, List.cons_append]
  have span : span? c (cs ++ byteChars rest) = some text.length := by
    have there := stands.bytes
    rw [bytes] at there
    exact there.span?
  have behind : (cs ++ byteChars rest).drop (text.length - 1) = byteChars rest := by
    rw [written, List.length_cons, Nat.add_sub_cancel, List.drop_left]
  have read : whole? text = some result := by
    rw [written]
    exact taken
  rw [bytes, scanBytes, if_neg (isGap_of_startsLexeme starts), cut]
  simp only [Option.bind_eq_bind, Option.bind_some, span, cut', read, behind]
  rw [utf8Length_append, size]
  cases result with
  | error e => rfl
  | ok l => cases scanBytes source (utf8Length before + text.length) (byteChars rest) <;> rfl

/-- A character that no lexeme starts with is found behind its offset. -/
theorem scanBytes_foreign (blank : isGap c = false) (starts : startsLexeme c = false)
    (whole : source = before ++ c :: cs) :
    scanBytes source (utf8Length before) (byteChars (c :: cs)) =
      some (.error (.unexpectedChar c (utf8Length before))) := by
  have cut : cutAt? (utf8Length before) source = some (before, c :: cs) := by
    rw [whole, cutAt?_eq]
  obtain ⟨b, bs, bytes, blank', starts'⟩ : ∃ b bs, byteChars (c :: cs) = b :: bs ∧
      isGap b = false ∧ startsLexeme b = false := by
    by_cases narrow : c.toNat < 128
    · exact ⟨c, _, byteChars_ascii narrow cs, blank, starts⟩
    · obtain ⟨b, bs, bytes, beyond⟩ := byteChars_wide (Nat.not_lt.1 narrow) cs
      refine ⟨b, bs, bytes, ?_, ?_⟩ <;> rw [← Bool.not_eq_true]
      · exact fun gap => Nat.not_lt.2 beyond (ascii_of_isGap gap)
      · exact fun starts => Nat.not_lt.2 beyond (ascii_of_startsLexeme starts)
  rw [bytes, scanBytes, if_neg (Bool.not_eq_true _ ▸ blank'), cut]
  simp only [Option.bind_eq_bind, Option.bind_some, span?_eq_none starts']
  rfl

/-- All lexemes of a division are cut out of the text. -/
theorem Divides.scanBytes_append {front : List Char} (divides : Divides front lexemes rest)
    (whole : source = before ++ (front ++ rest)) :
    scanBytes source (utf8Length before) (byteChars (front ++ rest)) =
      (scanBytes source (utf8Length (before ++ front)) (byteChars rest)).map
        (·.map (lexemes ++ ·)) := by
  induction divides generalizing before with
  | done rest =>
      rw [List.nil_append, List.append_nil]
      rcases scanBytes source (utf8Length before) (byteChars rest) with - | - | - <;> rfl
  | @gap c front rest lexemes blank _ ih =>
      have whole' : source = (before ++ [c]) ++ (front ++ rest) := by
        rw [whole, List.append_assoc, List.singleton_append, List.cons_append]
      have later := ih whole'
      rw [utf8Length_append, utf8Length_cons, utf8Length_nil, Nat.add_zero] at later
      rw [List.cons_append, scanBytes_gap blank, later, List.append_assoc, List.singleton_append]
  | @lexeme l front rest lexemes stands _ ih =>
      rw [List.append_assoc] at whole ⊢
      rw [scanBytes_match stands whole]
      dsimp only
      rw [ih (by rw [whole, List.append_assoc]), List.append_assoc]
      rcases scanBytes source (utf8Length (before ++ (l.text ++ front))) (byteChars rest) with
        - | - | - <;> rfl

/-- Going by the bytes, every cut is between characters, and the lexemes are the same. -/
theorem scanBytes_eq (source : List Char) :
    scanBytes source 0 (byteChars source) = some (scan 0 source) := by
  obtain ⟨front, lexemes, rest, rfl, divides, stops⟩ := exists_divides source
  have bytes := divides.scanBytes_append (List.nil_append (front ++ rest)).symm
  rw [utf8Length_nil, List.nil_append] at bytes
  rw [bytes, divides.scan_append, Nat.zero_add]
  rcases stops with rfl | ⟨c, after, rfl, blank, starts⟩ | ⟨text, stands⟩
  · rw [scanBytes_nil, scan_nil, Option.map_some]
  · rw [scanBytes_foreign blank starts rfl, scan_foreign blank starts, Option.map_some]
  · obtain ⟨behind, rfl⟩ := stands.here
    rw [scanBytes_match stands rfl, scan_misread stands, Option.map_some]

end Cutting

/-! ## The whole text -/

/-- A scanned text is a row of longest matches with gaps before, between and behind them, and its
lexemes with single gaps between them are scanned again.  Otherwise scanning stops at the first
character of no lexeme and of no gap, behind its offset in bytes, or at the longest match of a
number that cannot be read; what is before that place is scanned.  No cut goes through a
character. -/
theorem scan_divides_text (source : List Char) :
    (∀ lexemes, scan 0 source = .ok lexemes →
      Divides source lexemes [] ∧
        ∀ blank, isGap blank = true →
          scan 0 ([blank].intercalate (lexemes.map text)) = .ok lexemes) ∧
    (∀ c offset, scan 0 source = .error (.unexpectedChar c offset) →
      ∃ before after lexemes, source = before ++ c :: after ∧ offset = utf8Length before ∧
        Foreign c ∧ (∀ b ∈ before, ¬Foreign b) ∧ scan 0 before = .ok lexemes) ∧
    (∀ written, scan 0 source = .error (.invalidNumber written) →
      ∃ before after lexemes, source = before ++ after ∧ scan 0 before = .ok lexemes ∧
        Number.read? written.toList = none ∧
        Stands written.toList (.error (.invalidNumber written)) after) ∧
    (∀ e, scan 0 source = .error e →
      (∃ c offset, e = .unexpectedChar c offset) ∨ ∃ written, e = .invalidNumber written) ∧
    scanBytes source 0 (byteChars source) = some (scan 0 source) := by
  obtain ⟨front, lexemes, rest, whole, divides, stops⟩ := exists_divides source
  have scanned : scan 0 source = (scan (utf8Length front) rest).map (lexemes ++ ·) := by
    rw [whole, divides.scan_append, Nat.zero_add]
  have before := divides.scan_alone 0
  have bytes := scanBytes_eq source
  rcases stops with rfl | ⟨c, after, rfl, blank, starts⟩ | ⟨text, stands⟩
  · rw [List.append_nil] at whole
    rw [← whole] at before divides
    rw [before] at bytes ⊢
    refine ⟨fun _ same => ?_, nofun, nofun, nofun, bytes⟩
    cases same
    exact ⟨divides, fun blank gap => (joined divides.made gap).scan_alone 0⟩
  · have stopped : scan 0 source = .error (.unexpectedChar c (utf8Length front)) := by
      rw [scanned, scan_foreign blank starts, Except.map]
    rw [stopped] at bytes ⊢
    refine ⟨nofun, fun _ _ same => ?_, nofun, fun _ same => ?_, bytes⟩
    · cases same
      exact ⟨front, after, lexemes, whole, rfl, foreign_of_startsLexeme blank starts,
        divides.not_foreign, before⟩
    · cases same
      exact .inl ⟨c, _, rfl⟩
  · have stopped : scan 0 source = .error (.invalidNumber (String.ofList text)) := by
      rw [scanned, scan_misread stands, Except.map]
    rw [stopped] at bytes ⊢
    refine ⟨nofun, nofun, fun _ same => ?_, fun _ same => ?_, bytes⟩
    · cases same
      rw [String.toList_ofList]
      rcases stands.made.eq_ok_or_error with ⟨_, -, ok⟩ | ⟨unread, -⟩
      · cases ok
      · exact ⟨front, rest, lexemes, whole, before, unread, stands⟩
    · cases same
      exact .inr ⟨_, rfl⟩

/-- Behind a word, an operator and a gap, a character of two bytes is named whole. -/
theorem scan_stops_at_wide_char : ∃ before after lexemes,
    ['t', '*', ' ', 'ü', '+', '1'] = before ++ 'ü' :: after ∧ 3 = utf8Length before ∧
      Foreign 'ü' ∧ (∀ b ∈ before, ¬Foreign b) ∧ scan 0 before = .ok lexemes := by
  have starts : Stands (word ['t']).text (.ok (word ['t'])) ['t', '*', ' ', 'ü', '+', '1'] :=
    .word (by decide) ['*', ' ', 'ü', '+', '1']
  have times : Stands (op .mul).text (.ok (op .mul)) ['*', ' ', 'ü', '+', '1'] :=
    .symbol (.op .mul) (by decide) (by decide)
  have gap : Divides [' '] [] ['ü', '+', '1'] := .gap (by decide) (.done _)
  have divides : Divides ['t', '*', ' '] [word ['t'], op .mul] ['ü', '+', '1'] :=
    Divides.lexeme (l := word ['t']) starts (Divides.lexeme (l := op .mul) times gap)
  have narrow : ∀ c ∈ ['t', '*', ' '], c.toNat < 128 := by simp
  have stops : scan 0 ['t', '*', ' ', 'ü', '+', '1'] = .error (.unexpectedChar 'ü' 3) := by
    refine (divides.scan_append 0).trans ?_
    rw [scan_foreign (by decide) (by decide), utf8Length_ascii narrow]
    rfl
  exact (scan_divides_text ['t', '*', ' ', 'ü', '+', '1']).2.1 'ü' 3 stops

end Gait.Expr.Lexeme
