import Mathlib.Data.List.Induction
import RequestBus.Proofs.Json.Number
import RequestBus.Proofs.Json.Skipping
import RequestBus.Proofs.Json.Syntax

namespace RequestBus.Json

open Decimal

@[simp] theorem toOption_ok (a : α) : (Except.ok a : Except ε α).toOption = some a := rfl

@[simp] theorem toOption_error (e : ε) : (Except.error e : Except ε α).toOption = none := rfl

theorem toOption_map (x : Except ε α) (f : α → β) : (x.map f).toOption = x.toOption.map f := by
  cases x <;> rfl

theorem toOption_bind (x : Except ε α) (f : α → Except ε β) :
    (x >>= f).toOption = x.toOption.bind fun a => (f a).toOption := by
  cases x <;> rfl

theorem ok_of_toOption {x : Except ε α} {a : α} (h : x.toOption = some a) : x = .ok a := by
  cases x with
  | error e => contradiction
  | ok b => exact congrArg Except.ok (Option.some.inj h)

theorem isBlank_byte (blank : Blank) : isBlank blank.byte = true := by cases blank <;> rfl

theorem skipBlanks_blanks (blanks : Blanks) (s : Bytes) :
    skipBlanks (blanks.bytes ++ s) = skipBlanks s := by
  induction blanks with
  | nil => rfl
  | cons blank blanks ih =>
    simp only [Blanks.bytes, List.map_cons, List.cons_append, skipBlanks] at ih ⊢
    rw [List.dropWhile_cons_of_pos (isBlank_byte blank), ih]

theorem endsNumber_blanks (blanks : Blanks) {rest : Bytes} (ends : EndsNumber rest) :
    EndsNumber (blanks.bytes ++ rest) := by
  cases blanks with
  | nil => exact ends
  | cons blank blanks => cases blank <;> exact ⟨rfl, by decide, by decide, by decide⟩

theorem readHex_digits (a b c d : HexDigit) (rest : Bytes) :
    readHex (a.byte :: b.byte :: c.byte :: d.byte :: rest) = .ok (codeUnit a b c d, rest) := by
  simp only [readHex, a.reads, b.reads, c.reads, d.reads, codeUnit]

theorem ne_u_of_shortEscape? {letter byte : UInt8} (stands : shortEscape? letter = some byte) :
    letter ≠ 0x75 := by
  rintro rfl
  contradiction

theorem readEscape_short {letter byte : UInt8} (stands : shortEscape? letter = some byte)
    (rest : Bytes) : readEscape (letter :: rest) = .ok ([byte], rest) := by
  simp only [readEscape, ne_u_of_shortEscape? stands, if_false, stands]

def readOn (sofar : Bytes) : Option Nat → Bytes → Except Fault (Front Bytes)
  | none, s => readQuoted sofar s
  | some leading, s => do
    let (c, s) ← readTrailing leading s
    readQuoted ((Utf8.encodeChar c).reverse ++ sofar) s

theorem pieceBytes_cons (p : Piece) (more : List Piece) (s : Bytes) :
    pieceBytes (p :: more) ++ s = p.bytes ++ (pieceBytes more ++ s) := by
  rw [pieceBytes, List.flatMap_cons, List.append_assoc, pieceBytes]

theorem unescaped (first sofar rest : Bytes) (more : Option Bytes) :
    (more.map fun bytes => ((first.reverse ++ sofar).reverse ++ bytes, rest)) =
      (more.map (first ++ ·)).map fun bytes => (sofar.reverse ++ bytes, rest) := by
  cases more <;> simp

theorem readTrailing_digits (leading : Nat) (a b c d : HexDigit) (rest : Bytes) :
    (readTrailing leading ((Piece.hex a b c d).bytes ++ rest)).toOption =
      if isTrailingSurrogate (codeUnit a b c d) then
        some (paired leading (codeUnit a b c d), rest) else none := by
  simp only [Piece.bytes, List.cons_append, List.nil_append, readTrailing, ne_eq, not_true,
    if_false, readHex_digits, bind, Except.bind, paired]
  split <;> rfl

theorem readTrailing_other {leading : Nat} {pieces : List Piece}
    (other : ∀ a b c d more, pieces ≠ .hex a b c d :: more) (rest : Bytes) :
    (readTrailing leading (pieceBytes pieces ++ quoteByte :: rest)).toOption = none := by
  cases pieces with
  | nil => rfl
  | cons p more =>
    rw [pieceBytes_cons]
    cases p with
    | plain b plain => simp [Piece.bytes, readTrailing, plain.2.1]
    | short letter b stands => simp [Piece.bytes, readTrailing, ne_u_of_shortEscape? stands]
    | hex a b c d => exact absurd rfl (other a b c d more)

theorem readEscape_digits (a b c d : HexDigit) (rest : Bytes) :
    readEscape (0x75 :: a.byte :: b.byte :: c.byte :: d.byte :: rest) =
      if isTrailingSurrogate (codeUnit a b c d) then .error (.before .loneSurrogate rest)
      else if isLeadingSurrogate (codeUnit a b c d) then do
        let (pair, rest) ← readTrailing (codeUnit a b c d) rest
        return (Utf8.encodeChar pair, rest)
      else .ok (Utf8.encodeChar (Char.ofNat (codeUnit a b c d)), rest) := by
  simp only [readEscape, if_true, readHex_digits, bind, Except.bind]
  rfl

theorem readOn_pieces (pieces : List Piece) (state : Option Nat) (sofar rest : Bytes) :
    (readOn sofar state (pieceBytes pieces ++ quoteByte :: rest)).toOption =
      (unescape state pieces).map fun bytes => (sofar.reverse ++ bytes, rest) := by
  -- a leading surrogate that has been read is a state of both sides
  fun_induction unescape state pieces generalizing sofar with
  | case1 => simp [readOn, pieceBytes, readQuoted_quote]
  | case2 b plain more ih =>
    rw [readOn, pieceBytes_cons, Piece.bytes, List.singleton_append, readQuoted_plain plain]
    exact (ih (b :: sofar)).trans (unescaped [b] sofar rest _)
  | case3 letter b stands more ih =>
    rw [readOn, pieceBytes_cons, Piece.bytes, List.cons_append, List.singleton_append,
      readQuoted_escape (readEscape_short stands _)]
    exact (ih (b :: sofar)).trans (unescaped [b] sofar rest _)
  | case4 a b c d more unit trailing =>
    have trailing : isTrailingSurrogate (codeUnit a b c d) = true := trailing
    simp only [readOn, pieceBytes_cons, Piece.bytes, List.cons_append, List.nil_append,
      readQuoted_backslash, readEscape_digits, trailing, if_true]
    rfl
  | case5 a b c d more unit notTrailing leading ih =>
    have notTrailing : ¬ isTrailingSurrogate (codeUnit a b c d) = true := notTrailing
    have leading : isLeadingSurrogate (codeUnit a b c d) = true := leading
    rw [← ih, readOn, readOn, pieceBytes_cons]
    simp only [Piece.bytes, List.cons_append, List.nil_append, readQuoted_backslash,
      readEscape_digits, notTrailing, leading, if_true]
    cases readTrailing (codeUnit a b c d) (pieceBytes more ++ quoteByte :: rest) <;> rfl
  | case6 a b c d more unit notTrailing notLeading ih =>
    have notTrailing : ¬ isTrailingSurrogate (codeUnit a b c d) = true := notTrailing
    have notLeading : ¬ isLeadingSurrogate (codeUnit a b c d) = true := notLeading
    simp only [readOn, pieceBytes_cons, Piece.bytes, List.cons_append, List.nil_append,
      readQuoted_backslash, readEscape_digits, notTrailing, notLeading]
    exact (ih _).trans (unescaped _ sofar rest _)
  | case7 leading a b c d more unit trailing ih =>
    have trailing : isTrailingSurrogate (codeUnit a b c d) = true := trailing
    have pair := readTrailing_digits leading a b c d (pieceBytes more ++ quoteByte :: rest)
    rw [if_pos trailing] at pair
    rw [readOn, pieceBytes_cons, ok_of_toOption pair]
    exact (ih _).trans (unescaped _ sofar rest _)
  | case8 leading a b c d more unit notTrailing =>
    have notTrailing : ¬ isTrailingSurrogate (codeUnit a b c d) = true := notTrailing
    have pair := readTrailing_digits leading a b c d (pieceBytes more ++ quoteByte :: rest)
    rw [if_neg notTrailing] at pair
    rw [readOn, pieceBytes_cons, toOption_bind, pair]
    rfl
  | case9 pieces leading other =>
    rw [readOn, toOption_bind, readTrailing_other fun a b c d more same => other a b c d more same]
    rfl

theorem readText_pieces (pieces : List Piece) (rest : Bytes) :
    (readText (pieceBytes pieces ++ quoteByte :: rest)).toOption =
      (text? pieces).map (·, rest) := by
  have quoted := readOn_pieces pieces none [] rest
  rw [readOn] at quoted
  rw [readText, toOption_bind, quoted, text?]
  cases unescape none pieces with
  | none => rfl
  | some bytes =>
    simp only [List.reverse_nil, List.nil_append, Option.map_some, Option.bind_some]
    split <;> rename_i decoded <;> simp [decoded, pure, Except.pure]

theorem skipQuoted_pieces (pieces : List Piece) (rest : Bytes) :
    skipQuoted (pieceBytes pieces ++ quoteByte :: rest) = .ok rest := by
  induction pieces with
  | nil =>
    rw [pieceBytes, List.flatMap_nil, List.nil_append, skipQuoted.eq_def]
    rfl
  | cons p more ih =>
    rw [pieceBytes_cons]
    cases p with
    | plain b plain =>
      rw [Piece.bytes, List.singleton_append, skipQuoted.eq_def]
      simp only [plain.1, plain.2.1, plain.2.2, if_false]
      exact ih
    | short letter b stands =>
      rw [Piece.bytes, List.cons_append, List.singleton_append, skipQuoted_escape
        (readEscape_short stands _)]
      exact ih
    | hex a b c d =>
      have unit := skipQuoted_hex (readHex_digits a b c d (pieceBytes more ++ quoteByte :: rest))
      exact unit.trans ih

theorem Digits.all (ds : Digits) : ∀ b ∈ ds.bytes, isDigit b = true := by
  intro b member
  rcases List.mem_cons.mp member with rfl | member
  · exact ds.digit
  · exact ds.more b member

theorem scanSign_exponent (e : Exponent) (rest : Bytes) :
    scanSign (e.sign.bytes ++ (e.digits.bytes ++ rest)) =
      (e.sign == .minus, e.digits.bytes ++ rest) := by
  have digit := e.digits.digit
  rw [Digits.bytes]
  generalize e.digits.head = b at digit
  cases e.sign with
  | plus => rfl
  | minus => rfl
  | none =>
    simp only [Sign.bytes, List.nil_append, List.cons_append]
    unfold scanSign
    split
    · rename_i same
      cases same
      contradiction
    · rename_i same
      cases same
      contradiction
    · rfl

theorem scanExponent_literal (atEnd : Cause) (l : Literal) {rest : Bytes} (ends : EndsNumber rest) :
    scanExponent atEnd (l.exponentBytes ++ rest) = .ok (l.numeral.exponent, rest) := by
  rw [Literal.exponentBytes, Literal.numeral]
  cases l.exponent with
  | none => exact scanExponent_none atEnd ends
  | some e =>
    have letter : (if e.capital then 0x45 else 0x65 : UInt8) = 0x65 ∨
        (if e.capital then 0x45 else 0x65 : UInt8) = 0x45 := by
      cases e.capital <;> simp
    have signed := scanSign_exponent e rest
    obtain ⟨taken, dropped⟩ := takeWhile_append_of_end e.digits.more ends.digits
    simp only [Digits.bytes, List.cons_append] at signed
    simp only [Option.map_some, Option.getD_some, Exponent.bytes, List.cons_append,
      List.append_assoc, scanExponent, if_pos letter, signed, Digits.bytes, e.digits.digit, if_true,
      taken, dropped]

theorem endsDigits_exponent (l : Literal) {rest : Bytes} (ends : EndsNumber rest) :
    EndsDigits (l.exponentBytes ++ rest) := by
  rw [Literal.exponentBytes]
  cases l.exponent with
  | none => exact ends.digits
  | some e =>
    simp only [Option.map_some, Option.getD_some, Exponent.bytes, List.cons_append, EndsDigits]
    cases e.capital <;> rfl

theorem scanFraction_literal (atEnd : Cause) (l : Literal) {rest : Bytes} (ends : EndsNumber rest) :
    scanFraction atEnd (l.fractionBytes ++ (l.exponentBytes ++ rest)) =
      .ok (l.numeral.fraction, l.exponentBytes ++ rest) := by
  have behind := endsDigits_exponent l ends
  rw [Literal.fractionBytes, Literal.numeral]
  cases l.fraction with
  | some ds =>
    obtain ⟨taken, dropped⟩ := takeWhile_append_of_end ds.all behind
    have some : ds.bytes ≠ [] := List.cons_ne_nil _ _
    simp only [Option.map_some, Option.getD_some, List.cons_append, scanFraction, taken, dropped,
      some, if_false]
  | none =>
    have noPoint : ∀ tail, l.exponentBytes ++ rest ≠ 0x2E :: tail := by
      intro tail same
      rw [Literal.exponentBytes] at same
      cases exponent : l.exponent with
      | none =>
        rw [exponent] at same
        cases rest with
        | nil => contradiction
        | cons b rest => exact ends.2.1 (List.cons.inj same).1
      | some e =>
        rw [exponent] at same
        have letter := (List.cons.inj same).1
        revert letter
        cases e.capital <;> decide
    simp only [Option.map_none, Option.getD_none, List.nil_append]
    unfold scanFraction
    split
    · exact absurd ‹_› (noPoint _)
    · rfl

theorem endsDigits_fraction (l : Literal) {rest : Bytes} (ends : EndsNumber rest) :
    EndsDigits (l.fractionBytes ++ (l.exponentBytes ++ rest)) := by
  rw [Literal.fractionBytes]
  cases l.fraction with
  | none => exact endsDigits_exponent l ends
  | some ds => exact rfl

theorem scanNumeral_literal (atEnd : Cause) (l : Literal) {rest : Bytes} (ends : EndsNumber rest) :
    scanNumeral atEnd (l.bytes ++ rest) = .ok (l.numeral, rest) := by
  have whole := scanWhole_digits atEnd l.whole.digit l.whole.more l.leading
    (endsDigits_fraction l ends)
  have unsigned : scanUnsigned atEnd l.negative (l.unsignedBytes ++ rest) =
      .ok (l.numeral, rest) := by
    simp only [scanUnsigned, Literal.unsignedBytes, List.append_assoc, Digits.bytes,
      List.cons_append, whole, scanFraction_literal atEnd l ends, scanExponent_literal atEnd l ends,
      bind, Except.bind]
    rfl
  rw [Literal.bytes]
  cases sign : l.negative with
  | true =>
    rw [sign] at unsigned
    exact unsigned
  | false =>
    rw [sign] at unsigned
    have digit := l.whole.digit
    simp only [Bool.false_eq_true, if_false]
    unfold scanNumeral
    split
    · rename_i same
      rw [Literal.unsignedBytes, Digits.bytes] at same
      rw [(List.cons.inj same).1] at digit
      contradiction
    · exact unsigned

theorem opens_literal (l : Literal) : ∃ b tail, l.bytes = b :: tail ∧
    (b = 0x2D ∨ isDigit b = true) := by
  rw [Literal.bytes]
  split
  · exact ⟨_, _, rfl, .inl rfl⟩
  · exact ⟨_, _, rfl, .inr l.whole.digit⟩

theorem readNumber_literal (l : Literal) {rest : Bytes} (ends : EndsNumber rest) :
    (readNumber (l.bytes ++ rest)).toOption = l.value?.map (·, rest) := by
  rw [readNumber, scanNumeral_literal _ l ends, Literal.value?]
  cases found : l.numeral.value with
  | ok n => simp [bind, Except.bind, found, pure, Except.pure]
  | error unread => simp [bind, Except.bind, found]

def digitsNumber (sofar : Nat) (digits : Bytes) : Nat :=
  digits.foldl (fun n b => n * 10 + digitValue b) sofar

theorem le_digitsNumber (digits : Bytes) (sofar : Nat) : sofar ≤ digitsNumber sofar digits := by
  induction digits generalizing sofar with
  | nil => exact Nat.le_refl _
  | cons b digits ih =>
    have next := ih (sofar * 10 + digitValue b)
    rw [digitsNumber, List.foldl_cons, ← digitsNumber]
    omega

theorem takeDigits_all {digits : Bytes} {sofar : Nat}
    (fits : digitsNumber sofar digits < wordLimit) :
    takeDigits sofar digits = (digitsNumber sofar digits, []) := by
  induction digits generalizing sofar with
  | nil => rfl
  | cons b digits ih =>
    rw [digitsNumber, List.foldl_cons, ← digitsNumber] at fits ⊢
    have next := le_digitsNumber digits (sofar * 10 + digitValue b)
    rw [takeDigits, if_pos (by omega), ih fits]

theorem digit_spec {b : UInt8} (digit : isDigit b = true) : digitValue b < 10 ∧
    Utf8.encodeChar (digitChar (digitValue b)) = [b] ∧ (digitValue b = 0 → b = 0x30) := by
  have all : ∀ n : Fin 256, isDigit (UInt8.ofNat n) = true → digitValue (UInt8.ofNat n) < 10 ∧
      Utf8.encodeChar (digitChar (digitValue (UInt8.ofNat n))) = [UInt8.ofNat n] ∧
        (digitValue (UInt8.ofNat n) = 0 → UInt8.ofNat n = 0x30) := by
    decide +kernel
  have same : UInt8.ofNat b.toNat = b := UInt8.ofNat_toNat
  have byte := all ⟨b.toNat, b.toNat_lt⟩
  simp only [same] at byte
  exact byte digit

theorem digits_digitsNumber (ds : Digits) (leading : ds.head = 0x30 → ds.tail = []) :
    Utf8.encodeChars (digits (digitsNumber 0 ds.bytes)) = ds.bytes := by
  obtain ⟨head, tail, digit, more⟩ := ds
  obtain ⟨small, written, zero⟩ := digit_spec digit
  simp only [Digits.bytes] at leading ⊢
  induction tail using List.reverseRecOn with
  | nil =>
    simp only [digitsNumber, List.foldl_cons, List.foldl_nil, Nat.zero_mul, Nat.zero_add]
    rw [digits, if_pos small]
    simpa using written
  | append_singleton tail b ih =>
    have positive : 0 < digitsNumber 0 (head :: tail) := by
      have first : head ≠ 0x30 := fun same => by simpa using leading same
      have least := le_digitsNumber tail (0 * 10 + digitValue head)
      rw [digitsNumber, List.foldl_cons, ← digitsNumber]
      have nonzero : digitValue head ≠ 0 := fun none => first (zero none)
      omega
    obtain ⟨low, last, _⟩ := digit_spec (more b (by simp))
    have number : digitsNumber 0 (head :: (tail ++ [b])) =
        digitsNumber 0 (head :: tail) * 10 + digitValue b := by
      simp [digitsNumber]
    have before := ih (fun c hc => more c (by simp [hc])) (fun same => by
      have none := leading same
      simp at none)
    rw [number, digits, if_neg (by omega), Utf8.encodeChars_append,
      show (digitsNumber 0 (head :: tail) * 10 + digitValue b) / 10 = digitsNumber 0 (head :: tail)
        by omega,
      show (digitsNumber 0 (head :: tail) * 10 + digitValue b) % 10 = digitValue b by omega, before]
    simp [last]

/-- A number without point and exponent that fits a word, signed if it has a minus sign. -/
structure Literal.Integer (l : Literal) : Prop where
  fraction : l.fraction = none
  exponent : l.exponent = none
  fits : digitsNumber 0 l.whole.bytes < wordLimit
  negative : l.negative = true →
    0 < digitsNumber 0 l.whole.bytes ∧ digitsNumber 0 l.whole.bytes ≤ Nat.pow 2 63

theorem Literal.Integer.value {l : Literal} (h : l.Integer) : ∃ n, l.value? = some (.whole n) ∧
    Utf8.encode (Number.whole n).write = l.bytes := by
  have taken := takeDigits_all h.fits
  have written := digits_digitsNumber l.whole l.leading
  have negative := h.negative
  have fields : l.numeral.fraction = [] ∧ l.numeral.exponent = none := by
    simp [Literal.numeral, h.fraction, h.exponent]
  have bytes : l.unsignedBytes = l.whole.bytes := by
    simp [Literal.unsignedBytes, Literal.fractionBytes, Literal.exponentBytes, h.fraction,
      h.exponent]
  have whole : l.numeral.whole = l.whole.bytes := rfl
  have sign : l.numeral.negative = l.negative := rfl
  generalize digitsNumber 0 l.whole.bytes = n at taken written negative
  refine ⟨if l.negative then -(n : Int) else n, ?_, ?_⟩
  · have fits : l.negative = false ∨ (0 < n ∧ n ≤ Nat.pow 2 63) := by
      cases minus : l.negative with
      | false => exact .inl rfl
      | true => exact .inr (negative minus)
    simp only [Literal.value?, Numeral.value, whole, taken, fields, sign, true_and, if_pos fits]
    rfl
  · rw [Literal.bytes, bytes]
    cases minus : l.negative with
    | false =>
      simpa [Number.write, Utf8.encode, intText, natText] using written
    | true =>
      obtain ⟨positive, _⟩ := negative minus
      obtain ⟨k, rfl⟩ := Nat.exists_eq_add_of_lt positive
      have text : intText (-((0 + k + 1 : Nat) : Int)) =
          String.ofList ('-' :: digits (k + 1)) := by
        rw [Nat.zero_add]
        rfl
      have hyphen : Utf8.encodeChar '-' = [0x2D] := rfl
      rw [Nat.zero_add] at written
      simp only [if_true, Number.write, text, Utf8.encode, String.toList_ofList,
        Utf8.encodeChars_cons, hyphen, written]
      rfl

end RequestBus.Json
