import RequestBus.Json.Printer
import RequestBus.Json.Reader
import RequestBus.Proofs.Text.Utf8

namespace RequestBus.Json

open Utf8

def Plain (b : UInt8) : Prop := b ≠ quoteByte ∧ b ≠ backslashByte ∧ ¬ b < 0x20

theorem readQuoted_plain {b : UInt8} (plain : Plain b) (sofar rest : Bytes) :
    readQuoted sofar (b :: rest) = readQuoted (b :: sofar) rest := by
  obtain ⟨quote, backslash, control⟩ := plain
  rw [readQuoted]
  simp only [quote, backslash, control, if_false]

theorem readQuoted_allPlain {bytes : Bytes} (plain : ∀ b ∈ bytes, Plain b)
    (sofar rest : Bytes) :
    readQuoted sofar (bytes ++ rest) = readQuoted (bytes.reverse ++ sofar) rest := by
  induction bytes generalizing sofar with
  | nil => rfl
  | cons b bytes ih =>
    rw [List.cons_append, readQuoted_plain (plain b List.mem_cons_self),
      ih fun b hb => plain b (List.mem_cons_of_mem _ hb)]
    simp

theorem readQuoted_backslash (sofar rest : Bytes) : readQuoted sofar (backslashByte :: rest) =
    readEscape rest >>= fun (bytes, after) => readQuoted (bytes.reverse ++ sofar) after := by
  rw [readQuoted]
  simp only [show backslashByte ≠ quoteByte by decide, if_false, if_true]
  split <;> rename_i escape <;> rw [escape] <;> rfl

theorem readQuoted_escape {rest after bytes : Bytes} (h : readEscape rest = .ok (bytes, after))
    (sofar : Bytes) : readQuoted sofar (backslashByte :: rest) =
      readQuoted (bytes.reverse ++ sofar) after := by
  rw [readQuoted_backslash, h]
  rfl

theorem readQuoted_quote (sofar rest : Bytes) :
    readQuoted sofar (quoteByte :: rest) = .ok (sofar.reverse, rest) := by
  rw [readQuoted]
  simp only [if_true]

theorem hexDigit?_hexDigit {n : Nat} (h : n < 16) : ∃ b,
    encodeChar (Text.hexDigit n) = [b] ∧ hexDigit? b = some n := by
  have all : ∀ n : Fin 16, encodeChar (Text.hexDigit n) = [UInt8.ofNat (Text.hexDigit n).toNat] ∧
      hexDigit? (UInt8.ofNat (Text.hexDigit n).toNat) = some n.val := by
    decide
  exact ⟨_, all ⟨n, h⟩⟩

theorem readEscape_control {c : Char} (control : c.toNat < 0x20) (rest : Bytes) :
    readEscape (encodeChars ['u', '0', '0', Text.hexDigit (c.toNat / 16),
      Text.hexDigit (c.toNat % 16)] ++ rest) = .ok (encodeChar c, rest) := by
  obtain ⟨high, writtenHigh, readHigh⟩ := hexDigit?_hexDigit (n := c.toNat / 16) (by omega)
  obtain ⟨low, writtenLow, readLow⟩ := hexDigit?_hexDigit (n := c.toNat % 16) (by omega)
  have zero : hexDigit? 0x30 = some 0 := by decide
  have bytes : encodeChars ['u', '0', '0', Text.hexDigit (c.toNat / 16),
      Text.hexDigit (c.toNat % 16)] = [0x75, 0x30, 0x30, high, low] := by
    simp only [encodeChars_cons, encodeChars_nil, writtenHigh, writtenLow]
    rfl
  have value : ((0 * 16 + 0) * 16 + c.toNat / 16) * 16 + c.toNat % 16 = c.toNat := by omega
  have hex : readHex (0x30 :: 0x30 :: high :: low :: rest) = .ok (c.toNat, rest) := by
    simp only [readHex, zero, readHigh, readLow, value]
  have trailing : isTrailingSurrogate c.toNat = false := by
    simp [isTrailingSurrogate]
    omega
  have leading : isLeadingSurrogate c.toNat = false := by
    simp [isLeadingSurrogate]
    omega
  rw [bytes]
  simp only [List.cons_append, List.nil_append, readEscape, if_true, hex, bind, Except.bind,
    trailing, leading, Bool.false_eq_true, if_false, Char.ofNat_toNat]
  rfl

theorem plain_of_mem_encodeChar {c : Char} (quote : c ≠ '"') (backslash : c ≠ '\\')
    (control : ¬ c.toNat < 0x20) {b : UInt8} (member : b ∈ encodeChar c) : Plain b := by
  have apart : ∀ n : Nat, n < 0x80 → b = UInt8.ofNat n → c.toNat = n := by
    rintro n low rfl
    by_cases ascii : c.toNat < 0x80
    · rw [encodeChar_ascii ascii, List.mem_singleton] at member
      have same := congrArg UInt8.toNat member
      rw [toNat_ofNat (by omega), toNat_ofNat (by omega)] at same
      exact same.symm
    · have above := ge_of_mem_encodeChar (by omega) member
      rw [toNat_ofNat (by omega)] at above
      omega
  refine ⟨fun same => quote ?_, fun same => backslash ?_, fun below => control ?_⟩
  · rw [← Char.ofNat_toNat c, apart 0x22 (by decide) same]
  · rw [← Char.ofNat_toNat c, apart 0x5C (by decide) same]
  · have small : b.toNat < 0x20 := UInt8.lt_iff_toNat_lt.mp below
    rw [apart b.toNat (by omega) (by simp)]
    exact small

theorem readQuoted_writeChar (c : Char) (sofar rest : Bytes) :
    readQuoted sofar (encodeChars (writeChar c) ++ rest) =
      readQuoted ((encodeChar c).reverse ++ sofar) rest := by
  have short : ∀ (letter : Char) (b : UInt8), encodeChar letter = [b] → b ≠ 0x75 →
      shortEscape? b = some (UInt8.ofNat c.toNat) → c.toNat < 0x80 →
      readQuoted sofar (encodeChars ['\\', letter] ++ rest) =
        readQuoted ((encodeChar c).reverse ++ sofar) rest := by
    intro letter b written notHex stands ascii
    have escape : readEscape (b :: rest) = .ok ([UInt8.ofNat c.toNat], rest) := by
      simp only [readEscape, notHex, if_false, stands]
    rw [encodeChar_ascii ascii]
    simp only [encodeChars_cons, encodeChars_nil, written, List.append_nil]
    exact readQuoted_escape escape sofar
  unfold writeChar
  split
  · rename_i same
    rcases same with rfl | rfl
    · exact short _ 0x22 rfl (by decide) rfl (by decide)
    · exact short _ 0x5C rfl (by decide) rfl (by decide)
  split
  · rename_i same
    subst same
    exact short _ 0x6E rfl (by decide) rfl (by decide)
  split
  · rename_i same
    subst same
    exact short _ 0x72 rfl (by decide) rfl (by decide)
  split
  · rename_i same
    subst same
    exact short _ 0x74 rfl (by decide) rfl (by decide)
  split
  · rename_i same
    exact short _ 0x62 rfl (by decide) (by rw [same]; rfl) (by omega)
  split
  · rename_i same
    exact short _ 0x66 rfl (by decide) (by rw [same]; rfl) (by omega)
  split
  · rename_i control
    exact readQuoted_escape (readEscape_control control rest) sofar
  · rename_i special _ _ _ _ _ control
    rw [encodeChars_cons, encodeChars_nil, List.append_nil]
    exact readQuoted_allPlain (fun b => plain_of_mem_encodeChar (fun same => special (.inl same))
      (fun same => special (.inr same)) control) sofar rest

theorem readQuoted_written (cs : List Char) (sofar rest : Bytes) :
    readQuoted sofar (encodeChars (cs.flatMap writeChar) ++ quoteByte :: rest) =
      .ok (sofar.reverse ++ encodeChars cs, rest) := by
  induction cs generalizing sofar with
  | nil => simp [readQuoted_quote]
  | cons c cs ih =>
    rw [List.flatMap_cons, encodeChars_append, List.append_assoc, readQuoted_writeChar, ih]
    simp

theorem readText_written (s : String) (rest : Bytes) :
    readText (encodeChars (s.toList.flatMap writeChar) ++ quoteByte :: rest) = .ok (s, rest) := by
  have read := readQuoted_written s.toList [] rest
  have decoded : decode? (encodeChars s.toList) = some s := decode?_encode s
  simp only [List.reverse_nil, List.nil_append] at read
  simp only [readText, read, bind, Except.bind, decoded]
  rfl

theorem encode_writeText (s : String) : encodeChars (writeText s) =
    quoteByte :: (encodeChars (s.toList.flatMap writeChar) ++ [quoteByte]) := by
  simp only [writeText, List.cons_append, encodeChars_cons, encodeChars_append, encodeChars_nil]
  rfl

end RequestBus.Json
