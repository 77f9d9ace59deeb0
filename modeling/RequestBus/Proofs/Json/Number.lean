import RequestBus.Json.Reader
import RequestBus.Proofs.Text.Utf8

namespace RequestBus.Json

open Decimal Utf8

def EndsNumber : Bytes → Prop
  | [] => True
  | b :: _ => isDigit b = false ∧ b ≠ 0x2E ∧ b ≠ 0x65 ∧ b ≠ 0x45

def EndsDigits : Bytes → Prop
  | [] => True
  | b :: _ => isDigit b = false

theorem EndsNumber.digits {rest : Bytes} (ends : EndsNumber rest) : EndsDigits rest := by
  cases rest with
  | nil => trivial
  | cons b rest => exact ends.1

theorem encodeChar_digitChar {d : Nat} (h : d < 10) : ∃ b, encodeChar (digitChar d) = [b] ∧
    isDigit b = true ∧ digitValue b = d := by
  have all : ∀ d : Fin 10, encodeChar (digitChar d) = [UInt8.ofNat (0x30 + d)] ∧
      isDigit (UInt8.ofNat (0x30 + d)) = true ∧ digitValue (UInt8.ofNat (0x30 + d)) = d.val := by
    decide
  exact ⟨_, all ⟨d, h⟩⟩

theorem isDigit_digits (n : Nat) : ∀ b ∈ encodeChars (digits n), isDigit b = true := by
  induction n using Nat.strongRecOn with
  | _ n ih =>
    intro b member
    rw [digits] at member
    split at member
    · rename_i small
      obtain ⟨c, written, digit, _⟩ := encodeChar_digitChar small
      rw [encodeChars_cons, written, encodeChars_nil, List.append_nil, List.mem_singleton] at member
      exact member ▸ digit
    · obtain ⟨c, written, digit, _⟩ := encodeChar_digitChar (d := n % 10) (by omega)
      rw [encodeChars_append, encodeChars_cons, written, encodeChars_nil, List.append_nil,
        List.mem_append, List.mem_singleton] at member
      rcases member with member | member
      · exact ih (n / 10) (by omega) b member
      · exact member ▸ digit

theorem takeDigits_append {sofar value : Nat} {xs : Bytes} (h : takeDigits sofar xs = (value, []))
    (ys : Bytes) : takeDigits sofar (xs ++ ys) = takeDigits value ys := by
  induction xs generalizing sofar with
  | nil =>
    cases h
    rfl
  | cons b xs ih =>
    simp only [takeDigits, List.cons_append] at h ⊢
    split
    · rename_i fits
      rw [if_pos fits] at h
      exact ih h
    · rename_i large
      rw [if_neg large] at h
      cases h

theorem takeDigits_digits {n : Nat} (h : n < wordLimit) :
    takeDigits 0 (encodeChars (digits n)) = (n, []) := by
  induction n using Nat.strongRecOn with
  | _ n ih =>
    rw [digits]
    split
    · rename_i small
      obtain ⟨b, written, _, value⟩ := encodeChar_digitChar small
      simp only [encodeChars_cons, written, encodeChars_nil, List.append_nil, takeDigits, value,
        Nat.zero_mul, Nat.zero_add, if_pos h]
    · obtain ⟨b, written, _, value⟩ := encodeChar_digitChar (d := n % 10) (by omega)
      have before := ih (n / 10) (by omega) (by omega)
      have whole : n / 10 * 10 + n % 10 = n := by omega
      rw [encodeChars_append, takeDigits_append before]
      simp only [encodeChars_cons, written, encodeChars_nil, List.append_nil, takeDigits, value,
        whole, if_pos h]

theorem head_digits (n : Nat) : ∃ b tail, encodeChars (digits n) = b :: tail ∧
    isDigit b = true ∧ (b = 0x30 → n = 0 ∧ tail = []) := by
  induction n using Nat.strongRecOn with
  | _ n ih =>
    rw [digits]
    split
    · rename_i small
      obtain ⟨b, written, digit, value⟩ := encodeChar_digitChar small
      refine ⟨b, [], by simp [written], digit, fun zero => ⟨?_, rfl⟩⟩
      subst zero
      exact value.symm
    · obtain ⟨b, tail, written, digit, leading⟩ := ih (n / 10) (by omega)
      refine ⟨b, tail ++ encodeChars [digitChar (n % 10)], ?_, digit, fun zero => ?_⟩
      · rw [encodeChars_append, written, List.cons_append]
      · have few := (leading zero).1
        omega

theorem takeWhile_append_of_end {xs rest : Bytes} (digit : ∀ b ∈ xs, isDigit b = true)
    (ends : EndsDigits rest) :
    (xs ++ rest).takeWhile isDigit = xs ∧ (xs ++ rest).dropWhile isDigit = rest := by
  rw [List.takeWhile_append_of_pos digit, List.dropWhile_append_of_pos digit]
  cases rest with
  | nil => simp
  | cons b rest =>
    have last : isDigit b = false := ends
    simp [last]

theorem scanWhole_digits (atEnd : Cause) {b : UInt8} {tail rest : Bytes}
    (digit : isDigit b = true) (more : ∀ c ∈ tail, isDigit c = true)
    (leading : b = 0x30 → tail = []) (ends : EndsDigits rest) :
    scanWhole atEnd (b :: (tail ++ rest)) = .ok (b :: tail, rest) := by
  obtain ⟨taken, dropped⟩ := takeWhile_append_of_end more ends
  unfold scanWhole
  dsimp only
  split
  · rename_i zero
    rw [leading zero]
    cases rest with
    | nil => rfl
    | cons d rest =>
      have last : isDigit d = false := ends
      simp [last]
  · rw [taken, dropped]

theorem scanFraction_none (atEnd : Cause) {rest : Bytes} (ends : EndsNumber rest) :
    scanFraction atEnd rest = .ok ([], rest) := by
  unfold scanFraction
  split
  · exact absurd rfl ends.2.1
  · rfl

theorem scanExponent_none (atEnd : Cause) {rest : Bytes} (ends : EndsNumber rest) :
    scanExponent atEnd rest = .ok (none, rest) := by
  cases rest with
  | nil => rfl
  | cons d rest =>
    obtain ⟨_, _, small, capital⟩ := ends
    simp only [scanExponent, small, capital, or_self, if_false]

theorem readNumber_digits {n : Nat} (h : n < wordLimit) {rest : Bytes} (ends : EndsNumber rest) :
    readNumber (encodeChars (digits n) ++ rest) = .ok (.whole n, rest) := by
  obtain ⟨b, tail, written, digit, leading⟩ := head_digits n
  have more : ∀ c ∈ tail, isDigit c = true := fun c hc =>
    isDigit_digits n c (written ▸ List.mem_cons_of_mem _ hc)
  have whole := scanWhole_digits .endInValue digit more (fun zero => (leading zero).2) ends.digits
  have scanned : scanUnsigned .endInValue false (b :: tail ++ rest) =
      .ok (⟨false, b :: tail, [], none⟩, rest) := by
    simp only [scanUnsigned, List.cons_append, whole, scanFraction_none _ ends,
      scanExponent_none _ ends, bind, Except.bind]
    rfl
  have unsigned : b ≠ 0x2D := by
    rintro rfl
    contradiction
  have taken := takeDigits_digits h
  rw [written] at taken ⊢
  have numeral : scanNumeral .endInValue (b :: tail ++ rest) =
      .ok (⟨false, b :: tail, [], none⟩, rest) := by
    unfold scanNumeral
    split
    · rename_i same
      exact absurd (List.cons.inj same).1 unsigned
    · exact scanned
  simp only [readNumber, numeral, bind, Except.bind, Numeral.value, taken]
  rfl

end RequestBus.Json
