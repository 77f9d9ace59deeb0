import Mathlib.Algebra.Order.Field.Power
import Mathlib.Algebra.Order.Ring.Rat
import Mathlib.Tactic.FieldSimp
import Mathlib.Tactic.Linarith
import Mathlib.Tactic.Positivity
import Mathlib.Tactic.Ring
import RequestBus.Proofs.Decimal.Range
import RequestBus.Proofs.Json.Spelling

/-! How large a written number may be. Its digits are taken as long as they fit a word, so what is
scaled by the power of ten is off by less than one part in `10 ^ 18`; with the rounding behind it
the limit is that of floating-point numbers in its first fifteen digits. -/
namespace RequestBus.Json

open Decimal

/-! ## Digits -/

theorem digitsNumber_append (sofar : Nat) (one two : Bytes) :
    digitsNumber sofar (one ++ two) = digitsNumber (digitsNumber sofar one) two :=
  List.foldl_append

theorem digitsNumber_eq (sofar : Nat) (digits : Bytes) :
    digitsNumber sofar digits = sofar * 10 ^ digits.length + digitsNumber 0 digits := by
  induction digits generalizing sofar with
  | nil => simp [digitsNumber]
  | cons b digits ih =>
    have step : ∀ n, digitsNumber n (b :: digits) = digitsNumber (n * 10 + digitValue b) digits :=
      fun _ => rfl
    rw [step, step, ih, ih (0 * 10 + digitValue b), List.length_cons, pow_succ]
    ring

theorem digitsNumber_lt {digits : Bytes} (all : ∀ b ∈ digits, isDigit b = true) :
    digitsNumber 0 digits < 10 ^ digits.length := by
  induction digits with
  | nil => simp [digitsNumber]
  | cons b digits ih =>
    have small := (digit_spec (all b List.mem_cons_self)).1
    have later := ih fun c member => all c (List.mem_cons_of_mem _ member)
    have step : digitsNumber 0 (b :: digits) = digitsNumber (0 * 10 + digitValue b) digits := rfl
    rw [step, digitsNumber_eq, Nat.zero_mul, Nat.zero_add, List.length_cons, pow_succ]
    have most : digitValue b * 10 ^ digits.length ≤ 9 * 10 ^ digits.length :=
      Nat.mul_le_mul_right _ (by omega)
    omega

theorem takeDigits_spec {digits : Bytes} (all : ∀ b ∈ digits, isDigit b = true) {sofar : Nat}
    (word : sofar < wordLimit) : ∃ taken rest, digits = taken ++ rest ∧
      takeDigits sofar digits = (digitsNumber sofar taken, rest) ∧
      digitsNumber sofar taken < wordLimit ∧
      (rest = [] ∨ wordLimit ≤ digitsNumber sofar taken * 10 + 9) := by
  induction digits generalizing sofar with
  | nil => exact ⟨[], [], rfl, rfl, word, .inl rfl⟩
  | cons b digits ih =>
    have small := (digit_spec (all b List.mem_cons_self)).1
    rw [takeDigits]
    split
    · rename_i fits
      obtain ⟨taken, rest, rfl, took, less, full⟩ :=
        ih (fun c member => all c (List.mem_cons_of_mem _ member)) fits
      exact ⟨b :: taken, rest, rfl, took, less, full⟩
    · refine ⟨[], b :: digits, rfl, rfl, word, .inr ?_⟩
      have number : digitsNumber sofar [] = sofar := rfl
      omega

theorem exponentValue_ok {digits : Bytes} {sofar : Nat}
    (fits : digitsNumber sofar digits < exponentLimit) :
    exponentValue sofar digits = .ok (digitsNumber sofar digits) := by
  induction digits generalizing sofar with
  | nil => rfl
  | cons b digits ih =>
    have step : digitsNumber sofar (b :: digits) =
        digitsNumber (sofar * 10 + digitValue b) digits := rfl
    have next := le_digitsNumber digits (sofar * 10 + digitValue b)
    rw [step] at fits ⊢
    rw [exponentValue, if_pos (by omega), ih fits]

theorem exponentValue_error {digits : Bytes} {sofar : Nat} (small : sofar < exponentLimit)
    (boundless : exponentLimit ≤ digitsNumber sofar digits) :
    ∃ unread, exponentValue sofar digits = .error unread := by
  induction digits generalizing sofar with
  | nil => exact absurd small (Nat.not_lt_of_le boundless)
  | cons b digits ih =>
    rw [exponentValue]
    split
    · rename_i fits
      exact ih fits boundless
    · exact ⟨digits, rfl⟩

/-! ## Numbers -/

/-- Numbers that differ by less than one part in `10 ^ 18`. -/
def Near (x y : ℚ) : Prop := x ≤ y * (1 + 1 / 10 ^ 18) ∧ y ≤ x * (1 + 1 / 10 ^ 18)

theorem Near.refl {x : ℚ} (positive : 0 ≤ x) : Near x x := by
  constructor <;> linarith

theorem near_of_digits {w x y unit : ℚ} (many : 10 ^ 18 ≤ w) (positive : 0 ≤ unit)
    (x_low : w * unit ≤ x) (x_high : x ≤ (w + 1) * unit) (y_low : w * unit ≤ y)
    (y_high : y ≤ (w + 1) * unit) : Near x y := by
  have close : (w + 1) * unit ≤ w * unit * (1 + 1 / 10 ^ 18) := by
    have one : unit ≤ w * unit * (1 / 10 ^ 18) := by
      have more := mul_le_mul_of_nonneg_right many positive
      linarith
    linarith
  constructor
  · have scaled := mul_le_mul_of_nonneg_right y_low (show (0 : ℚ) ≤ 1 + 1 / 10 ^ 18 by norm_num)
    linarith
  · have scaled := mul_le_mul_of_nonneg_right x_low (show (0 : ℚ) ≤ 1 + 1 / 10 ^ 18 by norm_num)
    linarith

theorem scaled_bounds {w r n : Nat} (less : r < 10 ^ n) (p : ℤ) :
    (w : ℚ) * 10 ^ (n + p) ≤ (w * 10 ^ n + r : ℕ) * 10 ^ p ∧
    ((w * 10 ^ n + r : ℕ) : ℚ) * 10 ^ p ≤ (w + 1) * 10 ^ (n + p) := by
  have unit : (0 : ℚ) ≤ 10 ^ p := by positivity
  have small : (r : ℚ) ≤ 10 ^ n := by exact_mod_cast less.le
  have rest : (0 : ℚ) ≤ r := r.cast_nonneg
  rw [zpow_add₀ (by norm_num : (10 : ℚ) ≠ 0), zpow_natCast, ← mul_assoc, ← mul_assoc]
  push_cast
  exact ⟨mul_le_mul_of_nonneg_right (by linarith) unit,
    mul_le_mul_of_nonneg_right (by linarith) unit⟩

def Exponent.value (e : Exponent) : ℤ :=
  if e.sign = .minus then -(digitsNumber 0 e.digits.bytes : ℤ) else digitsNumber 0 e.digits.bytes

namespace Literal

def fractionDigits (l : Literal) : Bytes := (l.fraction.map Digits.bytes).getD []

def power (l : Literal) : ℤ := (l.exponent.map Exponent.value).getD 0

/-- What a literal stands for, its sign left out. -/
def magnitude (l : Literal) : ℚ :=
  digitsNumber 0 (l.whole.bytes ++ l.fractionDigits) * 10 ^ (l.power - l.fractionDigits.length)

theorem fractionDigits_all (l : Literal) : ∀ b ∈ l.fractionDigits, isDigit b = true := by
  rw [fractionDigits]
  cases l.fraction with
  | none => exact fun b member => nomatch member
  | some ds => exact ds.all

/-- The digits that are taken of a literal, and the places that they are to be moved by. -/
structure Takes (l : Literal) (digits : Nat) (scale : ℤ) : Prop where
  word : digits < wordLimit
  near : Near l.magnitude (digits * 10 ^ (scale + l.power))
  zero : digits = 0 → l.magnitude = 0
  places : -(l.fractionDigits.length : ℤ) ≤ scale

def boundless (l : Literal) : Bool :=
  l.exponent.any fun e => exponentLimit ≤ digitsNumber 0 e.digits.bytes

def real? (l : Literal) (digits : Nat) (scale : ℤ) : Option Nat :=
  if l.boundless then
    if digits = 0 ∨ l.exponent.any (·.sign == .minus) then some 0 else none
  else Binary64.ofDecimal? digits (scale + l.power)

structure Parted (l : Literal) (taken left fraction ignored : Bytes) : Prop where
  whole_eq : l.whole.bytes = taken ++ left
  fraction_eq : l.fractionDigits = fraction ++ ignored
  whole_full : left = [] ∨ wordLimit ≤ digitsNumber 0 taken * 10 + 9
  fraction_full : ignored = [] ∨ wordLimit ≤ digitsNumber (digitsNumber 0 taken) fraction * 10 + 9

section Parted
variable {l : Literal} {taken left fraction ignored : Bytes}

theorem Parted.all (parted : l.Parted taken left fraction ignored) :
    ∀ b ∈ left ++ (fraction ++ ignored), isDigit b = true := by
  intro b member
  rcases List.mem_append.mp member with member | member
  · exact l.whole.all b (parted.whole_eq ▸ List.mem_append_right _ member)
  · exact l.fractionDigits_all b (parted.fraction_eq ▸ member)

theorem many_of_full {w : Nat} (full : wordLimit ≤ w * 10 + 9) : (10 : ℚ) ^ 18 ≤ w := by
  have many : 10 ^ 18 ≤ w := by
    have limit : wordLimit = 18446744073709551616 := rfl
    omega
  exact_mod_cast many

theorem Parted.near (parted : l.Parted taken left fraction ignored) : Near l.magnitude
    (digitsNumber (digitsNumber 0 taken) fraction *
      10 ^ ((left.length - fraction.length : ℤ) + l.power)) := by
  have all := parted.all
  have unit (p : ℤ) : (0 : ℚ) ≤ 10 ^ p := by positivity
  rw [magnitude, parted.whole_eq, parted.fraction_eq, List.append_assoc, digitsNumber_append]
  rcases Decidable.em (left = []) with rfl | some
  · -- the digits taken are the first ones; of the fraction some may be left over
    rw [List.nil_append, digitsNumber_append, digitsNumber_eq _ ignored]
    have less := digitsNumber_lt fun b (member : b ∈ ignored) => all b (by simp [member])
    generalize digitsNumber 0 ignored = r at less
    have full := parted.fraction_full
    generalize digitsNumber (digitsNumber 0 taken) fraction = d at full ⊢
    have place : (ignored.length : ℤ) + (l.power - (fraction ++ ignored).length) =
        ([] : Bytes).length - fraction.length + l.power := by
      simp only [List.length_append, List.length_nil]
      push_cast
      ring
    obtain ⟨low, high⟩ := @scaled_bounds d r ignored.length less
      (l.power - (fraction ++ ignored).length)
    rw [place] at low high
    rcases full with rfl | full
    · obtain rfl : r = 0 := by simpa using less
      have same : l.power - (fraction ++ []).length =
          ([] : Bytes).length - fraction.length + l.power := by simpa using place
      rw [same, List.length_nil, pow_zero, mul_one, add_zero]
      exact Near.refl (mul_nonneg d.cast_nonneg (unit _))
    · exact near_of_digits (many_of_full full) (unit _) low high le_rfl
        (mul_le_mul_of_nonneg_right (by linarith) (unit _))
  · -- digits of the whole part are left over; the fraction is moved up into their place
    have many := many_of_full (parted.whole_full.resolve_left some)
    rw [digitsNumber_eq _ (left ++ (fraction ++ ignored)), digitsNumber_eq _ fraction]
    have less := digitsNumber_lt all
    have less' := digitsNumber_lt fun b (member : b ∈ fraction) => all b (by simp [member])
    generalize digitsNumber 0 taken = w at many ⊢
    have place : ((left ++ (fraction ++ ignored)).length : ℤ) +
        (l.power - (fraction ++ ignored).length) = left.length + l.power := by
      simp only [List.length_append]
      push_cast
      ring
    have place' : (fraction.length : ℤ) + (left.length - fraction.length + l.power) =
        left.length + l.power := by ring
    obtain ⟨low, high⟩ := @scaled_bounds w _ _ less (l.power - (fraction ++ ignored).length)
    obtain ⟨low', high'⟩ := @scaled_bounds w _ _ less' (left.length - fraction.length + l.power)
    rw [place] at low high
    rw [place'] at low' high'
    exact near_of_digits many (unit _) low high low' high'

theorem Parted.zero (parted : l.Parted taken left fraction ignored)
    (none : digitsNumber (digitsNumber 0 taken) fraction = 0) : l.magnitude = 0 := by
  have least := le_digitsNumber fraction (digitsNumber 0 taken)
  have limit : 9 < wordLimit := by decide
  rcases parted.whole_full with rfl | full
  · rcases parted.fraction_full with rfl | full
    · rw [magnitude, parted.whole_eq, parted.fraction_eq, List.append_nil, List.append_nil,
        digitsNumber_append, none]
      simp
    · omega
  · omega

end Parted

/-- What is read of a literal is found for digits near to it; or it is a whole number that fits a
word. -/
theorem takes (l : Literal) : ∃ digits scale, l.Takes digits scale ∧
    (l.value?.isSome ∧ l.magnitude < wordLimit ∨
      l.value?.isSome = (l.real? digits scale).isSome) := by
  obtain ⟨taken, left, whole, tookWhole, wordWhole, fullWhole⟩ :=
    takeDigits_spec l.whole.all (show 0 < wordLimit by decide)
  obtain ⟨fraction, ignored, fractional, tookFraction, word, fullFraction⟩ :=
    takeDigits_spec l.fractionDigits_all wordWhole
  have parted : l.Parted taken left fraction ignored :=
    ⟨whole, fractional, fullWhole, fullFraction⟩
  refine ⟨digitsNumber (digitsNumber 0 taken) fraction, left.length - fraction.length,
    ⟨word, parted.near, parted.zero, ?_⟩, ?_⟩
  · rw [fractional, List.length_append]
    push_cast
    omega
  · have wholeDigits : l.numeral.whole = l.whole.bytes := rfl
    have fractionDigits : l.numeral.fraction = l.fractionDigits := rfl
    have moved : (left.length - (l.fractionDigits.length - ignored.length : ℕ) : ℤ) =
        left.length - fraction.length := by
      rw [fractional, List.length_append, Nat.add_sub_cancel]
    simp only [value?, Numeral.value, wholeDigits, tookWhole, fractionDigits, tookFraction, moved]
    split
    · rename_i integer
      obtain ⟨noFraction, noExponent, rfl, _⟩ := integer
      refine .inl ⟨rfl, ?_⟩
      have power : l.power = 0 := by
        rw [Literal.power, Option.map_eq_none_iff.mp noExponent]
        rfl
      rw [magnitude, noFraction, whole, power, List.append_nil, List.append_nil, List.length_nil]
      have less : (digitsNumber 0 taken : ℚ) < wordLimit := by exact_mod_cast wordWhole
      simpa using less
    · refine .inr ?_
      generalize digitsNumber (digitsNumber 0 taken) fraction = d
      generalize (left.length - fraction.length : ℤ) = scale
      rw [real?, boundless, Literal.power]
      cases exponent : l.exponent with
      | none =>
        have none : l.numeral.exponent = none := by simp [numeral, exponent]
        rw [none]
        simp only [Option.any_none, Option.map_none, Option.getD_none, add_zero,
          Bool.false_eq_true, if_false]
        cases Binary64.ofDecimal? d scale <;> rfl
      | some e =>
        have some : l.numeral.exponent = some (e.sign == .minus, e.digits.bytes) := by
          simp [numeral, exponent]
        rw [some]
        simp only [Option.any_some, Option.map_some, Option.getD_some]
        by_cases bounded : digitsNumber 0 e.digits.bytes < exponentLimit
        · have value : (if (e.sign == .minus) = true
              then scale - (digitsNumber 0 e.digits.bytes : ℤ)
              else scale + (digitsNumber 0 e.digits.bytes : ℤ)) = scale + e.value := by
            cases sign : e.sign <;> simp [Exponent.value, sign, sub_eq_add_neg]
          simp only [exponentValue_ok bounded, value, Nat.not_le_of_lt bounded, decide_false,
            Bool.false_eq_true, if_false]
          cases Binary64.ofDecimal? d (scale + e.value) <;> rfl
        · obtain ⟨unread, beyond⟩ := exponentValue_error (show 0 < exponentLimit by decide)
            (Nat.le_of_not_lt bounded)
          simp only [beyond, Nat.le_of_not_lt bounded, decide_true, if_true]
          split <;> rfl

theorem length_le (l : Literal) :
    l.whole.bytes.length ≤ l.bytes.length ∧ l.fractionDigits.length ≤ l.bytes.length := by
  have unsigned : l.unsignedBytes.length ≤ l.bytes.length := by
    rw [bytes]
    split <;> simp
  have fraction : l.fractionDigits.length ≤ l.fractionBytes.length := by
    rw [fractionDigits, fractionBytes]
    cases l.fraction <;> simp
  rw [unsignedBytes, List.length_append, List.length_append] at unsigned
  omega

/-- Fewer digits than this are in a literal. -/
def longest : Nat := 2 ^ 30

theorem exists_of_boundless {l : Literal} (boundless : l.boundless = true) :
    ∃ e, l.exponent = some e ∧ exponentLimit ≤ digitsNumber 0 e.digits.bytes ∧
      l.power = e.value := by
  rw [Literal.boundless] at boundless
  cases exponent : l.exponent with
  | none =>
    rw [exponent] at boundless
    contradiction
  | some e =>
    rw [exponent] at boundless
    refine ⟨e, rfl, of_decide_eq_true boundless, ?_⟩
    rw [Literal.power, exponent]
    rfl

theorem wellInside_lt (p : ℤ) (large : (Binary64.greatestPowerOfTen : ℤ) + 1 ≤ p) :
    (Binary64.wellInside : ℚ) * (1 + 1 / 10 ^ 18) < 10 ^ p := by
  have limit : (Binary64.wellInside : ℚ) * 2 < 10 ^ (Binary64.greatestPowerOfTen + 1) := by
    exact_mod_cast Binary64.wellInside_lt
  have power := zpow_le_zpow_right₀ (show (1 : ℚ) ≤ 10 by norm_num) large
  have places : (10 : ℚ) ^ ((Binary64.greatestPowerOfTen : ℤ) + 1) =
      10 ^ (Binary64.greatestPowerOfTen + 1) := by exact_mod_cast zpow_natCast (10 : ℚ) _
  have little : (Binary64.wellInside : ℚ) * (1 + 1 / 10 ^ 18) ≤ Binary64.wellInside * 2 :=
    mul_le_mul_of_nonneg_left (by norm_num) (Nat.cast_nonneg _)
  rw [places] at power
  linarith

theorem isSome_of_inside {l : Literal} (short : l.bytes.length < longest)
    (inside : l.magnitude ≤ Binary64.wellInside) : l.value?.isSome := by
  obtain ⟨d, scale, takes, value⟩ := l.takes
  rcases value with ⟨known, _⟩ | same
  · exact known
  rw [same, real?]
  have limit : (d : ℚ) * 10 ^ (scale + l.power) ≤ Binary64.wellInside * (1 + 1 / 10 ^ 18) :=
    takes.near.2.trans (mul_le_mul_of_nonneg_right inside (by norm_num))
  rcases Nat.eq_zero_or_pos d with rfl | positive
  · split
    · rfl
    · exact Binary64.isSome_ofDecimal?_zero _
  split
  · rename_i boundless
    obtain ⟨e, exponent, many, power⟩ := exists_of_boundless boundless
    rw [exponent, Option.any_some]
    by_cases minus : e.sign = .minus
    · simp [minus]
    · -- the power of ten is so large that even the last digit of the fraction is
      have places := takes.places
      have short' := l.length_le.2
      rw [Exponent.value, if_neg minus] at power
      have limits : longest = 1073741824 ∧ exponentLimit = 2147483648 ∧
        Binary64.greatestPowerOfTen = 308 := by decide
      have beyond := wellInside_lt (scale + l.power) (by omega)
      have one : (1 : ℚ) ≤ d := by exact_mod_cast positive
      have least : (10 : ℚ) ^ (scale + l.power) ≤ d * 10 ^ (scale + l.power) :=
        le_mul_of_one_le_left (by positivity) one
      linarith
  · cases place : scale + l.power with
    | ofNat k =>
      rw [place, Int.ofNat_eq_natCast, zpow_natCast] at limit
      refine Binary64.isSome_of_wellInside positive takes.word ?_
      have scaled : (d : ℚ) * 10 ^ k * 10 ^ 18 ≤ Binary64.wellInside * (10 ^ 18 + 1) := by
        linarith
      generalize Binary64.wellInside = bound at scaled ⊢
      exact_mod_cast scaled
    | negSucc k => exact Binary64.isSome_ofDecimal?_negSucc positive takes.word k

theorem magnitude_lt (l : Literal) : l.magnitude < 10 ^ (l.whole.bytes.length + l.power) := by
  have all : ∀ b ∈ l.whole.bytes ++ l.fractionDigits, isDigit b = true := by
    intro b member
    rcases List.mem_append.mp member with member | member
    · exact l.whole.all b member
    · exact l.fractionDigits_all b member
  have less : (digitsNumber 0 (l.whole.bytes ++ l.fractionDigits) : ℚ) <
      10 ^ (l.whole.bytes.length + l.fractionDigits.length) := by
    have number := digitsNumber_lt all
    rw [List.length_append] at number
    exact_mod_cast number
  have split : (10 : ℚ) ^ (l.whole.bytes.length + l.power) =
      10 ^ (l.whole.bytes.length + l.fractionDigits.length) *
        10 ^ (l.power - l.fractionDigits.length) := by
    rw [← zpow_natCast, ← zpow_add₀ (by norm_num : (10 : ℚ) ≠ 0)]
    congr 1
    push_cast
    ring
  rw [split, magnitude]
  exact mul_lt_mul_of_pos_right less (by positivity)

theorem eq_none_of_outside {l : Literal} (short : l.bytes.length < longest)
    (outside : (Binary64.wellOutside : ℚ) ≤ l.magnitude) : l.value? = none := by
  have large : (2 : ℚ) ^ 64 * 2 < Binary64.wellOutside := by
    exact_mod_cast Binary64.lt_wellOutside
  obtain ⟨d, scale, takes, value⟩ := l.takes
  rcases value with ⟨_, word⟩ | same
  · have limit : (wordLimit : ℚ) = 2 ^ 64 := by
      rw [wordLimit]
      norm_num
    linarith
  rw [← Option.not_isSome_iff_eq_none, same, Bool.not_eq_true, Option.isSome_eq_false_iff,
    Option.isNone_iff_eq_none, real?]
  have nonzero : d ≠ 0 := by
    intro zero
    rw [takes.zero zero] at outside
    linarith
  have positive := Nat.pos_of_ne_zero nonzero
  split
  · rename_i boundless
    obtain ⟨e, exponent, many, power⟩ := exists_of_boundless boundless
    rw [exponent, Option.any_some]
    by_cases minus : e.sign = .minus
    · -- the power of ten is so small that even the first digit is behind the point
      have short' := l.length_le.1
      rw [Exponent.value, if_pos minus] at power
      have limits : longest = 1073741824 ∧ exponentLimit = 2147483648 := by decide
      have small : (10 : ℚ) ^ (l.whole.bytes.length + l.power) ≤ 1 :=
        zpow_le_one_of_nonpos₀ (by norm_num) (by omega)
      have less := l.magnitude_lt
      linarith
    · simp [minus, nonzero]
  · cases place : scale + l.power with
    | ofNat k =>
      have near := takes.near.1
      rw [place, Int.ofNat_eq_natCast, zpow_natCast] at near
      refine Binary64.none_of_wellOutside positive takes.word ?_
      have scaled : (Binary64.wellOutside : ℚ) * 10 ^ 18 ≤ d * 10 ^ k * (10 ^ 18 + 1) := by
        linarith
      generalize Binary64.wellOutside = bound at scaled ⊢
      exact_mod_cast scaled
    | negSucc k =>
      have near := takes.near.1
      have small : (10 : ℚ) ^ (scale + l.power) ≤ 1 := by
        rw [place]
        exact zpow_le_one_of_nonpos₀ (by norm_num) (Int.negSucc_lt_zero k).le
      have word : (d : ℚ) < 2 ^ 64 := by exact_mod_cast takes.word
      have bound : (d : ℚ) * 10 ^ (scale + l.power) ≤ d :=
        mul_le_of_le_one_right d.cast_nonneg small
      linarith

end Literal

end RequestBus.Json
