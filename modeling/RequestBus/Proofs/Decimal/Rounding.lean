import Mathlib.Tactic.Ring
import RequestBus.Decimal.Binary64

namespace RequestBus.Decimal.Binary64

theorem two_pow_le {i j : Nat} (h : i ≤ j) : 2 ^ i ≤ 2 ^ j := Nat.pow_le_pow_right (by decide) h

theorem lt_of_two_pow_lt {i j : Nat} (h : 2 ^ i < 2 ^ j) : i < j :=
  (Nat.pow_lt_pow_iff_right (by decide)).mp h

theorem mul_two_pow_le (n : Nat) {i j : Nat} (h : i ≤ j) : n * 2 ^ i ≤ n * 2 ^ j :=
  Nat.mul_le_mul_left n (two_pow_le h)

theorem mul_two_pow_mul_two_le (n : Nat) {i j : Nat} (h : i < j) : n * 2 ^ i * 2 ≤ n * 2 ^ j := by
  rw [Nat.mul_assoc, ← Nat.pow_succ]
  exact mul_two_pow_le n h

theorem mul_two_pow_pos {n : Nat} (positive : 0 < n) (i : Nat) : 0 < n * 2 ^ i :=
  Nat.mul_pos positive (Nat.two_pow_pos i)

theorem pos_of_le_mul {a b c : Nat} (positive : 0 < a) (h : a ≤ b * c) : 0 < b :=
  Nat.pos_of_mul_pos_right (Nat.lt_of_lt_of_le positive h)

theorem scaleOf_spec {num den : Nat} (positive : 0 < num) (divisor : 0 < den) :
    num * 2 ^ 1074 < den * 2 ^ (scaleOf num den + 53) ∧
    (scaleOf num den = 0 ∨ den * 2 ^ (scaleOf num den + 52) ≤ num * 2 ^ 1074) := by
  have numLow := Nat.log2_self_le (Nat.pos_iff_ne_zero.mp positive)
  have numHigh := @Nat.lt_log2_self num
  have denLow := Nat.log2_self_le (Nat.pos_iff_ne_zero.mp divisor)
  have denHigh := @Nat.lt_log2_self den
  unfold scaleOf
  generalize 1074 = places
  simp only [Nat.pow_eq]
  generalize num.log2 = n at *
  generalize den.log2 = d at *
  generalize guessed : n + places - (d + 1) = guess
  have below : num * 2 ^ places < den * 2 ^ (guess + 2) :=
    calc num * 2 ^ places
        < 2 ^ (n + 1) * 2 ^ places := Nat.mul_lt_mul_of_pos_right numHigh (Nat.two_pow_pos _)
      _ = 2 ^ (n + 1 + places) := (Nat.pow_add ..).symm
      _ ≤ 2 ^ (d + (guess + 2)) := two_pow_le (by omega)
      _ = 2 ^ d * 2 ^ (guess + 2) := Nat.pow_add ..
      _ ≤ den * 2 ^ (guess + 2) := Nat.mul_le_mul_right _ denLow
  have above (enough : d + 1 ≤ n + places) : den * 2 ^ guess ≤ num * 2 ^ places :=
    calc den * 2 ^ guess
        ≤ 2 ^ (d + 1) * 2 ^ guess := Nat.mul_le_mul_right _ (Nat.le_of_lt denHigh)
      _ = 2 ^ (d + 1 + guess) := (Nat.pow_add ..).symm
      _ = 2 ^ (n + places) := by congr 1; omega
      _ = 2 ^ n * 2 ^ places := Nat.pow_add ..
      _ ≤ num * 2 ^ places := Nat.mul_le_mul_right _ numLow
  split
  · rename_i small
    refine ⟨Nat.lt_of_lt_of_le small (mul_two_pow_le _ (by omega)), ?_⟩
    rcases Nat.eq_zero_or_pos (guess - 52) with none | some
    · exact .inl none
    · refine .inr ?_
      rw [Nat.sub_add_cancel (by omega)]
      exact above (by omega)
  · rename_i large
    refine ⟨Nat.lt_of_lt_of_le below (mul_two_pow_le _ (by omega)), ?_⟩
    rcases Nat.eq_zero_or_pos (guess + 1 - 52) with none | some
    · exact .inl none
    · refine .inr ?_
      rw [Nat.sub_add_cancel (by omega)]
      exact Nat.le_of_not_lt large

theorem nearest_spec (num : Nat) {den : Nat} (divisor : 0 < den) :
    2 * (nearest num den * den) ≤ 2 * num + den ∧ 2 * num ≤ 2 * (nearest num den * den) + den := by
  have whole := Nat.div_add_mod num den
  have rest := Nat.mod_lt num divisor
  rw [Nat.mul_comm] at whole
  simp only [nearest]
  generalize num / den = q at *
  generalize num % den = r at *
  split
  · omega
  · rw [Nat.add_mul, Nat.one_mul]
    omega

theorem units_pattern {s q : Nat} (normal : s = 0 ∨ 2 ^ 52 ≤ q) (carried : q ≤ 2 ^ 53) :
    units (s * 2 ^ 52 + q) = q * 2 ^ s := by
  unfold units significand scale
  simp only [Nat.pow_eq]
  rcases Nat.lt_or_ge q (2 ^ 52) with small | large
  · obtain rfl : s = 0 := by omega
    rw [Nat.zero_mul, Nat.zero_add, if_pos small, Nat.div_eq_of_lt small]
  · rcases Nat.lt_or_ge q (2 ^ 53) with inside | carry
    · rw [if_neg (by omega), show (s * 2 ^ 52 + q) / 2 ^ 52 - 1 = s by omega,
        show 2 ^ 52 + (s * 2 ^ 52 + q) % 2 ^ 52 = q by omega]
    · obtain rfl : q = 2 ^ 53 := by omega
      rw [if_neg (by omega), show (s * 2 ^ 52 + 2 ^ 53) / 2 ^ 52 - 1 = s + 1 by omega,
        show 2 ^ 52 + (s * 2 ^ 52 + 2 ^ 53) % 2 ^ 52 = 2 ^ 52 by omega, Nat.pow_succ]
      omega

/-- A scale and a significand that a quotient is rounded to; `x` is the quotient in the smallest
magnitudes, times `den`. -/
structure Rounds (x den s q : Nat) : Prop where
  normal : s = 0 ∨ den * 2 ^ s * 2 ^ 52 ≤ x
  fits : x < den * 2 ^ s * 2 ^ 53
  above : 2 * (q * (den * 2 ^ s)) ≤ 2 * x + den * 2 ^ s
  below : 2 * x ≤ 2 * (q * (den * 2 ^ s)) + den * 2 ^ s

namespace Rounds

variable {x den s q : Nat}

theorem normal_significand (h : Rounds x den s q) (divisor : 0 < den) : s = 0 ∨ 2 ^ 52 ≤ q := by
  refine h.normal.imp_right fun normal => ?_
  have below := h.below
  have positive : 0 < den * 2 ^ s := mul_two_pow_pos divisor s
  generalize den * 2 ^ s = d at *
  refine Nat.le_of_not_lt fun small => ?_
  have less := Nat.mul_le_mul_right d (Nat.le_sub_one_of_lt small)
  omega

theorem carried (h : Rounds x den s q) (divisor : 0 < den) : q ≤ 2 ^ 53 := by
  have above := h.above
  have fits := h.fits
  have positive : 0 < den * 2 ^ s := mul_two_pow_pos divisor s
  generalize den * 2 ^ s = d at *
  refine Nat.le_of_not_lt fun large => ?_
  have more := Nat.mul_le_mul_right d large
  rw [Nat.succ_mul] at more
  omega

end Rounds

theorem ofQuotient?_spec {num den : Nat} (positive : 0 < num) (divisor : 0 < den) :
    ∃ s q, Rounds (num * 2 ^ 1074) den s q ∧
      ofQuotient? num den = if s * 2 ^ 52 + q < infinite then some (s * 2 ^ 52 + q) else none := by
  obtain ⟨fits, normal⟩ := scaleOf_spec positive divisor
  have scaled : 0 < den * 2 ^ scaleOf num den := mul_two_pow_pos divisor _
  obtain ⟨above, below⟩ := nearest_spec (num * 2 ^ 1074) scaled
  have shift : ∀ k, den * 2 ^ (scaleOf num den + k) = den * 2 ^ scaleOf num den * 2 ^ k := by
    intro k
    rw [Nat.pow_add, Nat.mul_assoc]
  rw [shift] at fits normal
  refine ⟨scaleOf num den, nearest (num * 2 ^ 1074) (den * 2 ^ scaleOf num den),
    ⟨normal, fits, above, below⟩, ?_⟩
  · unfold ofQuotient?
    rw [if_neg (Nat.pos_iff_ne_zero.mp positive)]
    generalize 1074 = places
    rfl

theorem isSome_ofQuotient? {num den : Nat} (divisor : 0 < den)
    (inside : num * 2 ^ 1074 ≤ (2 ^ 53 - 1) * (den * 2 ^ 2045)) : (ofQuotient? num den).isSome := by
  rcases Nat.eq_zero_or_pos num with rfl | positive
  · rfl
  obtain ⟨s, q, rounds, result⟩ := ofQuotient?_spec positive divisor
  have carried := rounds.carried divisor
  have finite : s * 2 ^ 52 + q < infinite := by
    unfold infinite
    simp only [Nat.pow_eq]
    rcases Nat.lt_or_ge s 2045 with low | high
    · omega
    have normal := rounds.normal.resolve_left (by omega)
    have above := rounds.above
    have least := mul_two_pow_le den high
    have some := mul_two_pow_pos divisor 2045
    rcases Nat.eq_or_lt_of_le high with rfl | higher
    · generalize den * 2 ^ 2045 = d at *
      generalize num * 2 ^ 1074 = x at *
      have few : q < 2 ^ 53 := by
        refine Nat.lt_of_not_le fun many => ?_
        have more := Nat.mul_le_mul_right d many
        omega
      omega
    · have double := mul_two_pow_mul_two_le den higher
      generalize den * 2 ^ 2045 = d at *
      generalize den * 2 ^ s = e at *
      generalize num * 2 ^ 1074 = x at *
      omega
  rw [result, if_pos finite]
  rfl

theorem ofQuotient?_eq_none {num den : Nat} (divisor : 0 < den)
    (outside : den * 2 ^ 2098 ≤ num * 2 ^ 1074) : ofQuotient? num den = none := by
  have positive := pos_of_le_mul (mul_two_pow_pos divisor 2098) outside
  obtain ⟨s, q, rounds, result⟩ := ofQuotient?_spec positive divisor
  have high : 2098 < s + 53 := by
    have fits := Nat.lt_of_le_of_lt outside rounds.fits
    rw [Nat.mul_assoc, ← Nat.pow_add] at fits
    exact lt_of_two_pow_lt (Nat.lt_of_mul_lt_mul_left fits)
  have significant := (rounds.normal_significand divisor).resolve_left (by omega)
  rw [result, if_neg]
  unfold infinite
  simp only [Nat.pow_eq]
  omega

/-- Rounding a quotient that is not below the normal numbers is off by one part in `2 ^ 53` at
most. -/
theorem units_ofQuotient? {num den p : Nat} (divisor : 0 < den)
    (normal : den * 2 ^ 52 ≤ num * 2 ^ 1074) (rounded : ofQuotient? num den = some p) :
    units p * den * 2 ^ 53 ≤ num * 2 ^ 1074 * (2 ^ 53 + 1) ∧
    num * 2 ^ 1074 * (2 ^ 53 - 1) ≤ units p * den * 2 ^ 53 := by
  have positive := pos_of_le_mul (mul_two_pow_pos divisor 52) normal
  obtain ⟨s, q, rounds, result⟩ := ofQuotient?_spec positive divisor
  generalize num * 2 ^ 1074 = x at *
  have worth : units p * den = q * (den * 2 ^ s) := by
    rw [result] at rounded
    split at rounded
    · obtain rfl := Option.some.inj rounded
      rw [units_pattern (rounds.normal_significand divisor) (rounds.carried divisor)]
      rw [Nat.mul_assoc, Nat.mul_comm (2 ^ s)]
    · contradiction
  have least : den * 2 ^ s * 2 ^ 52 ≤ x := by
    rcases rounds.normal with rfl | scaled
    · rwa [Nat.pow_zero, Nat.mul_one]
    · exact scaled
  have above := rounds.above
  have below := rounds.below
  rw [worth]
  generalize q * (den * 2 ^ s) = r at *
  generalize den * 2 ^ s = d at *
  omega

end RequestBus.Decimal.Binary64
