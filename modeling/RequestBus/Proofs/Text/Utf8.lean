import RequestBus.Text.Utf8

namespace RequestBus.Utf8

theorem toNat_ofNat {n : Nat} (h : n < 256) : (UInt8.ofNat n).toNat = n := by
  rw [UInt8.toNat_ofNat']
  exact Nat.mod_eq_of_lt h

theorem lead_one {n : Nat} (h : n < 0x80) : lead (UInt8.ofNat n) = .char (Char.ofNat n) := by
  simp only [lead, toNat_ofNat (by omega : n < 256), if_pos h]

theorem lead_two {n : Nat} (low : 2 ≤ n) (high : n < 32) :
    lead (UInt8.ofNat (0xC0 + n)) = .more ⟨1, 0x80, 0xBF, n⟩ := by
  simp only [lead, toNat_ofNat (by omega : 0xC0 + n < 256)]
  rw [if_neg (by omega), if_neg (by omega), if_pos (by omega), Nat.add_sub_cancel_left]

theorem lead_three {n : Nat} (high : n < 16) : lead (UInt8.ofNat (0xE0 + n)) =
    .more ⟨2, if n = 0 then 0xA0 else 0x80, if n = 13 then 0x9F else 0xBF, n⟩ := by
  simp only [lead, toNat_ofNat (by omega : 0xE0 + n < 256)]
  rw [if_neg (by omega), if_neg (by omega), if_neg (by omega), if_pos (by omega),
    Nat.add_sub_cancel_left]
  simp only [show 0xE0 + n = 0xE0 ↔ n = 0 by omega, show 0xE0 + n = 0xED ↔ n = 13 by omega]

theorem lead_four {n : Nat} (high : n < 5) : lead (UInt8.ofNat (0xF0 + n)) =
    .more ⟨3, if n = 0 then 0x90 else 0x80, if n = 4 then 0x8F else 0xBF, n⟩ := by
  simp only [lead, toNat_ofNat (by omega : 0xF0 + n < 256)]
  rw [if_neg (by omega), if_neg (by omega), if_neg (by omega), if_neg (by omega),
    if_pos (by omega), Nat.add_sub_cancel_left]
  simp only [show 0xF0 + n = 0xF0 ↔ n = 0 by omega, show 0xF0 + n = 0xF4 ↔ n = 4 by omega]

theorem feed_last {low high value n : Nat} (h : n < 64) (below : low ≤ 0x80 + n)
    (above : 0x80 + n ≤ high) :
    Pending.feed ⟨1, low, high, value⟩ (UInt8.ofNat (0x80 + n)) =
      .char (Char.ofNat (value * 64 + n)) := by
  simp only [Pending.feed, toNat_ofNat (by omega : 0x80 + n < 256)]
  rw [if_pos ⟨below, above⟩, if_pos (Nat.le_refl 1), Nat.add_sub_cancel_left]

theorem feed_more {missing low high value n : Nat} (h : n < 64) (below : low ≤ 0x80 + n)
    (above : 0x80 + n ≤ high) :
    Pending.feed ⟨missing + 2, low, high, value⟩ (UInt8.ofNat (0x80 + n)) =
      .more ⟨missing + 1, 0x80, 0xBF, value * 64 + n⟩ := by
  simp only [Pending.feed, toNat_ofNat (by omega : 0x80 + n < 256)]
  rw [if_pos ⟨below, above⟩, if_neg (by omega), Nat.add_sub_cancel_left]
  rfl

theorem decodeFrom_encodeChar (c : Char) (rest : Bytes) :
    decodeFrom none (encodeChar c ++ rest) = (decodeFrom none rest).map (c :: ·) := by
  have valid : c.toNat < 0xD800 ∨ (0xDFFF < c.toNat ∧ c.toNat < 0x110000) := c.valid
  have same : Char.ofNat c.toNat = c := Char.ofNat_toNat c
  unfold encodeChar
  dsimp only
  generalize c.toNat = n at valid same
  split
  · rename_i one
    simp only [List.cons_append, List.nil_append, decodeFrom, Option.elim_none, lead_one one, same]
  · split
    · have first := lead_two (n := n / 64) (by omega) (by omega)
      have second : Pending.feed ⟨1, 0x80, 0xBF, n / 64⟩ (UInt8.ofNat (0x80 + n % 64)) = _ :=
        feed_last (by omega) (by omega) (by omega)
      rw [show n / 64 * 64 + n % 64 = n by omega, same] at second
      simp only [List.cons_append, List.nil_append, decodeFrom, Option.elim_none,
        Option.elim_some, first, second]
    · split
      · have first := lead_three (n := n / 4096) (by omega)
        have second : Pending.feed ⟨0 + 2, if n / 4096 = 0 then 0xA0 else 0x80,
            if n / 4096 = 13 then 0x9F else 0xBF, n / 4096⟩
            (UInt8.ofNat (0x80 + n / 64 % 64)) = _ :=
          feed_more (by omega) (by split <;> omega) (by split <;> omega)
        have third : Pending.feed ⟨0 + 1, 0x80, 0xBF, n / 4096 * 64 + n / 64 % 64⟩
            (UInt8.ofNat (0x80 + n % 64)) = _ := feed_last (by omega) (by omega) (by omega)
        rw [show (n / 4096 * 64 + n / 64 % 64) * 64 + n % 64 = n by omega, same] at third
        simp only [List.cons_append, List.nil_append, decodeFrom, Option.elim_none,
          Option.elim_some, first, second, third]
      · have first := lead_four (n := n / 262144) (by omega)
        have second : Pending.feed ⟨1 + 2, if n / 262144 = 0 then 0x90 else 0x80,
            if n / 262144 = 4 then 0x8F else 0xBF, n / 262144⟩
            (UInt8.ofNat (0x80 + n / 4096 % 64)) = _ :=
          feed_more (by omega) (by split <;> omega) (by split <;> omega)
        have third : Pending.feed ⟨0 + 2, 0x80, 0xBF, n / 262144 * 64 + n / 4096 % 64⟩
            (UInt8.ofNat (0x80 + n / 64 % 64)) = _ := feed_more (by omega) (by omega) (by omega)
        have fourth : Pending.feed ⟨0 + 1, 0x80, 0xBF,
            (n / 262144 * 64 + n / 4096 % 64) * 64 + n / 64 % 64⟩
            (UInt8.ofNat (0x80 + n % 64)) = _ := feed_last (by omega) (by omega) (by omega)
        rw [show ((n / 262144 * 64 + n / 4096 % 64) * 64 + n / 64 % 64) * 64 + n % 64 = n by omega,
          same] at fourth
        simp only [List.cons_append, List.nil_append, decodeFrom, Option.elim_none,
          Option.elim_some, first, second, third, fourth]

@[simp] theorem encodeChars_nil : encodeChars [] = [] := rfl

@[simp] theorem encodeChars_cons (c : Char) (cs : List Char) :
    encodeChars (c :: cs) = encodeChar c ++ encodeChars cs := rfl

@[simp] theorem encodeChars_append (one two : List Char) :
    encodeChars (one ++ two) = encodeChars one ++ encodeChars two :=
  List.flatMap_append

theorem encodeChar_ascii {c : Char} (h : c.toNat < 0x80) :
    encodeChar c = [UInt8.ofNat c.toNat] := by
  simp only [encodeChar, if_pos h]

theorem ge_of_mem_encodeChar {c : Char} (wide : 0x80 ≤ c.toNat) {b : UInt8}
    (member : b ∈ encodeChar c) : 0x80 ≤ b.toNat := by
  have valid : c.toNat < 0xD800 ∨ (0xDFFF < c.toNat ∧ c.toNat < 0x110000) := c.valid
  unfold encodeChar at member
  dsimp only at member
  generalize c.toNat = n at valid wide member
  rw [if_neg (by omega)] at member
  split at member
  · simp only [List.mem_cons, List.not_mem_nil, or_false] at member
    rcases member with rfl | rfl <;> rw [toNat_ofNat (by omega)] <;> omega
  · split at member
    · simp only [List.mem_cons, List.not_mem_nil, or_false] at member
      rcases member with rfl | rfl | rfl <;> rw [toNat_ofNat (by omega)] <;> omega
    · simp only [List.mem_cons, List.not_mem_nil, or_false] at member
      rcases member with rfl | rfl | rfl | rfl <;> rw [toNat_ofNat (by omega)] <;> omega

theorem decodeChars?_encodeChars (cs : List Char) : decodeChars? (encodeChars cs) = some cs := by
  induction cs with
  | nil => rfl
  | cons c cs ih =>
    rw [decodeChars?] at ih ⊢
    rw [encodeChars_cons, decodeFrom_encodeChar, ih]
    rfl

theorem decode?_encode (s : String) : decode? (encode s) = some s := by
  rw [decode?, encode, decodeChars?_encodeChars]
  simp

end RequestBus.Utf8
