import RequestBus.Dictionary
import RequestBus.Proofs.Text.Utf8

namespace RequestBus.Utf8

theorem byte_lt {a b : Nat} {x y : Bytes} (high : b < 256) (h : a < b ∨ a = b ∧ x < y) :
    UInt8.ofNat a :: x < UInt8.ofNat b :: y := by
  rw [List.cons_lt_cons_iff, UInt8.lt_iff_toNat_lt]
  rcases h with below | ⟨same, behind⟩
  · rw [toNat_ofNat high, toNat_ofNat (Nat.lt_trans below high)]
    exact .inl below
  · exact .inr ⟨congrArg _ same, behind⟩

theorem encodeChar_ranges (c : Char) :
    (c.toNat < 0x80 ∧ encodeChar c = [UInt8.ofNat c.toNat]) ∨
    (0x80 ≤ c.toNat ∧ c.toNat < 0x800 ∧ encodeChar c =
      [UInt8.ofNat (0xC0 + c.toNat / 64), UInt8.ofNat (0x80 + c.toNat % 64)]) ∨
    (0x800 ≤ c.toNat ∧ c.toNat < 0x10000 ∧ encodeChar c =
      [UInt8.ofNat (0xE0 + c.toNat / 4096), UInt8.ofNat (0x80 + c.toNat / 64 % 64),
        UInt8.ofNat (0x80 + c.toNat % 64)]) ∨
    (0x10000 ≤ c.toNat ∧ c.toNat < 0x110000 ∧ encodeChar c =
      [UInt8.ofNat (0xF0 + c.toNat / 262144), UInt8.ofNat (0x80 + c.toNat / 4096 % 64),
        UInt8.ofNat (0x80 + c.toNat / 64 % 64), UInt8.ofNat (0x80 + c.toNat % 64)]) := by
  have valid : c.toNat < 0xD800 ∨ (0xDFFF < c.toNat ∧ c.toNat < 0x110000) := c.valid
  unfold encodeChar
  dsimp only
  by_cases one : c.toNat < 0x80
  · exact .inl ⟨one, if_pos one⟩
  · rw [if_neg one]
    by_cases two : c.toNat < 0x800
    · exact .inr (.inl ⟨by omega, two, if_pos two⟩)
    · rw [if_neg two]
      by_cases three : c.toNat < 0x10000
      · exact .inr (.inr (.inl ⟨by omega, three, if_pos three⟩))
      · exact .inr (.inr (.inr ⟨by omega, by omega, if_neg three⟩))

theorem encodeChar_ne_nil (c : Char) : encodeChar c ≠ [] := by
  rcases encodeChar_ranges c with ⟨_, form⟩ | ⟨_, _, form⟩ | ⟨_, _, form⟩ | ⟨_, _, form⟩ <;>
    simp [form]

theorem encodeChar_lt {c d : Char} (h : c < d) (x y : Bytes) :
    encodeChar c ++ x < encodeChar d ++ y := by
  have below : c.toNat < d.toNat := h
  have first := encodeChar_ranges c
  have second := encodeChar_ranges d
  generalize c.toNat = n at below first
  generalize d.toNat = m at below second
  -- Of two lengths the greater one has the greater first byte; otherwise the first digit in which
  -- the numbers differ decides.
  rcases first with ⟨_, form⟩ | ⟨_, _, form⟩ | ⟨_, _, form⟩ | ⟨_, _, form⟩ <;>
    rcases second with ⟨_, form'⟩ | ⟨_, _, form'⟩ | ⟨_, _, form'⟩ | ⟨_, _, form'⟩ <;>
    first
    | omega
    | rw [form, form']
  case inl.inl | inl.inr.inl | inl.inr.inr.inl | inl.inr.inr.inr | inr.inl.inr.inr.inl
      | inr.inl.inr.inr.inr | inr.inr.inl.inr.inr.inr =>
    exact byte_lt (by omega) (.inl (by omega))
  case inr.inl.inr.inl =>
    have two : n / 64 < m / 64 ∨ n / 64 = m / 64 ∧ n % 64 < m % 64 := by omega
    refine byte_lt (by omega) (two.imp (by omega) fun two => ⟨by omega, ?_⟩)
    exact byte_lt (by omega) (.inl (by omega))
  case inr.inr.inl.inr.inr.inl =>
    have three : n / 4096 < m / 4096 ∨ n / 4096 = m / 4096 ∧
        (n / 64 % 64 < m / 64 % 64 ∨ n / 64 % 64 = m / 64 % 64 ∧ n % 64 < m % 64) := by omega
    refine byte_lt (by omega) (three.imp (by omega) fun three => ⟨by omega, ?_⟩)
    refine byte_lt (by omega) (three.2.imp (by omega) fun two => ⟨by omega, ?_⟩)
    exact byte_lt (by omega) (.inl (by omega))
  case inr.inr.inr.inr.inr.inr =>
    have four : n / 262144 < m / 262144 ∨ n / 262144 = m / 262144 ∧
        (n / 4096 % 64 < m / 4096 % 64 ∨ n / 4096 % 64 = m / 4096 % 64 ∧
          (n / 64 % 64 < m / 64 % 64 ∨ n / 64 % 64 = m / 64 % 64 ∧ n % 64 < m % 64)) := by omega
    refine byte_lt (by omega) (four.imp (by omega) fun four => ⟨by omega, ?_⟩)
    refine byte_lt (by omega) (four.2.imp (by omega) fun three => ⟨by omega, ?_⟩)
    refine byte_lt (by omega) (three.2.imp (by omega) fun two => ⟨by omega, ?_⟩)
    exact byte_lt (by omega) (.inl (by omega))

theorem encodeChars_lt {cs ds : List Char} (h : cs < ds) : encodeChars cs < encodeChars ds := by
  induction h with
  | @nil d ds =>
    obtain ⟨b, tail, form⟩ := List.exists_cons_of_ne_nil (encodeChar_ne_nil d)
    rw [encodeChars_cons, form]
    exact List.nil_lt_cons _ _
  | rel below => exact encodeChar_lt below _ _
  | cons _ ih => exact List.append_left_lt ih

theorem encode_le {s t : String} (h : s ≤ t) : encode s ≤ encode t := by
  rcases key_lt_or_eq_or_gt s t with below | rfl | above
  · exact List.le_of_lt (encodeChars_lt below)
  · exact List.le_refl _
  · exact absurd above (String.not_lt.mpr h)

theorem encode_injective {s t : String} (h : encode s = encode t) : s = t := by
  have back := decode?_encode s
  rw [h, decode?_encode t] at back
  exact (Option.some.inj back).symm

end RequestBus.Utf8
