import Mathlib.Algebra.Group.Nat.Defs
import Mathlib.Tactic.SplitIfs
import Mathlib.Tactic.WLOG
import RequestBus.Proofs.Text.Order

/-! What lenient reading makes of any bytes. It takes them apart into characters and broken
pieces, and writes one replacement character for each of the latter. A broken piece is as long as
what begins a character can be, and a single byte where not even that begins one. There is only
one way to take bytes apart like this. -/
namespace RequestBus.Utf8

/-- The bytes begin a character, or are one. -/
def Opens (front : Bytes) : Prop := ∃ c, front <+: encodeChar c

/-- A piece that is no character and, with what comes behind it, does not become one. -/
structure Broken (front rest : Bytes) : Prop where
  given : front ≠ []
  incomplete : ∀ c, front ≠ encodeChar c
  short : Opens front ∨ front.length = 1
  longest : ∀ b ∈ rest.head?, ¬ Opens (front ++ [b])

/-- The characters that bytes are taken for, broken pieces replaced. -/
inductive Lenient : Bytes → List Char → Prop
  | done : Lenient [] []
  | char (c : Char) {rest : Bytes} {cs : List Char} (behind : Lenient rest cs) :
      Lenient (encodeChar c ++ rest) (c :: cs)
  | broken {front rest : Bytes} {cs : List Char} (piece : Broken front rest)
      (behind : Lenient rest cs) : Lenient (front ++ rest) (replacement :: cs)

theorem decodeFrom_encodeChar_self (c : Char) : decodeFrom none (encodeChar c) = some [c] := by
  simpa [decodeFrom] using decodeFrom_encodeChar c []

theorem eq_of_leading_encodeChar {c d : Char} (within : encodeChar c <+: encodeChar d) :
    c = d := by
  obtain ⟨rest, whole⟩ := within
  have read := decodeFrom_encodeChar c rest
  rw [whole, decodeFrom_encodeChar_self] at read
  obtain ⟨_, _, same⟩ := Option.map_eq_some_iff.mp read.symm
  exact (List.cons.inj same).1

theorem Opens.leading {front whole : Bytes} (opens : Opens whole) (within : front <+: whole) :
    Opens front :=
  opens.imp fun _ begins => within.trans begins

theorem eq_or_leads {one two rest behind : Bytes} (same : one ++ rest = two ++ behind)
    (short : one.length ≤ two.length) :
    one = two ∧ rest = behind ∨ ∃ b ∈ rest.head?, one ++ [b] <+: two := by
  obtain ⟨more, rfl⟩ : one <+: two :=
    List.prefix_of_prefix_length_le (same ▸ List.prefix_append one rest)
      (List.prefix_append two behind) short
  rw [List.append_assoc, List.append_cancel_left_eq] at same
  cases more with
  | nil => exact .inl ⟨(List.append_nil one).symm, same⟩
  | cons b more => exact .inr ⟨b, by simp [same], ⟨more, by simp⟩⟩

theorem Broken.not_char {front rest behind : Bytes} {c : Char} (piece : Broken front rest)
    (same : front ++ rest = encodeChar c ++ behind) : False := by
  rcases Nat.le_total front.length (encodeChar c).length with short | long
  · rcases eq_or_leads same short with ⟨whole, -⟩ | ⟨b, next, within⟩
    · exact piece.incomplete c whole
    · exact piece.longest b next ⟨c, within⟩
  · rcases eq_or_leads same.symm long with ⟨whole, -⟩ | ⟨b, -, within⟩
    · exact piece.incomplete c whole.symm
    · -- A piece longer than a whole character cannot begin another one.
      have within : encodeChar c <+: front := (List.prefix_append _ [b]).trans within
      rcases piece.short with ⟨d, begins⟩ | single
      · obtain rfl := eq_of_leading_encodeChar (within.trans begins)
        exact piece.incomplete c (begins.eq_of_length_le within.length_le)
      · refine piece.incomplete c (within.eq_of_length ?_).symm
        have some := List.length_pos_iff.mpr (encodeChar_ne_nil c)
        have bound := within.length_le
        omega

theorem Broken.unique {one two rest behind : Bytes} (first : Broken one rest)
    (second : Broken two behind) (same : one ++ rest = two ++ behind) :
    one = two ∧ rest = behind := by
  wlog short : one.length ≤ two.length generalizing one two rest behind
  · obtain ⟨rfl, rfl⟩ := this second first same.symm (Nat.le_of_not_le short)
    exact ⟨rfl, rfl⟩
  rcases eq_or_leads same short with whole | ⟨b, next, within⟩
  · exact whole
  · have some : one.length ≠ 0 := List.length_eq_zero_iff.not.mpr first.given
    have longer := within.length_le
    rw [List.length_append, List.length_singleton] at longer
    have opens : Opens two := second.short.resolve_right (by omega)
    exact absurd (opens.leading within) (first.longest b next)

theorem Lenient.unique {bytes : Bytes} {cs ds : List Char} (first : Lenient bytes cs)
    (second : Lenient bytes ds) : cs = ds := by
  induction first generalizing ds with
  | done =>
    generalize same : ([] : Bytes) = bytes at second
    cases second with
    | done => rfl
    | char c behind =>
      have read := decodeFrom_encodeChar_self c
      rw [(List.append_eq_nil_iff.mp same.symm).1] at read
      cases read
    | broken piece behind => exact absurd (List.append_eq_nil_iff.mp same.symm).1 piece.given
  | @char c rest cs behind ih =>
    generalize same : encodeChar c ++ rest = bytes at second
    cases second with
    | done =>
      have read := decodeFrom_encodeChar_self c
      rw [(List.append_eq_nil_iff.mp same).1] at read
      cases read
    | @char d more ds behind' =>
      have alike : c = d := by
        rcases List.append_eq_append_iff.mp same with ⟨_, whole, -⟩ | ⟨_, whole, -⟩
        · exact eq_of_leading_encodeChar ⟨_, whole.symm⟩
        · exact (eq_of_leading_encodeChar ⟨_, whole.symm⟩).symm
      subst alike
      obtain rfl := List.append_cancel_left same
      rw [ih behind']
    | broken piece behind' => exact (piece.not_char same.symm).elim
  | @broken front rest cs piece behind ih =>
    generalize same : front ++ rest = bytes at second
    cases second with
    | done => exact absurd (List.append_eq_nil_iff.mp same).1 piece.given
    | char c behind' => exact (piece.not_char same).elim
    | broken piece' behind' =>
      obtain ⟨rfl, rfl⟩ := piece.unique piece' same
      rw [ih behind']

def continuation (n : Nat) : Nat → Bytes
  | 0 => []
  | m + 1 => UInt8.ofNat (0x80 + n / 64 ^ m % 64) :: continuation n m

/-- The bytes have led to a pending character: any code point that the state can still come to is
encoded by them and by its own last bytes. -/
structure Begun (front : Bytes) (p : Pending) : Prop where
  missing : 1 ≤ p.missing
  low : 0x80 ≤ p.low
  fits : p.low ≤ p.high
  high : p.high ≤ 0xBF
  reads : ∀ rest, decodeFrom none (front ++ rest) = decodeFrom (some p) rest
  encodes : ∀ n, n / 64 ^ p.missing = p.value →
    p.low ≤ 0x80 + n / 64 ^ (p.missing - 1) % 64 →
    0x80 + n / 64 ^ (p.missing - 1) % 64 ≤ p.high →
    encodeChar (Char.ofNat n) = front ++ continuation n p.missing

theorem toNat_ofNat_char {n : Nat} (valid : n < 0xD800 ∨ (0xDFFF < n ∧ n < 0x110000)) :
    (Char.ofNat n).toNat = n := by
  rw [Char.ofNat, dif_pos (show n.isValidChar from valid)]
  rfl

theorem ofNat_eq {b : UInt8} {n : Nat} (same : n = b.toNat) : UInt8.ofNat n = b := by
  rw [same, UInt8.ofNat_toNat]

theorem encode_two {n : Nat} (low : 0x80 ≤ n) (high : n < 0x800) :
    encodeChar (Char.ofNat n) = UInt8.ofNat (0xC0 + n / 64) :: continuation n 1 := by
  simp only [encodeChar, toNat_ofNat_char (n := n) (by omega), continuation, Nat.pow_zero,
    Nat.div_one]
  rw [if_neg (by omega), if_pos high]

theorem encode_three {n : Nat} (low : 0x800 ≤ n) (high : n < 0x10000)
    (scalar : n < 0xD800 ∨ 0xDFFF < n) :
    encodeChar (Char.ofNat n) = UInt8.ofNat (0xE0 + n / 4096) :: continuation n 2 := by
  simp only [encodeChar, toNat_ofNat_char (n := n) (by omega), continuation, Nat.pow_zero,
    Nat.pow_one, Nat.div_one]
  rw [if_neg (by omega), if_neg (by omega), if_pos high]

theorem encode_four {n : Nat} (low : 0x10000 ≤ n) (high : n < 0x110000) :
    encodeChar (Char.ofNat n) = UInt8.ofNat (0xF0 + n / 262144) :: continuation n 3 := by
  simp only [encodeChar, toNat_ofNat_char (n := n) (by omega), continuation, Nat.pow_zero,
    Nat.pow_one, Nat.div_one, Nat.reducePow]
  rw [if_neg (by omega), if_neg (by omega), if_neg (by omega)]

theorem char_of_lead {b : UInt8} {c : Char} (read : lead b = .char c) : encodeChar c = [b] := by
  unfold lead at read
  dsimp only at read
  split at read
  · cases read
    have same := toNat_ofNat_char (n := b.toNat) (by omega)
    rw [encodeChar_ascii (by omega), same, UInt8.ofNat_toNat]
  · split_ifs at read

theorem begun_lead {b : UInt8} {p : Pending} (read : lead b = .more p) : Begun [b] p := by
  have reads : ∀ rest, decodeFrom none ([b] ++ rest) = decodeFrom (some p) rest := fun rest => by
    simp only [List.singleton_append, decodeFrom, Option.elim_none, read]
  unfold lead at read
  dsimp only at read
  by_cases one : b.toNat < 0x80
  · simp [one] at read
  by_cases stray : b.toNat < 0xC2
  · simp [one, stray] at read
  by_cases two : b.toNat < 0xE0
  · rw [if_neg one, if_neg stray, if_pos two] at read
    cases read
    refine ⟨Nat.le_refl 1, by simp, by simp, by simp, reads, fun n whole low high => ?_⟩
    simp only [Nat.reduceSub, Nat.pow_zero, Nat.pow_one, Nat.div_one] at whole low high
    have first : UInt8.ofNat (0xC0 + n / 64) = b := ofNat_eq (by omega)
    rw [encode_two (by omega) (by omega), first]
    rfl
  by_cases three : b.toNat < 0xF0
  · rw [if_neg one, if_neg stray, if_neg two, if_pos three] at read
    cases read
    refine ⟨by simp, ?_, ?_, ?_, reads, fun n whole low high => ?_⟩
    · dsimp only
      split <;> omega
    · dsimp only
      split <;> split <;> omega
    · dsimp only
      split <;> omega
    -- The bounds of the second byte keep out what is shorter, and the surrogates.
    · simp only [Nat.reduceSub, Nat.reducePow] at whole low high
      have long : 0x800 ≤ n := by split at low <;> omega
      have scalar : n < 0xD800 ∨ 0xDFFF < n := by split at high <;> omega
      have first : UInt8.ofNat (0xE0 + n / 4096) = b := ofNat_eq (by omega)
      rw [encode_three long (by omega) scalar, first]
      rfl
  by_cases four : b.toNat < 0xF5
  · rw [if_neg one, if_neg stray, if_neg two, if_neg three, if_pos four] at read
    cases read
    refine ⟨by simp, ?_, ?_, ?_, reads, fun n whole low high => ?_⟩
    · dsimp only
      split <;> omega
    · dsimp only
      split <;> split <;> omega
    · dsimp only
      split <;> omega
    · simp only [Nat.reduceSub, Nat.reducePow] at whole low high
      have long : 0x10000 ≤ n := by split at low <;> omega
      have scalar : n < 0x110000 := by split at high <;> omega
      have first : UInt8.ofNat (0xF0 + n / 262144) = b := ofNat_eq (by omega)
      rw [encode_four long scalar, first]
      rfl
  · simp [one, stray, two, three, four] at read

namespace Begun

variable {front : Bytes} {p q : Pending} {b : UInt8} {c : Char}

theorem digit {n v byte : Nat} (m : Nat) (low : 0x80 ≤ byte) (high : byte ≤ 0xBF)
    (whole : n / 64 ^ m = v * 64 + (byte - 0x80)) :
    n / 64 ^ (m + 1) = v ∧ 0x80 + n / 64 ^ m % 64 = byte := by
  rw [Nat.pow_succ, ← Nat.div_div_eq_div_mul, whole]
  omega

theorem char_of_feed (begun : Begun front p) (read : p.feed b = .char c) :
    encodeChar c = front ++ [b] := by
  obtain ⟨missing, low, fits, high, reads, encodes⟩ := begun
  unfold Pending.feed at read
  dsimp only at read
  split_ifs at read with within last
  have single : p.missing = 1 := by omega
  rw [single] at encodes
  obtain ⟨value, next⟩ := digit (v := p.value) 0 (Nat.le_trans low within.1)
    (Nat.le_trans within.2 high) (Nat.div_one _)
  rw [← Step.char.inj read,
    encodes _ value (by rw [next]; exact within.1) (by rw [next]; exact within.2)]
  simp only [continuation, next, UInt8.ofNat_toNat]

theorem begun_feed (begun : Begun front p) (read : p.feed b = .more q) :
    Begun (front ++ [b]) q := by
  obtain ⟨missing, low, fits, high, reads, encodes⟩ := begun
  have onward : ∀ rest, decodeFrom none (front ++ [b] ++ rest) = decodeFrom (some q) rest := by
    intro rest
    rw [List.append_assoc, reads]
    simp only [List.singleton_append, decodeFrom, Option.elim_some, read]
  unfold Pending.feed at read
  dsimp only at read
  split_ifs at read with within last
  cases read
  obtain ⟨m, many⟩ : ∃ m, p.missing = m + 2 := ⟨p.missing - 2, by omega⟩
  rw [many] at encodes
  refine ⟨by dsimp; omega, by simp, by simp, by simp, onward, fun n whole _ _ => ?_⟩
  dsimp only at whole ⊢
  rw [many, Nat.add_succ_sub_one] at whole ⊢
  obtain ⟨value, next⟩ := digit (m + 1) (Nat.le_trans low within.1)
    (Nat.le_trans within.2 high) whole
  rw [encodes n value (by simpa [next] using within.1) (by simpa [next] using within.2)]
  rw [continuation, next, UInt8.ofNat_toNat, List.append_assoc]
  rfl

theorem not_opens (begun : Begun front p) (read : p.feed b = .refused) :
    ¬ Opens (front ++ [b]) := by
  rintro ⟨c, rest, whole⟩
  have parsed := decodeFrom_encodeChar_self c
  rw [← whole, List.append_assoc, begun.reads] at parsed
  simp [decodeFrom, read] at parsed

theorem opens (begun : Begun front p) : Opens front := by
  obtain ⟨m, many⟩ : ∃ m, p.missing = m + 1 := ⟨p.missing - 1, by have := begun.missing; omega⟩
  have bounds := And.intro begun.low (And.intro begun.fits begun.high)
  have encodes := begun.encodes (p.value * 64 ^ (m + 1) + (p.low - 0x80) * 64 ^ m)
  have digits : (p.value * 64 ^ (m + 1) + (p.low - 0x80) * 64 ^ m) / 64 ^ m =
      p.value * 64 + (p.low - 0x80) := by
    rw [Nat.pow_succ, Nat.mul_comm (64 ^ m) 64, ← Nat.mul_assoc, ← Nat.add_mul,
      Nat.mul_div_cancel _ (Nat.pow_pos (by decide))]
  obtain ⟨value, next⟩ := digit m begun.low (by omega) digits
  rw [many, Nat.add_sub_cancel, next] at encodes
  exact ⟨_, _, (encodes value (Nat.le_refl _) begun.fits).symm⟩

theorem broken (begun : Begun front p) {rest : Bytes}
    (stuck : ∀ b ∈ rest.head?, p.feed b = .refused) : Broken front rest where
  given := by
    rintro rfl
    have read := begun.reads []
    simp [decodeFrom] at read
  incomplete c whole := by
    have read := begun.reads []
    rw [List.append_nil, whole, decodeFrom_encodeChar_self] at read
    simp [decodeFrom] at read
  short := .inl begun.opens
  longest b next := begun.not_opens (stuck b next)

end Begun

theorem broken_lead {b : UInt8} (read : lead b = .refused) (rest : Bytes) : Broken [b] rest := by
  have stray : ¬ Opens [b] := by
    rintro ⟨c, more, whole⟩
    have parsed := decodeFrom_encodeChar_self c
    rw [← whole] at parsed
    simp [decodeFrom, read] at parsed
  refine ⟨by simp, ?_, .inr rfl, ?_⟩
  · intro c whole
    exact stray ⟨c, whole ▸ List.prefix_rfl⟩
  · intro next _ opens
    exact stray (opens.leading (List.prefix_append [b] [next]))

/-- Where lenient reading stands once it has read these bytes of a character. -/
def Stands (front : Bytes) : Option Pending → Prop
  | none => front = []
  | some p => Begun front p

theorem lossyFrom_refused {p : Pending} {b : UInt8} (read : p.feed b = .refused) (rest : Bytes) :
    lossyFrom (some p) (b :: rest) = replacement :: lossyFrom none (b :: rest) := by
  simp only [lossyFrom, read]
  split <;> rfl

theorem lenient_lossyFrom (bytes front : Bytes) (state : Option Pending)
    (stands : Stands front state) : Lenient (front ++ bytes) (lossyFrom state bytes) := by
  induction bytes generalizing front state with
  | nil =>
    cases state with
    | none =>
      obtain rfl : front = [] := stands
      exact .done
    | some p => exact .broken (stands.broken (by simp)) .done
  | cons b rest ih =>
    have anew : Lenient (b :: rest) (lossyFrom none (b :: rest)) := by
      rw [lossyFrom]
      split
      · rename_i c read
        rw [← List.singleton_append, ← char_of_lead read]
        exact .char c (ih [] none rfl)
      · rename_i p read
        exact ih [b] (some p) (begun_lead read)
      · rename_i read
        exact .broken (broken_lead read rest) (ih [] none rfl)
    cases state with
    | none =>
      obtain rfl : front = [] := stands
      exact anew
    | some p =>
      have begun : Begun front p := stands
      cases read : p.feed b with
      | char c =>
        rw [lossyFrom, read, List.append_cons, ← begun.char_of_feed read]
        exact .char c (ih [] none rfl)
      | more q =>
        rw [lossyFrom, read, List.append_cons]
        exact ih (front ++ [b]) (some q) (begun.begun_feed read)
      | refused =>
        rw [lossyFrom_refused read]
        exact .broken (begun.broken (by simp [read])) anew

theorem lenient_iff {bytes : Bytes} {cs : List Char} :
    Lenient bytes cs ↔ cs = lossyChars bytes := by
  have reads : Lenient bytes (lossyChars bytes) := lenient_lossyFrom bytes [] none rfl
  constructor
  · intro other
    exact other.unique reads
  · rintro rfl
    exact reads

end RequestBus.Utf8
