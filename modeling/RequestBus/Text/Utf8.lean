/-! UTF-8. Bytes are read one at a time: between two characters a lead byte opens a character,
inside a character each continuation byte has bounds of its own, so overlong forms, surrogates
and values past the last code point are refused at the byte that makes them impossible.
Strict reading gives up there; lenient reading writes one replacement character for the bytes
of the broken character and goes on with the refused byte. -/
namespace RequestBus

abbrev Bytes := List UInt8

namespace Utf8

def encodeChar (c : Char) : Bytes :=
  let n := c.toNat
  if n < 0x80 then [UInt8.ofNat n]
  else if n < 0x800 then [UInt8.ofNat (0xC0 + n / 64), UInt8.ofNat (0x80 + n % 64)]
  else if n < 0x10000 then
    [UInt8.ofNat (0xE0 + n / 4096), UInt8.ofNat (0x80 + n / 64 % 64), UInt8.ofNat (0x80 + n % 64)]
  else
    [UInt8.ofNat (0xF0 + n / 262144), UInt8.ofNat (0x80 + n / 4096 % 64),
      UInt8.ofNat (0x80 + n / 64 % 64), UInt8.ofNat (0x80 + n % 64)]

def encodeChars (cs : List Char) : Bytes := cs.flatMap encodeChar

def encode (s : String) : Bytes := encodeChars s.toList

structure Pending where
  /-- Continuation bytes still to come, the next one included. -/
  missing : Nat
  low : Nat
  high : Nat
  value : Nat
  deriving DecidableEq, Repr

inductive Step where
  | char (c : Char)
  | more (p : Pending)
  | refused
  deriving DecidableEq, Repr

def lead (b : UInt8) : Step :=
  let n := b.toNat
  if n < 0x80 then .char (Char.ofNat n)
  else if n < 0xC2 then .refused
  else if n < 0xE0 then .more ⟨1, 0x80, 0xBF, n - 0xC0⟩
  else if n < 0xF0 then
    .more ⟨2, if n = 0xE0 then 0xA0 else 0x80, if n = 0xED then 0x9F else 0xBF, n - 0xE0⟩
  else if n < 0xF5 then
    .more ⟨3, if n = 0xF0 then 0x90 else 0x80, if n = 0xF4 then 0x8F else 0xBF, n - 0xF0⟩
  else .refused

def Pending.feed (p : Pending) (b : UInt8) : Step :=
  let n := b.toNat
  if p.low ≤ n ∧ n ≤ p.high then
    let value := p.value * 64 + (n - 0x80)
    if p.missing ≤ 1 then .char (Char.ofNat value)
    else .more ⟨p.missing - 1, 0x80, 0xBF, value⟩
  else .refused

/-- Strict reading, from between characters (`none`) or inside one. -/
def decodeFrom : Option Pending → Bytes → Option (List Char)
  | none, [] => some []
  | some _, [] => none
  | state, b :: rest =>
    match (state.elim (lead b) fun p => p.feed b) with
    | .char c => (decodeFrom none rest).map (c :: ·)
    | .more p => decodeFrom (some p) rest
    | .refused => none

def decodeChars? (bytes : Bytes) : Option (List Char) := decodeFrom none bytes

def decode? (bytes : Bytes) : Option String := (decodeChars? bytes).map String.ofList

/-- The bytes from the first broken character on; `start` is where the present one began. -/
def brokenFrom (start : Bytes) : Option Pending → Bytes → Bytes
  | none, [] => []
  | some _, [] => start
  | none, b :: rest =>
    match lead b with
    | .char _ => brokenFrom rest none rest
    | .more p => brokenFrom (b :: rest) (some p) rest
    | .refused => b :: rest
  | some p, b :: rest =>
    match p.feed b with
    | .char _ => brokenFrom rest none rest
    | .more q => brokenFrom start (some q) rest
    | .refused => start

def broken (bytes : Bytes) : Bytes := brokenFrom bytes none bytes

def replacement : Char := Char.ofNat 0xFFFD

/-- Lenient reading, from between characters or inside one. -/
def lossyFrom : Option Pending → Bytes → List Char
  | none, [] => []
  | some _, [] => [replacement]
  | none, b :: rest =>
    match lead b with
    | .char c => c :: lossyFrom none rest
    | .more p => lossyFrom (some p) rest
    | .refused => replacement :: lossyFrom none rest
  | some p, b :: rest =>
    match p.feed b with
    | .char c => c :: lossyFrom none rest
    | .more q => lossyFrom (some q) rest
    | .refused =>
      match lead b with
      | .char c => replacement :: c :: lossyFrom none rest
      | .more q => replacement :: lossyFrom (some q) rest
      | .refused => replacement :: replacement :: lossyFrom none rest

def lossyChars (bytes : Bytes) : List Char := lossyFrom none bytes

def lossy (bytes : Bytes) : String := String.ofList (lossyChars bytes)

theorem lossyFrom_of_decodeFrom (bytes : Bytes) (state : Option Pending) (cs : List Char)
    (h : decodeFrom state bytes = some cs) : lossyFrom state bytes = cs := by
  induction bytes generalizing state cs with
  | nil =>
    cases state with
    | none => simpa [decodeFrom, lossyFrom] using h
    | some p => simp [decodeFrom] at h
  | cons b rest ih =>
    cases state with
    | none =>
      simp only [decodeFrom, Option.elim_none] at h
      split at h
      · rename_i c hc
        obtain ⟨tail, ht, rfl⟩ := Option.map_eq_some_iff.mp h
        simp [lossyFrom, hc, ih _ _ ht]
      · rename_i p hp
        simp [lossyFrom, hp, ih _ _ h]
      · contradiction
    | some p =>
      simp only [decodeFrom, Option.elim_some] at h
      split at h
      · rename_i c hc
        obtain ⟨tail, ht, rfl⟩ := Option.map_eq_some_iff.mp h
        simp [lossyFrom, hc, ih _ _ ht]
      · rename_i q hq
        simp [lossyFrom, hq, ih _ _ h]
      · contradiction

theorem lossyChars_of_decodeChars? (bytes : Bytes) (cs : List Char)
    (h : decodeChars? bytes = some cs) : lossyChars bytes = cs :=
  lossyFrom_of_decodeFrom bytes none cs h

end Utf8

end RequestBus
