import RequestBus.Proofs.Json.Text

/-! The grammar of JSON. A tree is a value as it is written: every blank, every spelling of a
character and every sign of a number is in it, so each text of a value is the text of a tree. What
the tree stands for is another thing: text may be no Unicode, and a number too large. -/
namespace RequestBus.Json

inductive Blank where
  | space
  | newline
  | tab
  | carriageReturn
  deriving DecidableEq, Repr

def Blank.byte : Blank → UInt8
  | .space => 0x20
  | .newline => 0x0A
  | .tab => 0x09
  | .carriageReturn => 0x0D

abbrev Blanks := List Blank

def Blanks.bytes (blanks : Blanks) : Bytes := blanks.map Blank.byte

structure HexDigit where
  byte : UInt8
  digit : Nat
  reads : hexDigit? byte = some digit

/-- What quoted text is made of. -/
inductive Piece where
  | plain (b : UInt8) (plain : Plain b)
  | short (letter byte : UInt8) (stands : shortEscape? letter = some byte)
  | hex (a b c d : HexDigit)

def Piece.bytes : Piece → Bytes
  | .plain b _ => [b]
  | .short letter _ _ => [backslashByte, letter]
  | .hex a b c d => [backslashByte, 0x75, a.byte, b.byte, c.byte, d.byte]

def codeUnit (a b c d : HexDigit) : Nat :=
  ((a.digit * 16 + b.digit) * 16 + c.digit) * 16 + d.digit

def paired (leading trailing : Nat) : Char :=
  Char.ofNat ((leading - 0xD800) * 0x400 + (trailing - 0xDC00) + 0x10000)

/-- The bytes that pieces stand for, after a leading surrogate or none. Surrogates stand for
something only in pairs. -/
def unescape : Option Nat → List Piece → Option Bytes
  | none, [] => some []
  | none, .plain b _ :: more => (unescape none more).map (b :: ·)
  | none, .short _ b _ :: more => (unescape none more).map (b :: ·)
  | none, .hex a b c d :: more =>
    let unit := codeUnit a b c d
    if isTrailingSurrogate unit then none
    else if isLeadingSurrogate unit then unescape (some unit) more
    else (unescape none more).map (Utf8.encodeChar (Char.ofNat unit) ++ ·)
  | some leading, .hex a b c d :: more =>
    let unit := codeUnit a b c d
    if isTrailingSurrogate unit then
      (unescape none more).map (Utf8.encodeChar (paired leading unit) ++ ·)
    else none
  | some _, _ => none

def text? (pieces : List Piece) : Option String :=
  (unescape none pieces).bind Utf8.decode?

def pieceBytes (pieces : List Piece) : Bytes := pieces.flatMap Piece.bytes

def quotedBytes (pieces : List Piece) : Bytes :=
  quoteByte :: (pieceBytes pieces ++ [quoteByte])

instance (b : UInt8) : Decidable (Plain b) := inferInstanceAs (Decidable (_ ∧ _ ∧ _))

def plainly (s : Bytes) : List Piece :=
  s.filterMap fun b => if plain : Plain b then some (.plain b plain) else none

structure Digits where
  head : UInt8
  tail : Bytes
  digit : isDigit head = true
  more : ∀ b ∈ tail, isDigit b = true

def Digits.bytes (ds : Digits) : Bytes := ds.head :: ds.tail

inductive Sign where
  | none
  | plus
  | minus
  deriving DecidableEq, Repr

def Sign.bytes : Sign → Bytes
  | .none => []
  | .plus => [0x2B]
  | .minus => [0x2D]

structure Exponent where
  capital : Bool
  sign : Sign
  digits : Digits

def Exponent.bytes (e : Exponent) : Bytes :=
  (if e.capital then 0x45 else 0x65) :: (e.sign.bytes ++ e.digits.bytes)

structure Literal where
  negative : Bool
  whole : Digits
  leading : whole.head = 0x30 → whole.tail = []
  fraction : Option Digits
  exponent : Option Exponent

namespace Literal

def fractionBytes (l : Literal) : Bytes := (l.fraction.map fun ds => 0x2E :: ds.bytes).getD []

def exponentBytes (l : Literal) : Bytes := (l.exponent.map Exponent.bytes).getD []

def unsignedBytes (l : Literal) : Bytes := l.whole.bytes ++ (l.fractionBytes ++ l.exponentBytes)

def bytes (l : Literal) : Bytes :=
  if l.negative then 0x2D :: l.unsignedBytes else l.unsignedBytes

def numeral (l : Literal) : Numeral :=
  { negative := l.negative
    whole := l.whole.bytes
    fraction := (l.fraction.map Digits.bytes).getD []
    exponent := l.exponent.map fun e => (e.sign == .minus, e.digits.bytes) }

def value? (l : Literal) : Option Number := l.numeral.value.toOption

end Literal

structure Padding where
  before : Blanks
  after : Blanks

def Padding.around (pad : Padding) (value : Bytes) : Bytes :=
  pad.before.bytes ++ (value ++ pad.after.bytes)

structure Label where
  before : Blanks
  name : List Piece
  behind : Blanks
  ahead : Blanks
  after : Blanks

def Label.tight (name : List Piece) : Label := ⟨[], name, [], [], []⟩

def Label.colon (label : Label) (value : Bytes) : Bytes :=
  label.behind.bytes ++ colonByte :: (label.ahead.bytes ++ value)

def Label.around (label : Label) (value : Bytes) : Bytes :=
  label.before.bytes ++ (quotedBytes label.name ++ label.colon (value ++ label.after.bytes))

def separated : Bool → List Bytes → Bytes
  | _, [] => []
  | true, one :: more => one ++ separated false more
  | false, one :: more => commaByte :: (one ++ separated false more)

/-- A value as it is written. The inner blanks of a container are those behind its opening
byte. -/
inductive Tree where
  | null
  | flag (b : Bool)
  | number (l : Literal)
  | text (pieces : List Piece)
  | list (inner : Blanks) (items : List (Padding × Tree))
  | object (inner : Blanks) (entries : List (Label × Tree))

namespace Tree

mutual

def bytes : Tree → Bytes
  | .null => 0x6E :: nullTail
  | .flag true => 0x74 :: trueTail
  | .flag false => 0x66 :: falseTail
  | .number l => l.bytes
  | .text pieces => quotedBytes pieces
  | .list inner items =>
    openList :: (inner.bytes ++ (separated true (itemBytes items) ++ [Frame.close .list]))
  | .object inner entries =>
    openObject :: (inner.bytes ++ (separated true (entryBytes entries) ++ [Frame.close .object]))

def itemBytes : List (Padding × Tree) → List Bytes
  | [] => []
  | (pad, t) :: more => pad.around t.bytes :: itemBytes more

def entryBytes : List (Label × Tree) → List Bytes
  | [] => []
  | (label, t) :: more => label.around t.bytes :: entryBytes more

end

mutual

/-- The value that a tree stands for, if every text in it is Unicode and every number finite. Of
members with one name the last one counts. -/
def value? : Tree → Option Value
  | .null => some .null
  | .flag b => some (.flag b)
  | .number l => l.value?.map .number
  | .text pieces => (text? pieces).map .text
  | .list _ items => (itemValues items).map .list
  | .object _ entries => (entryValues entries).map Value.ofMembers

def itemValues : List (Padding × Tree) → Option (List Value)
  | [] => some []
  | (_, t) :: more => t.value?.bind fun v => (itemValues more).map (v :: ·)

def entryValues : List (Label × Tree) → Option (List (String × Value))
  | [] => some []
  | (label, t) :: more => (text? label.name).bind fun name => t.value?.bind fun v =>
    (entryValues more).map ((name, v) :: ·)

end

mutual

def depth : Tree → Nat
  | .list _ items => itemDepth items + 1
  | .object _ entries => entryDepth entries + 1
  | _ => 0

def itemDepth : List (Padding × Tree) → Nat
  | [] => 0
  | (_, t) :: more => max t.depth (itemDepth more)

def entryDepth : List (Label × Tree) → Nat
  | [] => 0
  | (_, t) :: more => max t.depth (entryDepth more)

end

@[elab_as_elim]
theorem induction {P : Tree → Prop} (null : P .null) (flag : ∀ b, P (.flag b))
    (number : ∀ l, P (.number l)) (text : ∀ pieces, P (.text pieces))
    (list : ∀ inner items, (∀ i ∈ items, P i.2) → P (.list inner items))
    (object : ∀ inner entries, (∀ e ∈ entries, P e.2) → P (.object inner entries)) (t : Tree) :
    P t := by
  have inside : ∀ {α : Type} [SizeOf α] {l : List (α × Tree)} {e : α × Tree}, e ∈ l →
      sizeOf e.2 < sizeOf l := by
    intro α _ l e member
    have smaller := List.sizeOf_lt_of_mem member
    obtain ⟨a, t⟩ := e
    simp only [Prod.mk.sizeOf_spec] at smaller ⊢
    omega
  match t with
  | .null => exact null
  | .flag b => exact flag b
  | .number l => exact number l
  | .text pieces => exact text pieces
  | .list inner items =>
    exact list inner items fun i member =>
      have := inside member
      Tree.induction null flag number text list object i.2
  | .object inner entries =>
    exact object inner entries fun e member =>
      have := inside member
      Tree.induction null flag number text list object e.2
termination_by sizeOf t

theorem itemBytes_eq (items : List (Padding × Tree)) :
    itemBytes items = items.map fun i => i.1.around i.2.bytes := by
  induction items with
  | nil => rfl
  | cons i items ih => rw [itemBytes, ih, List.map_cons]

theorem entryBytes_eq (entries : List (Label × Tree)) :
    entryBytes entries = entries.map fun e => e.1.around e.2.bytes := by
  induction entries with
  | nil => rfl
  | cons e entries ih => rw [entryBytes, ih, List.map_cons]

theorem depth_le_of_item {items : List (Padding × Tree)} {depth : Nat}
    (h : itemDepth items ≤ depth) : ∀ i ∈ items, i.2.depth ≤ depth := by
  induction items with
  | nil => exact fun i member => nomatch member
  | cons i items ih =>
    rw [itemDepth] at h
    intro j member
    rcases List.mem_cons.mp member with rfl | member
    · exact Nat.le_trans (Nat.le_max_left _ _) h
    · exact ih (Nat.le_trans (Nat.le_max_right _ _) h) j member

theorem depth_le_of_entry {entries : List (Label × Tree)} {depth : Nat}
    (h : entryDepth entries ≤ depth) : ∀ e ∈ entries, e.2.depth ≤ depth := by
  induction entries with
  | nil => exact fun e member => nomatch member
  | cons e entries ih =>
    rw [entryDepth] at h
    intro f member
    rcases List.mem_cons.mp member with rfl | member
    · exact Nat.le_trans (Nat.le_max_left _ _) h
    · exact ih (Nat.le_trans (Nat.le_max_right _ _) h) f member

end Tree

end RequestBus.Json
