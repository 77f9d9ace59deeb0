import RequestBus.Datum

/-! Fields of settings. A field says under which name and in which form a part of some settings
is written, so that one list of fields serves to read a section, to write it and to describe
it. -/
namespace RequestBus.Settings

structure Word where
  name : String
  format : String
  bits : Nat

def Word.port : Word := ⟨"u16", "uint16", 16⟩

def Word.count : Word := ⟨"usize", "uint", 64⟩

def Word.seconds : Word := ⟨"u64", "uint64", 64⟩

inductive Slot (σ : Type) where
  | required (get : σ → String) (set : σ → String → σ)
  | text (get : σ → String) (set : σ → String → σ)
  | nullable (get : σ → Option String) (set : σ → Option String → σ)
  | flag (get : σ → Bool) (set : σ → Bool → σ)
  | number (word : Word) (get : σ → Nat) (set : σ → Nat → σ)

structure Field (σ : Type) where
  name : String
  slot : Slot σ
  about : Option String := none

def Field.isRequired (f : Field σ) : Bool :=
  match f.slot with
  | .required .. => true
  | _ => false

/-- A section: its name as a record, its name in a file, what it is about, and its fields in the
order in which they are written. -/
structure Outline (σ : Type) where
  record : String
  name : String
  about : String
  fields : List (Field σ)
  blank : σ

inductive Wanted where
  | text
  | flag
  | number (word : Word)
  | record (name : String)

def Wanted.describe : Wanted → String
  | .text => "a string"
  | .flag => "a boolean"
  | .number word => word.name
  | .record name => "struct " ++ name

inductive Mismatch where
  | wrongType (found : Datum) (wanted : Wanted)
  | wrongValue (found : Datum) (wanted : Wanted)
  | tooShort (length : Nat) (record : String) (fields : Nat)
  | tooLong (length : Nat)
  | missing (name : String)
  | tooLarge

def Mismatch.message : Mismatch → String
  | .wrongType found wanted =>
    "invalid type: " ++ found.describe ++ ", expected " ++ wanted.describe
  | .wrongValue found wanted =>
    "invalid value: " ++ found.describe ++ ", expected " ++ wanted.describe
  | .tooShort length record fields =>
    "invalid length " ++ Decimal.natText length ++ ", expected struct " ++ record ++ " with " ++
      Decimal.natText fields ++ (if fields = 1 then " element" else " elements")
  | .tooLong length =>
    "invalid length " ++ Decimal.natText length ++ ", expected fewer elements in array"
  | .missing name => "missing field `" ++ name ++ "`"
  | .tooLarge => "integer value was too large"

def isTooLarge (n : Int) : Bool := n < -(Nat.pow 2 127 : Int) || (Nat.pow 2 128 : Int) ≤ n

def unexpected (wanted : Wanted) (found : Datum) : Mismatch :=
  match found with
  | .whole n => if isTooLarge n then .tooLarge else .wrongType found wanted
  | _ => .wrongType found wanted

def readText : Datum → Except Mismatch String
  | .text s => .ok s
  | d => .error (unexpected .text d)

def readFlag : Datum → Except Mismatch Bool
  | .flag b => .ok b
  | d => .error (unexpected .flag d)

/-- A whole number that fits a word. A number that fits no word of 64 bits counts as something
of another type. -/
def readNumber (word : Word) : Datum → Except Mismatch Nat
  | .whole n =>
    if 0 ≤ n ∧ n < (Nat.pow 2 word.bits : Int) then .ok n.toNat
    else if n < -(Nat.pow 2 63 : Int) ∨ (Nat.pow 2 64 : Int) ≤ n then
      .error (unexpected (.number word) (.whole n))
    else .error (.wrongValue (.whole n) (.number word))
  | d => .error (unexpected (.number word) d)

def Field.read (f : Field σ) (draft : σ) (d : Datum) : Except Mismatch σ :=
  match f.slot with
  | .required _ set => (readText d).map (set draft)
  | .text _ set => (readText d).map (set draft)
  | .nullable _ set =>
    match d with
    | .null => .ok (set draft none)
    | d => (readText d).map fun s => set draft (some s)
  | .flag _ set => (readFlag d).map (set draft)
  | .number word _ set => (readNumber word d).map (set draft)

mutual

/-- Data under an unknown name may be anything but a number beyond every word. -/
def ignore : Datum → Except Mismatch Unit
  | .whole n => if isTooLarge n then .error .tooLarge else .ok ()
  | .list items => ignoreItems items
  | .table members => ignoreMembers members
  | _ => .ok ()

def ignoreItems : List Datum → Except Mismatch Unit
  | [] => .ok ()
  | d :: more => do
    ignore d
    ignoreItems more

def ignoreMembers : List (String × Datum) → Except Mismatch Unit
  | [] => .ok ()
  | (_, d) :: more => do
    ignore d
    ignoreMembers more

end

def readMembers (onMember : σ → String → Datum → Option (Except Mismatch σ)) (draft : σ) :
    List (String × Datum) → Except Mismatch σ
  | [] => .ok draft
  | (name, d) :: more =>
    match onMember draft name d with
    | some result => do readMembers onMember (← result) more
    | none => do
      ignore d
      readMembers onMember draft more

def readPositions (reads : List (σ → Datum → Except Mismatch σ)) (draft : σ) :
    List Datum → Except Mismatch σ
  | [] => .ok draft
  | d :: more =>
    match reads with
    | [] => .ok draft
    | read :: reads => do readPositions reads (← read draft d) more

/-- Reads a section. As a table it must have every field that is required; as a list it holds
the fields in order, up to the last that is required at least. `exact` says whether a list with
too many items is refused. -/
def Outline.read (o : Outline σ) (exact : Bool) (d : Datum) : Except Mismatch σ :=
  match d with
  | .table members => do
    let draft ← readMembers
      (fun draft name d => (o.fields.find? (·.name == name)).map fun f => f.read draft d)
      o.blank members
    match o.fields.find? fun f => f.isRequired && !members.any fun m => m.1 == f.name with
    | some f => .error (.missing f.name)
    | none => return draft
  | .list items => do
    let draft ← readPositions (o.fields.map Field.read) o.blank items
    match (o.fields.drop items.length).findIdx? Field.isRequired with
    | some i => .error (.tooShort (items.length + i) o.record o.fields.length)
    | none =>
      if exact ∧ o.fields.length < items.length then .error (.tooLong items.length)
      else return draft
  | d => .error (unexpected (.record o.record) d)

def Field.write (f : Field σ) (s : σ) : Option Datum :=
  match f.slot with
  | .required get _ => some (.text (get s))
  | .text get _ => some (.text (get s))
  | .nullable get _ => (get s).map .text
  | .flag get _ => some (.flag (get s))
  | .number _ get _ => some (.whole (get s))

def Outline.write (o : Outline σ) (s : σ) : List (String × Datum) :=
  o.fields.filterMap fun f => (f.write s).map fun d => (f.name, d)

def Outline.datum (o : Outline σ) (s : σ) : Datum :=
  .table (o.fields.map fun f => (f.name, (f.write s).getD .null))

end RequestBus.Settings
