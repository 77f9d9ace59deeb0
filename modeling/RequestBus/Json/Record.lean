import RequestBus.Json.Reader

/-! Records: objects with known members. A record may be written as an object, where members
come in any order and unknown ones are skipped, or as a list of its members' values in their
own order, where members at the end may be left off if they are optional. -/
namespace RequestBus.Json

/-- A member of a record, read into a draft of the record. -/
structure Member (σ : Type) where
  name : String
  alias? : Option String := none
  /-- Whether a record without the member is complete. -/
  optional : Bool := false
  filled : σ → Bool
  /-- Reads the member's value, given how many containers may still be opened. -/
  read : Nat → σ → Bytes → Except Fault (Front σ)

structure Record (σ : Type) where
  name : String
  members : List (Member σ)

def Member.answersTo (m : Member σ) (name : String) : Bool :=
  m.name == name || m.alias? == some name

def Member.ofField (name : String) (get : σ → Option τ) (set : σ → τ → σ)
    (read : Nat → Bytes → Except Fault (Front τ)) : Member σ :=
  { name
    filled := fun draft => (get draft).isSome
    read := fun depth draft s => do
      let (v, s) ← read depth s
      return (set draft v, s) }

def Member.inside (m : Member τ) (get : σ → τ) (set : σ → τ → σ) : Member σ :=
  { name := m.name
    alias? := m.alias?
    optional := m.optional
    filled := fun draft => m.filled (get draft)
    read := fun depth draft s => do
      let (v, s) ← m.read depth (get draft) s
      return (set draft v, s) }

/-- A repeated name is noticed behind the blanks that follow it, and behind the brace if the
object ends there. -/
def repeatedAt (name : String) (s : Bytes) : Fault :=
  match skipBlanks s with
  | b :: rest =>
    .before (.repeatedMember name) (if b = Frame.close .object then rest else b :: rest)
  | [] => .before (.repeatedMember name) []

def Record.readMember (r : Record σ) (depth : Nat) (draft : σ) (name : String) (s : Bytes) :
    Except Fault (Front σ) :=
  match r.members.find? (·.answersTo name) with
  | some m =>
    if m.filled draft then .error (repeatedAt m.name s)
    else do m.read depth draft (← readColon s)
  | none => do return (draft, ← skipValue (← readColon s))

def Record.missing? (r : Record σ) (draft : σ) : Option (Member σ) :=
  r.members.find? fun m => !m.optional && !m.filled draft

def Record.readObject (r : Record σ) (depth : Nat) (draft : σ) (s : Bytes) :
    Except Fault (Front σ) := do
  let (draft, s) ← foldMembers (r.readMember depth) (s.length + 1) true draft s
  match r.missing? draft with
  | some m => .error (.before (.missingMember m.name) s)
  | none => return (draft, s)

def readListEnd (s : Bytes) : Except Fault Bytes :=
  match skipBlanks s with
  | [] => .error (.before .endInList [])
  | b :: rest =>
    if b = Frame.close .list then .ok rest
    else if b = commaByte then
      match skipBlanks rest with
      | [] => .error (.before .trailingCharacters [])
      | c :: after =>
        .error (.past (if c = Frame.close .list then .trailingComma else .trailingCharacters)
          (c :: after))
    else .error (.past .trailingCharacters (b :: rest))

/-- Reads the remaining members of a record written as a list; `count` have been read. -/
def Record.readItems (r : Record σ) (depth : Nat) :
    List (Member σ) → Nat → σ → Bytes → Except Fault (Front σ)
  | [], _, draft, s => do return (draft, ← readListEnd s)
  | m :: more, count, draft, s => do
    match ← nextItem (count == 0) s with
    | (true, s) => do
      let (draft, s) ← m.read depth draft s
      r.readItems depth more (count + 1) draft s
    | (false, s) =>
      match (m :: more).findIdx? (fun m => !m.optional) with
      | none => return (draft, s)
      | some i =>
        .error (.before (.wrongLength (count + i) r.name r.members.length) s)

def Record.read (r : Record σ) (blank : σ) (depth : Nat) (s : Bytes) : Except Fault (Front σ) :=
  match skipBlanks s with
  | [] => .error (.before .endInValue [])
  | b :: rest =>
    if b = openList ∨ b = openObject then
      match depth with
      | 0 => .error (.past .tooDeep (b :: rest))
      | depth + 1 =>
        if b = openList then r.readItems depth r.members 0 blank rest
        else r.readObject depth blank rest
    else .error (unexpected (.record r.name) (b :: rest))

end RequestBus.Json
