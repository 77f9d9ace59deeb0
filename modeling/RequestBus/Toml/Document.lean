import RequestBus.Toml.Syntax

/-! The data that a TOML document stands for. Every name may be given once; a table that came
about on the way to another may still be opened by a header of its own, and dotted keys may add
only to tables that dotted keys made. -/
namespace RequestBus.Toml

inductive Origin where
  /-- On the way of a header to a table inside it. -/
  | implied
  | dotted
  | opened
  /-- Between braces; nothing can be added to it. -/
  | inline
  deriving DecidableEq, Repr

inductive Node where
  | scalar (d : Datum)
  | list (items : List Node)
  | table (origin : Origin) (members : List (String × Node))
  /-- The tables of a list that headers in double brackets make, the last one first. -/
  | rows (tables : List (List (String × Node)))

abbrev Members := List (String × Node)

def Members.get? (ms : Members) (name : String) : Option Node :=
  (ms.find? fun m => m.1 == name).map (·.2)

def Members.set (ms : Members) (name : String) (node : Node) : Members :=
  (name, node) :: ms.filter fun m => m.1 != name

/-- Adds what a key is given. `added` says whether the members belong to a table that the
present key leads through. -/
def Members.add (node : Node) : Bool → Origin → List String → Members → Option Members
  | _, _, [], _ => none
  | through, origin, [name], ms =>
    if through == (origin == .dotted) && (ms.get? name).isNone then some (ms.set name node)
    else none
  | _, _, name :: next :: more, ms =>
    match ms.get? name with
    | none => do
      let inner ← Members.add node true .dotted (next :: more) []
      return ms.set name (.table .dotted inner)
    | some (.table origin inner) => do
      if origin = .opened ∨ origin = .inline then none
      let inner ← Members.add node true origin (next :: more) inner
      return ms.set name (.table origin inner)
    | some (.rows (last :: others)) => do
      let last ← Members.add node true .opened (next :: more) last
      return ms.set name (.rows (last :: others))
    | some _ => none

def Members.addAll (ms : Members) : List (List String × Node) → Option Members
  | [] => some ms
  | (key, node) :: more => do (← Members.add node false .opened key ms).addAll more

/-- Changes what the last name of a header's key stands for. -/
def Members.alter (change : Option Node → Option Node) :
    List String → Members → Option Members
  | [], _ => none
  | [name], ms => (change (ms.get? name)).map (ms.set name)
  | name :: next :: more, ms =>
    match ms.get? name with
    | none => do
      let inner ← Members.alter change (next :: more) []
      return ms.set name (.table .implied inner)
    | some (.table origin inner) => do
      if origin = .inline then none
      let inner ← Members.alter change (next :: more) inner
      return ms.set name (.table origin inner)
    | some (.rows (last :: others)) => do
      let last ← Members.alter change (next :: more) last
      return ms.set name (.rows (last :: others))
    | some _ => none

mutual

def Term.node? : Term → Option Node
  | .scalar d => some (.scalar d)
  | .list items => (itemNodes? items).map .list
  | .inline entries => do
    let nodes ← entryNodes? entries
    return .table .inline (← Members.addAll [] nodes)

def itemNodes? : List Term → Option (List Node)
  | [] => some []
  | t :: more => do return (← t.node?) :: (← itemNodes? more)

def entryNodes? : List (List String × Term) → Option (List (List String × Node))
  | [] => some []
  | (key, t) :: more => do return (key, ← t.node?) :: (← entryNodes? more)

end

/-- A table that a document opens: its header, if it is not the outermost one, and its
entries. -/
structure Section where
  key : List String
  isRow : Bool
  entries : List (List String × Term)

def sections : List Line → List (List String × Term) × List Section
  | [] => ([], [])
  | line :: more =>
    let (entries, after) := sections more
    match line with
    | .entry key value => ((key, value) :: entries, after)
    | .header key => ([], ⟨key, false, entries⟩ :: after)
    | .rowHeader key => ([], ⟨key, true, entries⟩ :: after)

def Members.open (ms : Members) (s : Section) : Option Members := do
  let nodes ← entryNodes? s.entries
  let change : Option Node → Option Node := fun present =>
    if s.isRow then
      match present with
      | none => (Members.addAll [] nodes).map fun t => .rows [t]
      | some (.rows tables) => (Members.addAll [] nodes).map fun t => .rows (t :: tables)
      | some _ => none
    else
      match present with
      | none => (Members.addAll [] nodes).map (.table .opened)
      | some (.table .implied inner) => (Members.addAll inner nodes).map (.table .opened)
      | some _ => none
  Members.alter change s.key ms

def Members.openAll (ms : Members) : List Section → Option Members
  | [] => some ms
  | s :: more => do (← ms.open s).openAll more

mutual

def Node.datum : Node → Datum
  | .scalar d => d
  | .list items => .list (nodeItems items)
  | .table _ members => .table (Dictionary.ofList (nodeMembers members)).entries
  | .rows tables => .list (nodeRows tables).reverse

def nodeItems : List Node → List Datum
  | [] => []
  | n :: more => n.datum :: nodeItems more

def nodeMembers : List (String × Node) → List (String × Datum)
  | [] => []
  | (name, n) :: more => (name, n.datum) :: nodeMembers more

def nodeRows : List (List (String × Node)) → List Datum
  | [] => []
  | t :: more => .table (Dictionary.ofList (nodeMembers t)).entries :: nodeRows more

end

def read? (document : String) : Option Datum := do
  let lines ← lines? document.toList
  let (entries, tables) := sections lines
  let root ← Members.addAll [] (← entryNodes? entries)
  return (Node.table .opened (← root.openAll tables)).datum

/-- The text of a scalar. Containers have none here. -/
def writeScalar : Datum → Option (List Char)
  | .flag true => some ['t', 'r', 'u', 'e']
  | .flag false => some ['f', 'a', 'l', 's', 'e']
  | .whole n => some (Decimal.intText n).toList
  | .text s => some (writeText s.toList)
  | _ => none

def writeEntry (name : String) (d : Datum) : List Char :=
  match writeScalar d with
  | some value => name.toList ++ [' ', '=', ' '] ++ value ++ ['\n']
  | none => []

def writeTable (name : String) (entries : List (String × Datum)) : List Char :=
  '[' :: name.toList ++ [']', '\n'] ++ entries.flatMap fun e => writeEntry e.1 e.2

def writeTables : List (String × List (String × Datum)) → List Char
  | [] => []
  | [(name, entries)] => writeTable name entries
  | (name, entries) :: more => writeTable name entries ++ '\n' :: writeTables more

end RequestBus.Toml
