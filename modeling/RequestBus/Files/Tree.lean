import RequestBus.Text.Split
import RequestBus.Text.Utf8

/-! Directories and files. Access to files is a record of operations, so that what reads and
writes settings does not depend on where they are kept; a tree of directories in memory is one
place to keep them. -/
namespace RequestBus

structure FileAccess (m : Type → Type) where
  isPresent : String → m Bool
  read : String → m (Option Bytes)
  makeDirectories : String → m Bool
  write : String → Bytes → m Bool
  restrict : String → m Unit

inductive FileEntry where
  | directory
  | file (content : Bytes) (mode : Nat)
  deriving DecidableEq, Repr

structure FileTree where
  /-- Where paths without a leading slash begin. -/
  home : List String
  entries : List (List String × FileEntry)
  deriving Repr

namespace FileTree

def newMode : Nat := 0o644

/-- The mode of a file that only its owner reads and writes. -/
def ownerMode : Nat := 0o600

def resolve (t : FileTree) (path : String) : List String :=
  let names := (Text.pieces '/' path.toList).map String.ofList
  let start := if path.toList.head? = some '/' then [] else t.home
  names.foldl (fun sofar name =>
    if name = "" ∨ name = "." then sofar
    else if name = ".." then sofar.dropLast
    else sofar ++ [name]) start

def get? (t : FileTree) (names : List String) : Option FileEntry :=
  if names = [] then some .directory
  else (t.entries.find? fun e => e.1 == names).map (·.2)

def set (t : FileTree) (names : List String) (entry : FileEntry) : FileTree :=
  { t with entries := (names, entry) :: t.entries.filter fun e => e.1 != names }

def makeAlong (t : FileTree) (done : List String) : List String → Option FileTree
  | [] => some t
  | name :: more =>
    let here := done ++ [name]
    match t.get? here with
    | none => (t.set here .directory).makeAlong here more
    | some .directory => t.makeAlong here more
    | some (.file ..) => none

/-- Writes a file. It keeps its mode if it exists; its directory must exist. -/
def write? (t : FileTree) (names : List String) (content : Bytes) : Option FileTree :=
  match t.get? names, t.get? names.dropLast with
  | some .directory, _ => none
  | some (.file _ mode), _ => some (t.set names (.file content mode))
  | none, some .directory => some (t.set names (.file content newMode))
  | none, _ => none

def setMode (t : FileTree) (names : List String) (mode : Nat) : FileTree :=
  match t.get? names with
  | some (.file content _) => t.set names (.file content mode)
  | _ => t

def attempt (change : FileTree → Option FileTree) : StateM FileTree Bool := fun t =>
  match change t with
  | some t => (true, t)
  | none => (false, t)

def access : FileAccess (StateM FileTree) where
  isPresent path := fun t => ((t.get? (t.resolve path)).isSome, t)
  read path := fun t =>
    (match t.get? (t.resolve path) with
      | some (.file content _) => some content
      | _ => none, t)
  makeDirectories path := attempt fun t => t.makeAlong [] (t.resolve path)
  write path content := attempt fun t => t.write? (t.resolve path) content
  restrict path := fun t => ((), t.setMode (t.resolve path) ownerMode)

end FileTree

end RequestBus
