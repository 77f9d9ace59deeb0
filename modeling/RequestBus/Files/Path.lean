namespace RequestBus.Path

/-- The path of a name in a directory. The empty directory is the present one. -/
def join (directory name : String) : String :=
  match directory.toList.getLast? with
  | none => name
  | some '/' => directory ++ name
  | some _ => directory ++ "/" ++ name

def dropIdle : List Char → List Char
  | '/' :: rest => dropIdle rest
  | '.' :: '/' :: rest => dropIdle rest
  | cs => cs

/-- The directory that holds what a path names. The empty path and the root have none. -/
def parent? (path : String) : Option String :=
  let rooted := path.toList.head? = some '/'
  match dropIdle path.toList.reverse with
  | [] => none
  | cs =>
    match dropIdle (cs.dropWhile (· != '/')) with
    | [] => some (if rooted then "/" else "")
    | kept => some (String.ofList kept.reverse)

end RequestBus.Path
