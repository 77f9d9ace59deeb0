import RequestBus.CommandLine.Execution

namespace RequestBus

def works (act : IO Unit) : IO Bool := do
  try
    act
    return true
  catch _ => return false

def systemFiles : FileAccess IO where
  isPresent path := works do discard <| IO.FS.Handle.mk path .read
  read path := do
    try
      return some (← IO.FS.readBinFile path).toList
    catch _ => return none
  makeDirectories path := works (if path = "" then pure () else IO.FS.createDirAll path)
  write path content := works (IO.FS.writeBinFile path ⟨content.toArray⟩)
  restrict path := discard <| works (IO.setAccessRights path { user := { read := true, write := true } })

def readEnvironment : IO Environment := do
  let names := [Settings.passwordVariable, Settings.tokenVariable, Settings.poolSizeVariable,
    Settings.directoryVariable, "HOME"]
  let values ← names.mapM fun name => return (name, ← IO.getEnv name)
  return fun name => (values.find? fun e => e.1 == name).bind (·.2)

end RequestBus

open RequestBus in
def main (args : List String) : IO UInt32 := do
  match ← CommandLine.execute systemFiles (← readEnvironment) args with
  | .ended exit shown complaint =>
    (← IO.getStdout).putStr shown
    (← IO.getStderr).putStr complaint
    return UInt32.ofNat exit
  | .serve _ =>
    IO.eprintln "Error: this build has no transport to a broker"
    return 1
