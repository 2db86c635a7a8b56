import BasicScript.CommandLine

/-!
# The program

Reads the files that a command names, performs it and writes what it gives.
-/

namespace BasicScript

/-- Fuel for a run from the command line. -/
def commandFuel : Nat := 0x4000000000000000

/-- The files that a command names. -/
def Command.fileNames : Command → List String
  | .run file _ _ config => config.toList ++ [file]
  | .dump file => [file]

/-- The content of a file, or why it cannot be read. -/
def readText (file : String) : IO (Except String String) := do
  try
    return .ok (← IO.FS.readFile file)
  catch
    | .noFileOrDirectory _ _ _ => return .error "No such file or directory (os error 2)"
    | e => return .error (toString e)

end BasicScript

/-- Runs the command line. -/
def main (args : List String) : IO UInt32 := do
  match BasicScript.Command.parse? args with
  | none =>
    IO.eprintln "usage: basicscript run FILE [--strict] [--debug] [--config FILE] | dump FILE"
    return 2
  | some command =>
    let contents ← command.fileNames.mapM fun file => return (file, ← BasicScript.readText file)
    let files : BasicScript.Files := fun file => (contents.lookup file).getD (.error "not read")
    let t := command.transcript BasicScript.commandFuel files
    IO.print t.stdout
    IO.eprint t.stderr
    return UInt32.ofNat t.exit
