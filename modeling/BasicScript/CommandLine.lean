import BasicScript.Host.Console
import BasicScript.Interpreter
import BasicScript.Syntax.Decoder
import BasicScript.Syntax.Encoder

/-!
# The command line

`run FILE` runs a program, `dump FILE` writes its tree again.  What a command does depends only on
the files that it reads, so it is a function of them: `Command.perform` takes the files as they
were found and gives what is written and the exit code.
-/

namespace BasicScript

/-- A command with its files. -/
inductive Command where
  | run (file : String) (strict debug : Bool) (config : Option String)
  | dump (file : String)

/-- Why a command could not start. -/
inductive LoadError where
  | unreadable (message : String)
  | badProgram
  | badConfig
  | duplicate (name : String)

/-- The wording of an error. -/
def LoadError.message : LoadError → String
  | unreadable message => "IO error: " ++ message
  | badProgram => "Parse error: not a program"
  | badConfig => "Config error: not a configuration"
  | duplicate name => "Duplicate native function registration: " ++ name

/-- What a command writes, and its exit code. -/
structure Transcript where
  stdout : String := ""
  stderr : String := ""
  exit : Nat := 0

/-- How the content of a file is found: its text, or why it cannot be read. -/
abbrev Files := String → Except String String

namespace Command

/-- The text of a file. -/
def read (files : Files) (file : String) : Except LoadError String :=
  (files file).mapError fun reason => .unreadable (file ++ ": " ++ reason)

/-- The program in a file. -/
def readProgram (files : Files) (file : String) : Except LoadError Program := do
  match Program.parse? (← read files file) with
  | some p => return p
  | none => .error .badProgram

/-- The configuration in a file, or the default one. -/
def readConfig (files : Files) : Option String → Except LoadError Config
  | none => return {}
  | some file => do
    match Config.parse? (← read files file) with
    | some c => return c
    | none => .error .badConfig

/-- The host of the command line. -/
def consoleHost : Except LoadError Host :=
  match Console.register [] with
  | (natives, .ok ()) => .ok { natives }
  | (_, .error e) => .error (.duplicate e.name)

/-- Lines with their ends. -/
def unlines (ls : List String) : String :=
  ls.foldl (fun text l => text ++ l ++ "\n") ""

/-- Runs a command.  The configuration is read before the program, and the flags only switch modes
on. -/
def perform (fuel : Nat) (files : Files) : Command → Except LoadError Transcript
  | run file strict debug config => do
    let config ← readConfig files config
    let config := { config with
      strict := config.strict || strict, debug := config.debug || debug }
    let program ← readProgram files file
    let host ← consoleHost
    let (verdict, m) := (Machine.start config).interpret { host, config } fuel program
    return {
      stdout := unlines m.journal.printed
      stderr := unlines m.journal.diagnosed
      exit := match verdict with
        | .done code => code
        | _ => 1 }
  | dump file => do
    let program ← readProgram files file
    return { stdout := program.dump ++ "\n" }

/-- Runs a command, with an error written where it could not start. -/
def transcript (fuel : Nat) (files : Files) (c : Command) : Transcript :=
  match c.perform fuel files with
  | .ok t => t
  | .error e => { stderr := "Error: " ++ e.message ++ "\n", exit := 1 }

/-- What the words behind `run` ask for. -/
structure RunWords where
  files : List String := []
  strict : Bool := false
  debug : Bool := false
  config : Option String := none

/-- Sorts the words behind `run` into flags and files.  Of two `--config` the last one counts. -/
def runWords : List String → RunWords
  | [] => {}
  | "--strict" :: rest => { runWords rest with strict := true }
  | "--debug" :: rest | "-d" :: rest => { runWords rest with debug := true }
  | "--config" :: file :: rest =>
    let words := runWords rest
    { words with config := words.config.or (some file) }
  | word :: rest =>
    let words := runWords rest
    { words with files := word :: words.files }

/-- The command that the words of a command line give. -/
def parse? : List String → Option Command
  | "run" :: rest =>
    let words := runWords rest
    match words.files with
    | [file] => some (.run file words.strict words.debug words.config)
    | _ => none
  | ["dump", file] => some (.dump file)
  | _ => none

end Command

end BasicScript
