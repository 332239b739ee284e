import Offside.Program
import Std.Time.Zoned

/-! # The command

Everything that touches the world: files, the two output channels, the clock and the lines of
input. What to do with them is decided elsewhere. -/

namespace Offside.Shell

def fault (e : IO.Error) : ReadFault :=
  match e with
  | .noFileOrDirectory .. => .notFound
  | .inappropriateType _ code _ =>
    let number := min code (0 - code)
    if number = 20 then .notDirectory else if number = 21 then .isDirectory
    else .system e.toString
  | .invalidArgument _ code _ =>
    if min code (0 - code) = 36 then .nameTooLong else .system e.toString
  | e => .system e.toString

def readFile (path : String) : IO (Except ReadFault String) := do
  if let some fault := pathFault? path then return .error fault
  try
    match String.fromUTF8? (← IO.FS.readBinFile path) with
    | some text => return .ok text
    | none => return .error .notText
  catch e => return .error (fault e)

def readFiles (paths : List String) : IO Files := do
  let read ← paths.mapM fun path => do return (path, ← readFile path)
  return fun path => (read.lookup path).getD (.error .notFound)

def write (o : Output) : IO Unit := do
  let stdout ← IO.getStdout
  let stderr ← IO.getStderr
  stdout.putStr o.out
  stdout.flush
  stderr.putStr o.err
  stderr.flush

/-- A directory of the user's own: the one that a variable names in full, or else the usual one. -/
def ownDirectory (variableName usual : String) : IO String := do
  let home := (← IO.getEnv "HOME").getD ""
  let named := (← IO.getEnv variableName).filter isAbsolute
  return named.getD (home ++ usual)

def defaultConfig : IO String := do
  return Config.pathIn (← ownDirectory "XDG_CONFIG_HOME" "/.config")

def makeHistoryDirectory (config : Config) : IO Unit := do
  let data ← ownDirectory "XDG_DATA_HOME" "/.local/share"
  let path := config.historyFile.getD (data ++ "/" ++ Config.defaultHistoryPath)
  try (directoryOf? path).forM fun directory => IO.FS.createDirAll directory
  catch _ => return

def currentYear : IO String := do
  return toString (← Std.Time.PlainDate.now).year.toInt

def filesFor (entry : String) : IO Files :=
  match Interactive.Command.parse entry with
  | some (.load, some path) => readFiles [path]
  | _ => readFiles []

open Interactive in
partial def converse (d : Dialogue) : IO Unit := do
  match InputLine.split (← (← IO.getStdin).getLine) with
  | [] => write Dialogue.farewell
  | line :: _ =>
    match d.hear (← filesFor (line.after d.unfinished)) line with
    | none => return
    | some (said, next) =>
      write said
      converse next

def finish (e : Ending) : IO UInt32 := do
  write e.output
  return e.code.toUInt32

def run (args : List String) : IO UInt32 := do
  match CommandLine.read args with
  | .error stop => finish (Program.stopped stop)
  | .ok l =>
    let defaultConfig ← defaultConfig
    let files ← readFiles (l.config.toList ++ l.files)
    let s : Surroundings := {
      files
      filesAround := fun _ => files
      defaultConfig
      defaultSettings := ← readFile defaultConfig
      input := ""
      year := ← currentYear }
    match l.isConversation, Program.config s l with
    | true, .ok config =>
      makeHistoryDirectory config
      let c := Interactive.Conversation.start config
      write (.ofOut (Interactive.greeting s.year ++ c.prompt))
      converse ⟨c, ""⟩
      return 0
    | _, _ => finish (Program.run s args)

end Offside.Shell

def main (args : List String) : IO UInt32 := Offside.Shell.run args
