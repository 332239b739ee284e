import Offside.Mode
import Offside.Toml.Reading

/-! # Configuration

Settings come from a file in which each may be left out and others may be given. A setting of the
wrong kind spoils the file. -/

namespace Offside

structure Config where
  historyFile : Option String
  maxHistorySize : Nat
  showPositions : Bool
  mode : Mode
  color : Bool
  deriving DecidableEq

namespace Config

def defaults : Config := ⟨none, 1000, false, .tokens, true⟩

/-- The value of a setting, or `whenAbsent`; nothing if the value is of the wrong kind. -/
def setting? (d : Toml.Document) (key : String) (whenAbsent : α) (read : Toml.Node → Option α) :
    Option α :=
  match d.find? [key] with
  | none => some whenAbsent
  | some v => read v

def text? : Toml.Node → Option String
  | .string s => some s
  | _ => none

def size? : Toml.Node → Option Nat
  | .integer n => if 0 ≤ n then some n.toNat else none
  | _ => none

def boolean? : Toml.Node → Option Bool
  | .boolean b => some b
  | _ => none

/-- A mode is given by its name, or by a table that has its name for the only key and nothing under
it. -/
def mode? (d : Toml.Document) : Toml.Node → Option Mode
  | .string name => Mode.ofName? name
  | .table _ =>
    match d.keys ["mode"] with
    | [name] => if d.isVoid ["mode", name] then Mode.ofName? name else none
    | _ => none
  | _ => none

def ofDocument? (d : Toml.Document) : Option Config := do
  let historyFile ← setting? d "history_file" none fun v => (text? v).map some
  let maxHistorySize ← setting? d "max_history_size" defaults.maxHistorySize size?
  let showPositions ← setting? d "show_positions" defaults.showPositions boolean?
  let mode ← setting? d "mode" defaults.mode (mode? d)
  let color ← setting? d "color" defaults.color boolean?
  return { historyFile, maxHistorySize, showPositions, mode, color }

def ofToml? (text : String) : Option Config := (Toml.parse? text).bind ofDocument?

def invalidMessage : String := "invalid configuration"

def pathIn (directory : String) : String := directory ++ "/misti/config.toml"

def defaultHistoryPath : String := "misti/.misti_history"

def historyPath (c : Config) : String := c.historyFile.getD defaultHistoryPath

end Config

end Offside
