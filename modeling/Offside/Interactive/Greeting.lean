import Offside.Interactive.Command
import Offside.Terminal

/-! # Fixed texts of a conversation

The greeting, the help and the version. They are in color whatever the settings are. -/

namespace Offside.Interactive

open Terminal (Color bold dimmed)

def programName : String := "Misti"

def versionNumber : String := "0.0.1"

def toolchainVersion : String := "1.85"

def authors : String := "Misti contributors"

def bannerLine (version : String) : String := programName ++ " " ++ version

def creditLine (year : String) (authors : String) : String :=
  "Copyright (c) " ++ year ++ " " ++ String.intercalate ", " (authors.splitOn ":") ++ "."

def greeting (year : String) : String :=
  bold (Color.brightCyan.ink (bannerLine versionNumber)) ++ "\n" ++
    dimmed (creditLine year authors) ++ "\n" ++
    dimmed "Type" ++ " " ++ Color.cyan.ink ".help" ++ " " ++ dimmed "for available commands" ++
    "\n\n"

def padded (text : String) : String :=
  text ++ String.ofList (List.replicate (22 - text.length) ' ')

def entryLine (color : Color) (entry : String × String) : String :=
  "  " ++ color.ink (padded entry.1) ++ " " ++ dimmed entry.2 ++ "\n"

def sectionTitle (title : String) : String := "\n" ++ bold (Color.white.ink title) ++ "\n\n"

def shortcuts : List (String × String) :=
  [("Ctrl+C", "Cancel current input"), ("Ctrl+D", "Exit REPL"), ("Tab", "Autocomplete"),
    ("↑/↓", "Navigate history")]

def helpText : String :=
  sectionTitle "REPL Commands:" ++
    String.join (Command.all.map fun c => entryLine .cyan c.usage) ++
    sectionTitle "Keyboard Shortcuts:" ++ String.join (shortcuts.map (entryLine .yellow)) ++ "\n"

def versionText : String :=
  bold (Color.brightCyan.ink programName) ++ ": " ++ Color.yellow.ink versionNumber ++ "\n" ++
    dimmed "Rust" ++ ": " ++ toolchainVersion ++ "\n"

end Offside.Interactive
