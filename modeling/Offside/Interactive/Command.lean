import Offside.Text.Blank
import Offside.Text.Lowercase

/-! # Commands

A line that begins with a point may be a command: a word in any case, and behind the first blank an
argument. A line that begins with a point and names no command is an ordinary entry. -/

namespace Offside.Interactive

inductive Command where
  | help
  | exit
  | clear
  | version
  | mode
  | load
  deriving DecidableEq

namespace Command

def all : List Command := [help, exit, clear, version, mode, load]

def words : Command → List String
  | help => ["help", "h", "?"]
  | exit => ["exit", "quit", "q"]
  | clear => ["clear", "cls"]
  | version => ["version", "v"]
  | mode => ["mode", "m"]
  | load => ["load", "l"]

def ofWord? (word : String) : Option Command := all.find? fun c => c.words.contains word

def usage : Command → String × String
  | help => (".help", "Show this help message")
  | exit => (".exit", "Exit the REPL")
  | clear => (".clear", "Clear the screen")
  | version => (".version", "Show version information")
  | mode => (".mode <tokens|expr>", "Print tokens, or parse an expression")
  | load => (".load <file>", "Scan a file in this session")

def argument? (text : List Char) : Option String :=
  match Text.trim text with
  | [] => none
  | arg => some (String.ofList arg)

def parse (line : String) : Option (Command × Option String) :=
  match Text.trim line.toList with
  | '.' :: rest =>
    let isInWord := fun c => !Text.isBlank c
    let word := rest.takeWhile isInWord
    let command := ofWord? (String.ofList (Text.lowercase word))
    command.map fun c => (c, argument? (rest.dropWhile isInWord))
  | _ => none

end Command

end Offside.Interactive
