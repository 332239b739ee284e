import Offside.Config
import Offside.Files
import Offside.Interactive.Balance
import Offside.Interactive.Greeting
import Offside.Interactive.InputLine
import Offside.Output
import Offside.Parser
import Offside.Printer
import Offside.Session

/-! # Conversations

A conversation is a session, a mode and a way of printing. Each entry is blank, a command, or
source to read. Lines are put together until they make a complete entry; one that the input leaves
incomplete is dropped. -/

namespace Offside.Interactive

structure Conversation where
  session : Session
  mode : Mode
  printer : Printer

inductive Reply where
  | stop
  | goOn (said : Output) (next : Conversation)

namespace Conversation

def start (config : Config) : Conversation :=
  ⟨.empty, config.mode, ⟨config.color, config.showPositions⟩⟩

def prompt (c : Conversation) : String :=
  let text := s!"misti:{c.session.lines}>"
  (if c.printer.color then Terminal.bold (Terminal.Color.brightGreen.ink text) else text) ++ " "

def complain (c : Conversation) (message : String) : Output :=
  .errLine (c.printer.error message)

def diagnose (c : Conversation) (ds : List Diagnostic) : Output :=
  .concat (ds.map fun d => .errLine (c.printer.diagnostic d))

def present (c : Conversation) (s : TokenStream) : Output :=
  match c.mode with
  | .tokens =>
    let (tokens, s) := s.tokens
    .ofOut (c.printer.tokens tokens) ++ c.diagnose s.diagnostics.toList
  | .expr =>
    match (Parser.ofStream s).parseExpression with
    | (.ok e, p) => .line (c.printer.expr e) ++ c.diagnose p.diagnostics
    | (.error e, p) => c.complain e.message ++ c.diagnose p.diagnostics

def scan (c : Conversation) (source : String) : Output × Conversation :=
  let (stream, session) := c.session.feed source
  let next := { c with session }
  match stream with
  | .ok s => (c.present s, next)
  | .error e => (c.complain e.message, next)

def load (c : Conversation) (path : String) (text : Except ReadFault String) :
    Output × Conversation :=
  match text with
  | .ok source => c.scan source
  | .error fault => (c.complain (path ++ ": " ++ fault.message), c)

def changeMode (c : Conversation) (arg : Option String) : Output × Conversation :=
  match arg with
  | none => (.line c.mode.name, c)
  | some word =>
    match Mode.ofWord? word with
    | some mode => (.empty, { c with mode })
    | none => (c.complain "expected `tokens` or `expr`", c)

def obey (c : Conversation) (files : Files) (command : Command) (arg : Option String) : Reply :=
  let say := fun said => Reply.goOn said c
  let become := fun (r : Output × Conversation) => Reply.goOn r.1 r.2
  match command with
  | .exit => .stop
  | .help => say (.ofOut helpText)
  | .clear => say (.ofOut "\x1b[2J\x1b[H")
  | .version => say (.ofOut versionText)
  | .mode => become (c.changeMode arg)
  | .load =>
    match arg with
    | some path => become (c.load path (files path))
    | none => say (c.complain ".load requires a file path")

def answer (c : Conversation) (files : Files) (entry : String) : Reply :=
  if (Text.trim entry.toList).isEmpty then .goOn .empty c
  else
    match Command.parse entry with
    | some (command, arg) => c.obey files command arg
    | none =>
      let (said, next) := c.scan entry
      .goOn said next

end Conversation

structure Dialogue where
  conversation : Conversation
  unfinished : String

namespace Dialogue

/-- What is said to a line and how it goes on, unless the line ends the conversation. -/
def hear (d : Dialogue) (files : Files) (line : InputLine) : Option (Output × Dialogue) :=
  let entry := line.after d.unfinished
  if isIncomplete entry then some (.empty, { d with unfinished := entry ++ line.ending })
  else
    match d.conversation.answer files entry with
    | .stop => none
    | .goOn said next => some (said ++ .ofOut next.prompt, ⟨next, ""⟩)

def farewell : Output := .line (Terminal.dimmed "^D")

/-- Goes on with the lines of input after what was said. -/
def goOn (d : Dialogue) (files : Files) (said : Output) : List InputLine → Output
  | [] => said ++ farewell
  | line :: lines =>
    match d.hear files line with
    | none => said
    | some (more, next) => next.goOn files (said ++ more) lines

end Dialogue

def Conversation.run (config : Config) (files : Files) (year input : String) : Output :=
  let c := start config
  Dialogue.goOn ⟨c, ""⟩ files (.ofOut (greeting year ++ c.prompt)) (InputLine.split input)

end Offside.Interactive
