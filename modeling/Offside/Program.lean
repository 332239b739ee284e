import Offside.CommandLine
import Offside.Interactive.Conversation
import Offside.Report.Json

/-! # The program

The arguments decide what is read: the text given with them, then the files they name, or else a
conversation. What is read is reported together, and the program fails if any report has a
problem. -/

namespace Offside

structure Surroundings where
  files : Files
  /-- The files once the directories around a path were made. -/
  filesAround : String → Files
  /-- The name of the settings file that is used if it is there and no other is named. -/
  defaultConfig : String
  /-- What reading that file gives. -/
  defaultSettings : Except ReadFault String
  input : String
  year : String

structure Ending where
  code : Nat
  output : Output
  deriving DecidableEq

namespace Program

def configOf (name text : String) : Except String Config :=
  match Config.ofToml? text with
  | some config => .ok config
  | none => .error ("in config file " ++ name ++ ": " ++ Config.invalidMessage)

def unreadableConfig (name : String) (fault : ReadFault) : String :=
  "failed to read config file " ++ name ++ ": " ++ fault.message

/-- A settings file that is named must be there; the default one need not. -/
def config (s : Surroundings) (l : CommandLine) : Except String Config :=
  match l.config with
  | some name =>
    match s.files name with
    | .ok text => configOf name text
    | .error fault => .error (unreadableConfig name fault)
  | none =>
    match s.defaultSettings with
    | .ok text => configOf s.defaultConfig text
    | .error .notFound => .ok .defaults
    | .error fault => .error (unreadableConfig s.defaultConfig fault)

def evalName : String := "<eval>"

def sourceOf (files : Files) (name : String) : Source :=
  match files name with
  | .ok text => ⟨name, .ok text⟩
  | .error fault => ⟨name, .error ("failed to read " ++ name ++ ": " ++ fault.message)⟩

/-- Sources in the order of their numbers, in whatever order they were read. -/
def arrange (read : List (Nat × Source)) : List Source :=
  (read.mergeSort fun a b => a.1 ≤ b.1).map Prod.snd

def readFiles (files : Files) (names : List String) : List (Nat × Source) :=
  names.zipIdx.map fun n => (n.2, sourceOf files n.1)

def sources (s : Surroundings) (l : CommandLine) : List Source :=
  (l.eval.map fun code => Source.mk evalName (.ok code)).toList ++
    arrange (readFiles s.files l.files)

def present (p : Printer) (heading : Bool) (r : Report) : Output :=
  let title := if heading then Output.line (p.heading r.source) else .empty
  let result := match r.outcome with
    | .tokens ts => Output.ofOut (p.tokens ts)
    | .expr e => .line (p.expr e)
    | .error message => .errLine (p.error message)
  title ++ result ++ .concat (r.diagnostics.map fun d => .errLine (p.diagnostic d))

def presentAll (p : Printer) (format : Format) (reports : List Report) : Output :=
  match format with
  | .json => .line (Report.listToJson reports)
  | .pretty => .concat (reports.map (present p (1 < reports.length)))

def reports (l : CommandLine) (sources : List Source) : List Report :=
  if l.parse then sources.map Report.parse else Report.tokenize sources

def failure (message : String) : Ending :=
  ⟨1, .errLine (Terminal.bold (Terminal.Color.red.ink "Error") ++ ": " ++ message)⟩

def versionLine : String := "misti " ++ Interactive.versionNumber

def usage : String := "Usage: misti [OPTIONS] [FILES]..."

def stopped : CommandLine.Stop → Ending
  | .misused => ⟨2, .errLine usage⟩
  | .version => ⟨0, .line versionLine⟩

def report (config : Config) (l : CommandLine) (sources : List Source) : Ending :=
  let reports := reports l sources
  let printer : Printer := ⟨config.color, config.showPositions⟩
  ⟨if reports.any Report.hasProblems then 1 else 0,
    presentAll printer (l.format.getD .pretty) reports⟩

/-- The files of a conversation, for which a history file that is named gets its directories. -/
def conversationFiles (s : Surroundings) (config : Config) : Files :=
  match config.historyFile with
  | some path => s.filesAround path
  | none => s.files

def run (s : Surroundings) (args : List String) : Ending :=
  match CommandLine.read args with
  | .error stop => stopped stop
  | .ok l =>
    match config s l with
    | .error message => failure message
    | .ok config =>
      if l.isConversation then
        ⟨0, Interactive.Conversation.run config (conversationFiles s config) s.year s.input⟩
      else report config l (sources s l)

end Program

end Offside
