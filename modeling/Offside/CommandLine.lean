/-! # The command line

Arguments are taken strictly from left to right, and the first one that is wrong, or that asks for
the version, ends the reading. An option is given at most once. A value may be attached to its
option; a value that stands alone must not look like an option. -/

namespace Offside

inductive Format where
  | pretty
  | json
  deriving DecidableEq

def Format.ofName? (name : String) : Option Format :=
  if name = "pretty" then some .pretty else if name = "json" then some .json else none

structure CommandLine where
  files : List String
  eval : Option String
  parse : Bool
  format : Option Format
  config : Option String
  verbose : Bool
  interactive : Bool
  deriving DecidableEq

namespace CommandLine

inductive Stop where
  | misused
  | version
  deriving DecidableEq

def empty : CommandLine := ⟨[], none, false, none, none, false, false⟩

inductive Flag where
  | parse
  | verbose
  | interactive
  | version
  deriving DecidableEq

inductive Setting where
  | eval
  | format
  | config
  deriving DecidableEq

inductive Opt where
  | flag (flag : Flag)
  | setting (setting : Setting)
  deriving DecidableEq

def Opt.ofLongName? : String → Option Opt
  | "eval" => some (.setting .eval)
  | "format" => some (.setting .format)
  | "config" => some (.setting .config)
  | "parse" => some (.flag .parse)
  | "verbose" => some (.flag .verbose)
  | "interactive" | "repl" => some (.flag .interactive)
  | "version" => some (.flag .version)
  | _ => none

def Opt.ofShortName? : Char → Option Opt
  | 'e' => some (.setting .eval)
  | 'i' => some (.flag .interactive)
  | 'V' => some (.flag .version)
  | _ => none

def raise (l : CommandLine) : Flag → Except Stop CommandLine
  | .parse => if l.parse then .error .misused else .ok { l with parse := true }
  | .verbose => if l.verbose then .error .misused else .ok { l with verbose := true }
  | .interactive => if l.interactive then .error .misused else .ok { l with interactive := true }
  | .version => .error .version

/-- A path must not be empty, and a format must be one that there is. -/
def set (l : CommandLine) (value : String) : Setting → Except Stop CommandLine
  | .eval => if l.eval.isSome then .error .misused else .ok { l with eval := some value }
  | .format =>
    match l.format, Format.ofName? value with
    | none, some f => .ok { l with format := some f }
    | _, _ => .error .misused
  | .config =>
    if l.config.isSome || value.isEmpty then .error .misused
    else .ok { l with config := some value }

def addFile (l : CommandLine) (name : String) : Except Stop CommandLine :=
  if name.isEmpty then .error .misused else .ok { l with files := l.files ++ [name] }

/-- Whether an argument begins like an option. A lone dash does not. -/
def looksLikeOption (arg : String) : Bool :=
  match arg.toList with
  | ['-'] => false
  | '-' :: _ => true
  | _ => false

abbrev Progress := CommandLine × Option Setting

/-- Short options behind one dash. What follows one that takes a value is its value, but for an
equals sign in front. -/
def readShort (l : CommandLine) : List Char → Except Stop Progress
  | [] => .ok (l, none)
  | c :: rest =>
    match Opt.ofShortName? c with
    | none => .error .misused
    | some (.flag f) => (l.raise f).bind fun l => l.readShort rest
    | some (.setting s) =>
      match rest with
      | [] => .ok (l, some s)
      | '=' :: value => (l.set (String.ofList value) s).map fun l => (l, none)
      | value => (l.set (String.ofList value) s).map fun l => (l, none)

def readLong (l : CommandLine) (text : List Char) : Except Stop Progress :=
  let name := text.takeWhile (· != '=')
  match Opt.ofLongName? (String.ofList name), text.drop name.length with
  | none, _ => .error .misused
  | some (.flag f), [] => (l.raise f).map fun l => (l, none)
  | some (.flag _), _ => .error .misused
  | some (.setting s), [] => .ok (l, some s)
  | some (.setting s), _ :: value => (l.set (String.ofList value) s).map fun l => (l, none)

def readArgument (l : CommandLine) (arg : String) : Except Stop Progress :=
  match arg.toList with
  | '-' :: '-' :: text => l.readLong text
  | '-' :: c :: rest => l.readShort (c :: rest)
  | _ => (l.addFile arg).map fun l => (l, none)

def readFiles (l : CommandLine) (names : List String) : Except Stop CommandLine :=
  names.foldlM addFile l

/-- Reads the arguments; `wanting` is an option whose value comes next. -/
def readFrom (l : CommandLine) (wanting : Option Setting) :
    List String → Except Stop CommandLine
  | [] => if wanting.isSome then .error .misused else .ok l
  | arg :: args =>
    match wanting with
    | some s =>
      if looksLikeOption arg then .error .misused
      else (l.set arg s).bind fun l => l.readFrom none args
    | none =>
      if arg = "--" then l.readFiles args
      else (l.readArgument arg).bind fun r => r.1.readFrom r.2 args

def read (args : List String) : Except Stop CommandLine := empty.readFrom none args

def isConversation (l : CommandLine) : Bool :=
  l.interactive || (l.eval.isNone && l.files.isEmpty)

end CommandLine

end Offside
