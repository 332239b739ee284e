import Offside.Lexed
import Offside.Parser

/-! # Reports

What came of each source that was asked for. A source has a name, and a text unless it could not be
read. The texts of all readable sources are tokenized together and the results dealt out again. -/

namespace Offside

structure Source where
  name : String
  /-- The text, or why there is none. -/
  text : Except String String

inductive Outcome where
  | tokens (tokens : List Token)
  | expr (expr : Expr)
  | error (message : String)
  deriving DecidableEq

structure Report where
  source : String
  outcome : Outcome
  diagnostics : List Diagnostic
  deriving DecidableEq

namespace Report

def hasProblems (r : Report) : Bool :=
  !r.diagnostics.isEmpty || match r.outcome with
    | .error _ => true
    | _ => false

def unreadable (name message : String) : Report := ⟨name, .error message, []⟩

def ofLexed (name : String) (l : Lexed) : Report := ⟨name, .tokens l.tokens, l.diagnostics⟩

/-- Parses one expression. Only what was read to do so is diagnosed. -/
def parse (s : Source) : Report :=
  match s.text with
  | .error message => unreadable s.name message
  | .ok text =>
    match (Parser.ofString text).parseExpression with
    | (.ok expr, p) => ⟨s.name, .expr expr, p.diagnostics⟩
    | (.error e, p) => ⟨s.name, .error e.message, p.diagnostics⟩

def texts (sources : List Source) : List String := sources.filterMap fun s => s.text.toOption

def deal : List Source → List Lexed → List Report
  | [], _ => []
  | s :: sources, results =>
    match s.text, results with
    | .error message, results => unreadable s.name message :: deal sources results
    | .ok _, l :: results => ofLexed s.name l :: deal sources results
    | .ok _, [] => ofLexed s.name (Offside.tokenize "") :: deal sources []

def tokenize (sources : List Source) : List Report :=
  deal sources (tokenizeAll (texts sources))

end Report

end Offside
