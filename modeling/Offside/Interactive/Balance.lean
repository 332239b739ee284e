import Offside.Lexeme.Sign
import Offside.Text.Blank

/-! # Balance

Whether an entry is complete or goes on with another line. An entry goes on while brackets are open
or its last character is an operator character. A closing bracket that does not fit ends it: the
parser will report that. -/

namespace Offside.Interactive

inductive Place where
  | code
  | string
  /-- In a string, behind a backslash. -/
  | escape
  deriving DecidableEq

/-- Whether the open brackets, innermost first, are closed by the end of a text. -/
def balancedFrom (opened : List Bracket) : Place → List Char → Bool
  | _, [] => opened.isEmpty
  | .escape, _ :: rest => balancedFrom opened .string rest
  | .string, c :: rest =>
    if c = '\\' then balancedFrom opened .escape rest
    else if c = '"' ∨ c = '\n' then balancedFrom opened .code rest
    else balancedFrom opened .string rest
  | .code, c :: rest =>
    if c = '"' then balancedFrom opened .string rest
    else
      match Lexeme.bracketKind? c with
      | some (.opening b) => balancedFrom (b :: opened) .code rest
      | some (.closing b) =>
        match opened with
        | top :: around => if top = b then balancedFrom around .code rest else true
        | [] => true
      | _ => balancedFrom opened .code rest

def isBalanced (entry : String) : Bool := balancedFrom [] .code entry.toList

def endsInOperator (entry : String) : Bool :=
  (Text.dropBlanksEnd entry.toList).getLast?.any Lexeme.isOperator

/-- A command, known or not, is always complete. -/
def looksLikeCommand (entry : String) : Bool := (Text.dropBlanks entry.toList).head? == some '.'

def isIncomplete (entry : String) : Bool :=
  !looksLikeCommand entry && (!isBalanced entry || endsInOperator entry)

end Offside.Interactive
