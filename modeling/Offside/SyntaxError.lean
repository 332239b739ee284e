import Offside.Token

/-! # Syntax errors -/

namespace Offside

inductive SyntaxError where
  /-- A parenthesis that was opened here is not closed behind its expression. -/
  | missingClosingParen (pos : Position)
  /-- A token that begins no expression. -/
  | unexpectedToken (token : Token)
  | unexpectedEndOfInput (pos : Position)
  deriving DecidableEq

namespace SyntaxError

def name : SyntaxError → String
  | missingClosingParen _ => "MissingClosingParen"
  | unexpectedToken _ => "UnexpectedToken"
  | unexpectedEndOfInput _ => "UnexpectedEndOfInput"

def place (pos : Position) : String := s!" at line {pos.line}, offset {pos.offset}"

def message : SyntaxError → String
  | missingClosingParen pos => "Missing closing paren" ++ place pos
  | unexpectedToken t =>
    "Unexpected " ++ t.kind.label ++ " " ++ Text.quotedString t.text ++ place t.pos
  | unexpectedEndOfInput pos => "Unexpected end of input" ++ place pos

end SyntaxError

end Offside
