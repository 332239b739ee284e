import Offside.Position
import Offside.Text.Quoted

/-! # Diagnostics

What can be wrong with a text, and where. A problem never stops the reading of a text. -/

namespace Offside

inductive Problem where
  /-- A character that begins no lexeme. -/
  | unrecognizedCharacter (char : Char)
  /-- A line ended inside a string. -/
  | unterminatedString
  /-- The text ended inside a string. -/
  | unterminatedStringAtEnd
  /-- A line is less deep than the block before it, but as deep as no block around that one. -/
  | inconsistentDedent (width landedOn : Nat)
  deriving DecidableEq

def Problem.name : Problem → String
  | unrecognizedCharacter _ => "UnrecognizedCharacter"
  | unterminatedString => "UnterminatedString"
  | unterminatedStringAtEnd => "UnterminatedStringAtEof"
  | inconsistentDedent .. => "InconsistentDedent"

def Problem.message : Problem → String
  | unrecognizedCharacter c => "Unrecognized character " ++ Text.quotedChar c ++ "."
  | unterminatedString => "Unexpected new line inside a string."
  | unterminatedStringAtEnd => "Unexpected end of input inside a string."
  | inconsistentDedent width landedOn =>
    s!"Indentation of {width} does not match any enclosing level; dedented to {landedOn}."

structure Diagnostic where
  problem : Problem
  pos : Position
  deriving DecidableEq

def Diagnostic.message (d : Diagnostic) : String := d.problem.message

end Offside
