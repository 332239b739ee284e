import Offside.Lexeme

/-! # String literals

A string begins with a quotation mark and ends with the next one that is not escaped, or else with
the line or the text it is in. A backslash before a character that names no escape is dropped. -/

namespace Offside.Lexeme

def escape? (c : Char) : Option Char :=
  if c = 'n' then some '\n'
  else if c = 'r' then some '\r'
  else if c = 't' then some '\t'
  else if c = 'f' then some '\x0c'
  else if c = 'b' then some '\x08'
  else if c = '"' then some '"'
  else if c = '\\' then some '\\'
  else none

inductive StringEnd where
  | quote
  | newline
  | endOfText
  deriving DecidableEq

structure StringBody where
  text : List Char
  length : Nat
  ending : StringEnd
  deriving DecidableEq

/-- Reads on after `length` characters that mean `meant`, which is in reverse; `escaped` tells that
the last of them is a backslash still to be resolved. -/
def readBody (meant : List Char) (length : Nat) (escaped : Bool) : List Char → StringBody
  | [] => ⟨meant.reverse, length, .endOfText⟩
  | c :: rest =>
    if c = '\n' then ⟨meant.reverse, length, .newline⟩
    else if escaped then readBody ((escape? c).getD c :: meant) (length + 1) false rest
    else if c = '"' then ⟨meant.reverse, length, .quote⟩
    else if c = '\\' then readBody meant (length + 1) true rest
    else readBody (c :: meant) (length + 1) false rest

def stringBody (cs : List Char) : StringBody := readBody [] 0 false cs

/-- The string at the front of a text; its first character is taken for the opening mark. -/
def stringLiteral (cs : List Char) : Lexeme :=
  let opening := (cs.take 1).length
  let body := stringBody (cs.drop 1)
  let reached := opening + body.length
  match body.ending with
  | .quote => ⟨.string, body.text, reached + 1, none⟩
  | .newline => ⟨.string, body.text, reached + 1, some ⟨.unterminatedString, reached⟩⟩
  | .endOfText => ⟨.string, body.text, reached, some ⟨.unterminatedStringAtEnd, reached⟩⟩

end Offside.Lexeme
