import Offside.Lexeme

/-! # Signs

An operator is a longest run of operator characters. Brackets stand alone, save that a pair of
parentheses with nothing but spaces between them is the unit value. -/

namespace Offside.Lexeme

def operatorCharacters : List Char :=
  ['+', '-', '=', '*', '!', '\\', '/', '|', '@', '#', '$', '~', '%', '&', '?', '<', '>', '^',
    '.', ':']

def isOperator (c : Char) : Bool := operatorCharacters.contains c

def operator (cs : List Char) : Lexeme := verbatim .operator (cs.takeWhile isOperator)

def bracketKind? (c : Char) : Option TokenKind :=
  if c = '(' then some (.opening .paren)
  else if c = ')' then some (.closing .paren)
  else if c = '[' then some (.opening .square)
  else if c = ']' then some (.closing .square)
  else if c = '\x7b' then some (.opening .brace)
  else if c = '\x7d' then some (.closing .brace)
  else none

def isGrouping (c : Char) : Bool := (bracketKind? c).isSome

def unitExtent? : List Char → Option Nat
  | '(' :: rest =>
    let spaces := rest.takeWhile (· == ' ')
    if (rest.drop spaces.length).head? = some ')' then some (spaces.length + 2) else none
  | _ => none

def grouping? (cs : List Char) : Option Lexeme :=
  match cs with
  | [] => none
  | c :: _ =>
    match bracketKind? c with
    | none => none
    | some kind =>
      match unitExtent? cs with
      | some extent => some ⟨.unit, ['(', ')'], extent, none⟩
      | none => some (verbatim kind [c])

end Offside.Lexeme
