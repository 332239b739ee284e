import Offside.Lexeme

/-! # Numbers

    Number      = Hexadecimal | Whole Fraction? Exponent?
    Hexadecimal = "0" [xX] [0-9a-fA-F]+
    Whole       = [1-9] [0-9]* | "0"
    Fraction    = "." [0-9]+
    Exponent    = [eE] [+-] [0-9]+

A part counts only when it is complete; otherwise its characters are left for what follows. -/

namespace Offside.Lexeme

namespace Number

def isHexDigit (c : Char) : Bool :=
  c.isDigit || ('a' ≤ c && c ≤ 'f') || ('A' ≤ c && c ≤ 'F')

def hexadecimal : List Char → List Char
  | '0' :: x :: digit :: rest =>
    if (x == 'x' || x == 'X') && isHexDigit digit then
      '0' :: x :: digit :: rest.takeWhile isHexDigit
    else []
  | _ => []

def whole : List Char → List Char
  | [] => []
  | digit :: rest => if digit = '0' then ['0'] else digit :: rest.takeWhile Char.isDigit

def fraction : List Char → List Char
  | '.' :: digit :: rest =>
    if digit.isDigit then '.' :: digit :: rest.takeWhile Char.isDigit else []
  | _ => []

def exponent : List Char → List Char
  | e :: sign :: digit :: rest =>
    if (e == 'e' || e == 'E') && (sign == '+' || sign == '-') && digit.isDigit then
      e :: sign :: digit :: rest.takeWhile Char.isDigit
    else []
  | _ => []

end Number

/-- The number at the front of a text that begins with a digit. -/
def number (cs : List Char) : Lexeme :=
  match Number.hexadecimal cs with
  | [] =>
    let whole := Number.whole cs
    let afterWhole := cs.drop whole.length
    let fraction := Number.fraction afterWhole
    let exponent := Number.exponent (afterWhole.drop fraction.length)
    let kind := if fraction.isEmpty && exponent.isEmpty then .integer else .floating
    verbatim kind (whole ++ fraction ++ exponent)
  | digits => verbatim .integer digits

end Offside.Lexeme
