import Offside.Lexeme

/-! # Words

A word begins with a small letter or an underscore and goes on with letters, digits and
underscores, all of them ASCII. It is an identifier unless it is reserved. -/

namespace Offside.Lexeme

def isWordStart (c : Char) : Bool := c.isLower || c == '_'

def isWordContinue (c : Char) : Bool := c.isAlphanum || c == '_'

def wordKind (text : List Char) : TokenKind :=
  match Keyword.ofSpelling? (String.ofList text) with
  | some k => .keyword k
  | none => .identifier

/-- The word at the front of a text; its first character is taken as it comes. -/
def word : List Char → Lexeme
  | [] => verbatim .identifier []
  | c :: rest =>
    let text := c :: rest.takeWhile isWordContinue
    verbatim (wordKind text) text

end Offside.Lexeme
