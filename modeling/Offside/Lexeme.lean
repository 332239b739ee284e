import Offside.Cursor
import Offside.Diagnostic

/-! # Lexemes

A lexeme is what a scan finds at the front of a text, without regard to where that text is: the
kind and text of the token it makes, how many characters it covers, and the flaw it may have. A
cursor turns it into a token and steps over it. -/

namespace Offside

/-- A problem and how many characters into the lexeme it shows. -/
structure Flaw where
  problem : Problem
  distance : Nat
  deriving DecidableEq

structure Lexeme where
  kind : TokenKind
  text : List Char
  extent : Nat
  flaw : Option Flaw
  deriving DecidableEq

namespace Lexeme

def verbatim (kind : TokenKind) (text : List Char) : Lexeme := ⟨kind, text, text.length, none⟩

def token (l : Lexeme) (pos : Position) : Token := ⟨l.kind, String.ofList l.text, pos⟩

def diagnostics (l : Lexeme) (c : Cursor) : List Diagnostic :=
  l.flaw.toList.map fun f => ⟨f.problem, (c.skip f.distance).pos⟩

end Lexeme

namespace Cursor

def take (c : Cursor) (l : Lexeme) : Token × List Diagnostic × Cursor :=
  (l.token c.pos, l.diagnostics c, c.skip l.extent)

end Cursor

end Offside
