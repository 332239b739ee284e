import Offside.TokenStream

/-! # Whole texts -/

namespace Offside

/-- What reading a whole text gives: its tokens, with one for the end of the text at the end, and
its diagnostics in the order they were met. -/
structure Lexed where
  tokens : List Token
  diagnostics : List Diagnostic
  deriving DecidableEq

def Lexed.isClean (l : Lexed) : Bool := l.diagnostics.isEmpty

def tokenize (source : String) : Lexed :=
  let drained := (TokenStream.ofString source).tokens
  ⟨drained.1, drained.2.diagnostics.toList⟩

def tokenizeAll (sources : List String) : List Lexed := sources.map tokenize

end Offside
