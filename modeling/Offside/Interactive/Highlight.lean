import Offside.Lexed
import Offside.Printer
import Offside.Text.Blank

/-! # Highlighting

A line is cut into pieces by its own tokens: the characters of a lexeme, and between lexemes single
characters, those that begin no lexeme marked as such. -/

namespace Offside.Interactive

inductive Piece where
  | plain (char : Char)
  | unrecognized (char : Char)
  | lexeme (kind : TokenKind) (text : List Char)
  deriving DecidableEq

namespace Piece

def source : Piece → List Char
  | plain c => [c]
  | unrecognized c => [c]
  | lexeme _ text => text

def render : Piece → String
  | plain c => String.singleton c
  | unrecognized c => Terminal.Color.red.ink (String.singleton c)
  | lexeme kind text => kind.style.paint (String.ofList text)

end Piece

def gapPieces (bad : List Nat) (offset : Nat) (gap : List Char) : List Piece :=
  (gap.zipIdx offset).map fun (c, i) => if bad.contains i then .unrecognized c else .plain c

/-- How much of `span`, the characters from a token to the next one, is the token's. The text of a
string or a unit value need not be as long as what it was read from: there it is all but the blanks
at the end. -/
def lexemeLength (t : Token) (span : List Char) : Nat :=
  match t.kind with
  | .string | .unit => (Text.dropBlanksEnd span).length
  | _ => min t.length span.length

/-- The pieces of `rest`, which begins at `offset` and holds the lexemes of the tokens. -/
def piecesFrom (bad : List Nat) (offset : Nat) (rest : List Char) : List Token → List Piece
  | [] => gapPieces bad offset rest
  | t :: ts =>
    let gap := rest.take (t.pos.offset - offset)
    let fromToken := rest.drop (t.pos.offset - offset)
    let span := match ts with
      | [] => fromToken
      | following :: _ => fromToken.take (following.pos.offset - t.pos.offset)
    let length := lexemeLength t span
    gapPieces bad offset gap ++ .lexeme t.kind (span.take length) ::
      piecesFrom bad (t.pos.offset + length) (fromToken.drop length) ts

def unrecognizedOffsets (ds : List Diagnostic) : List Nat :=
  ds.filterMap fun d => match d.problem with
    | .unrecognizedCharacter _ => some d.pos.offset
    | _ => none

def pieces (line : String) : List Piece :=
  let lexed := tokenize line
  piecesFrom (unrecognizedOffsets lexed.diagnostics) 0 line.toList
    (lexed.tokens.filter fun t => !t.isSynthetic)

def highlightSource (line : String) : String := String.join ((pieces line).map Piece.render)

/-- The line in colors; a line that begins with a point is left alone. -/
def highlight (color : Bool) (line : String) : String :=
  if !color || line.toList.head? == some '.' then line else highlightSource line

def redraws (color : Bool) : Bool := color

end Offside.Interactive
