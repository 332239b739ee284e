import Offside.Interactive.Command
import Offside.Terminal
import Offside.Text.Bytes
import Offside.Token

/-! # Completion

The word that ends at a place in a line, and the known words that go on from it. Places are counted
in bytes of UTF-8. Words are ASCII, so one that is known ends on a character boundary. -/

namespace Offside.Interactive

def commandWords : List String := Command.all.map fun c => "." ++ c.words.headD ""

def knownWords : List String :=
  Keyword.all.map Keyword.spelling ++ commandWords ++ ["tokens", "expr"]

def isCompletable (c : Char) : Bool := c.isAlphanum || c == '_' || c == '.'

def wordEnding (cs : List Char) : List Char := (cs.reverse.takeWhile isCompletable).reverse

/-- The byte at which the word that ends at byte `pos` begins. -/
def wordStart (line : String) (pos : Nat) : Nat :=
  let before := Text.takeBytes line.toList pos
  Text.byteCount before - Text.byteCount (wordEnding before)

def extension? (word : List Char) (known : String) : Option (List Char) :=
  if word.isPrefixOf known.toList then some (known.toList.drop word.length) else none

structure Candidate where
  display : String
  replacement : String
  deriving DecidableEq

def candidates (line : String) (pos : Nat) : List Candidate :=
  match wordEnding (Text.takeBytes line.toList pos) with
  | [] => []
  | word => knownWords.filterMap fun known =>
      (extension? word known).map fun rest => ⟨known, String.ofList rest⟩

def extension (line : String) : Option String :=
  let word := wordEnding line.toList
  if word.length < 2 then none
  else
    (knownWords.findSome? fun known => (extension? word known).filter fun rest => !rest.isEmpty).map
      String.ofList

/-- The faint text shown behind the cursor when it stands at the end of the line. -/
def hint (line : String) (pos : Nat) : Option String :=
  if pos < line.utf8ByteSize then none else (extension line).map Terminal.dimmed

end Offside.Interactive
