import Offside.Text.Bytes
import Offside.Text.Grapheme

/-! # Lines of input

Input comes in lines. A line goes on with what is unfinished of an entry, and a backspace anywhere in
them takes back the grapheme before it, be it an end of line. -/

namespace Offside.Interactive

structure InputLine where
  text : String
  ending : String
  deriving DecidableEq

namespace InputLine

def ended : List Char → InputLine
  | '\r' :: reversed => ⟨String.ofList reversed.reverse, "\r\n"⟩
  | reversed => ⟨String.ofList reversed.reverse, "\n"⟩

/-- The lines of a text, of which the last need not be ended; `reversed` is what was read of the
current one. -/
def splitFrom (reversed : List Char) : List Char → List InputLine
  | [] => if reversed.isEmpty then [] else [⟨String.ofList reversed.reverse, ""⟩]
  | c :: rest =>
    if c = '\n' then ended reversed :: splitFrom [] rest else splitFrom (c :: reversed) rest

def split (input : String) : List InputLine := splitFrom [] input.toList

end InputLine

def backspace : Char := '\x08'

/-- Text as it stands while it is typed: its characters in reverse, and for each grapheme, the last
one first, how many bytes a backspace takes back. -/
structure Typed where
  reversed : List Char
  sizes : List Nat
  deriving DecidableEq

namespace Typed

def empty : Typed := ⟨[], []⟩

/-- The size of a grapheme is kept in one byte, so of a grapheme of 256 bytes or more only what is
left over of that is taken back. -/
def push (t : Typed) (grapheme : List Char) : Typed :=
  ⟨grapheme.reverse ++ t.reversed, Text.byteCount grapheme % 256 :: t.sizes⟩

def takeBack (t : Typed) : Typed :=
  match t.sizes with
  | [] => t
  | size :: sizes => ⟨Text.dropBytes t.reversed size, sizes⟩

def press (t : Typed) (grapheme : List Char) : Typed :=
  if grapheme = [backspace] then t.takeBack else t.push grapheme

end Typed

def withoutBackspaces (text : String) : String :=
  if text.toList.contains backspace then
    let typed := (Text.graphemes text.toList).foldl Typed.press .empty
    String.ofList typed.reversed.reverse
  else text

def InputLine.after (line : InputLine) (unfinished : String) : String :=
  withoutBackspaces (unfinished ++ line.text)

end Offside.Interactive
