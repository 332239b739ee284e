import Offside.Position
import Offside.Text.Quoted

/-! # Tokens

A token says what kind of lexeme was read, the text it stands for, and where it begins. Indents,
dedents and the end of the text are synthetic: they have no characters of their own. -/

namespace Offside

inductive Bracket where
  | paren
  | square
  | brace
  deriving DecidableEq

inductive Keyword where
  | var
  | val
  deriving DecidableEq

inductive TokenKind where
  | identifier
  | integer
  | floating
  | string
  | unit
  | operator
  | opening (bracket : Bracket)
  | closing (bracket : Bracket)
  | indent
  | dedent
  | keyword (word : Keyword)
  | eof
  deriving DecidableEq

namespace Bracket

def name : Bracket → String
  | paren => "Paren"
  | square => "Bracket"
  | brace => "Brace"

end Bracket

namespace Keyword

def all : List Keyword := [var, val]

def spelling : Keyword → String
  | var => "var"
  | val => "val"

def name : Keyword → String
  | var => "Var"
  | val => "Val"

def ofSpelling? (text : String) : Option Keyword := all.find? fun k => k.spelling == text

theorem ofSpelling?_spelling (k : Keyword) : ofSpelling? k.spelling = some k := by
  cases k <;> decide

end Keyword

namespace TokenKind

def all : List TokenKind :=
  [identifier, integer, floating, string, unit, operator,
    opening .paren, closing .paren, opening .square, closing .square, opening .brace,
    closing .brace, indent, dedent, keyword .var, keyword .val, eof]

/-- The name a kind has in data. -/
def name : TokenKind → String
  | identifier => "Identifier"
  | integer => "Integer"
  | floating => "Floating"
  | string => "String"
  | unit => "Unit"
  | operator => "Operator"
  | opening b => "Left" ++ b.name
  | closing b => "Right" ++ b.name
  | indent => "Indent"
  | dedent => "Dedent"
  | keyword k => k.name
  | eof => "Eof"

/-- The name a kind has in text for people. -/
def label : TokenKind → String
  | eof => "EOF"
  | kind => kind.name

def ofName? (name : String) : Option TokenKind := all.find? fun k => k.name == name

def isSynthetic : TokenKind → Bool
  | indent | dedent | eof => true
  | _ => false

def isKeyword : TokenKind → Bool
  | keyword _ => true
  | _ => false

def isGrouping : TokenKind → Bool
  | opening _ | closing _ => true
  | _ => false

def isLiteral : TokenKind → Bool
  | integer | floating | string | unit => true
  | _ => false

theorem mem_all (k : TokenKind) : k ∈ all := by
  cases k with
  | opening b => cases b <;> decide
  | closing b => cases b <;> decide
  | keyword w => cases w <;> decide
  | _ => decide

theorem ofName?_name (k : TokenKind) : ofName? k.name = some k := by
  cases k with
  | opening b => cases b <;> decide
  | closing b => cases b <;> decide
  | keyword w => cases w <;> decide
  | _ => decide

end TokenKind

structure Token where
  kind : TokenKind
  text : String
  pos : Position
  deriving DecidableEq

namespace Token

def synthetic (kind : TokenKind) (pos : Position) : Token := ⟨kind, "", pos⟩

def isSynthetic (t : Token) : Bool := t.kind.isSynthetic

def length (t : Token) : Nat := t.text.length

def isEmpty (t : Token) : Bool := t.text.isEmpty

def display (t : Token) : String :=
  if t.isSynthetic then t.kind.label
  else t.kind.label ++ " " ++ Text.quotedString t.text

end Token

end Offside
