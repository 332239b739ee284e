import Offside.Token

/-! # Expressions

A primary expression is a literal or a name, together with the token that spells it. Nothing binds
the form to the kind of the token; the parser makes them agree. -/

namespace Offside

inductive Expr.Form where
  | integer
  | floating
  | string
  | identifier
  | unit
  deriving DecidableEq

structure Expr where
  form : Expr.Form
  token : Token
  deriving DecidableEq

namespace Expr

namespace Form

def all : List Form := [integer, floating, string, identifier, unit]

def name : Form → String
  | integer => "Integer"
  | floating => "Floating"
  | string => "String"
  | identifier => "Identifier"
  | unit => "Unit"

def ofName? (name : String) : Option Form := all.find? fun f => f.name == name

def ofKind? : TokenKind → Option Form
  | .integer => some integer
  | .floating => some floating
  | .string => some string
  | .identifier => some identifier
  | .unit => some unit
  | _ => none

theorem ofName?_name (f : Form) : ofName? f.name = some f := by cases f <;> decide

end Form

def name (e : Expr) : String := e.form.name

/-- The form with the text in parentheses; only the text of a string is quoted. -/
def display (e : Expr) : String :=
  match e.form with
  | .string => "String(" ++ Text.quotedString e.token.text ++ ")"
  | form => form.name ++ "(" ++ e.token.text ++ ")"

end Expr

end Offside
