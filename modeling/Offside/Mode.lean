import Offside.Text.Blank
import Offside.Text.Lowercase

/-! # Modes

What a conversation does with an entry: show its tokens, or parse one expression. -/

namespace Offside

inductive Mode where
  | tokens
  | expr
  deriving DecidableEq

namespace Mode

def name : Mode → String
  | tokens => "tokens"
  | expr => "expr"

/-- The mode that is called so in a conversation: by name or initial, in any case. -/
def ofWord? (word : String) : Option Mode :=
  let key := String.ofList (Text.lowercase (Text.trim word.toList))
  if key = "tokens" ∨ key = "t" then some tokens
  else if key = "expr" ∨ key = "e" then some expr
  else none

def ofName? (name : String) : Option Mode := [tokens, expr].find? fun m => m.name == name

end Mode

end Offside
