/-! # Terminal colours

Control sequences around a text that set how a terminal shows it. A style sets all it asks for at
once and then resets everything; a single attribute is taken back alone, so that attributes nest. -/

namespace Offside.Terminal

def select (codes : List Nat) : String :=
  "\x1b[" ++ String.intercalate ";" (codes.map toString) ++ "m"

inductive Color where
  | red
  | green
  | yellow
  | magenta
  | cyan
  | white
  | brightGreen
  | brightYellow
  | brightCyan
  deriving DecidableEq

def Color.code : Color → Nat
  | red => 31
  | green => 32
  | yellow => 33
  | magenta => 35
  | cyan => 36
  | white => 37
  | brightGreen => 92
  | brightYellow => 93
  | brightCyan => 96

/-- The text in one color, going back to the terminal's own color behind it. -/
def Color.ink (c : Color) (text : String) : String := select [c.code] ++ text ++ select [39]

def bold (text : String) : String := select [1] ++ text ++ select [0]

def dimmed (text : String) : String := select [2] ++ text ++ select [0]

structure Style where
  color : Option Color
  bold : Bool
  dim : Bool
  deriving DecidableEq

namespace Style

def plain : Style := ⟨none, false, false⟩

def colored (c : Color) : Style := ⟨some c, false, false⟩

def strong (c : Color) : Style := ⟨some c, true, false⟩

def faint : Style := ⟨none, false, true⟩

def codes (s : Style) : List Nat :=
  (s.color.map Color.code).toList ++ (if s.bold then [1] else []) ++ (if s.dim then [2] else [])

def paint (s : Style) (text : String) : String :=
  if s.codes.isEmpty then text else select s.codes ++ text ++ select [0]

end Style

end Offside.Terminal
