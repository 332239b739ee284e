import Offside.Diagnostic
import Offside.Expr
import Offside.Terminal

/-! # Printing for people -/

namespace Offside

open Terminal (Style)

def TokenKind.style : TokenKind → Style
  | .keyword _ => .strong .magenta
  | .integer | .floating => .colored .yellow
  | .string => .colored .green
  | .operator => .colored .cyan
  | .unit | .opening _ | .closing _ => .colored .brightYellow
  | .indent | .dedent | .eof => .faint
  | .identifier => .plain

structure Printer where
  color : Bool
  showPositions : Bool
  deriving DecidableEq

namespace Printer

def paint (p : Printer) (style : Style) (text : String) : String :=
  if p.color then style.paint text else text

def position (p : Printer) (pos : Position) : String :=
  if p.showPositions then " " ++ p.paint .faint s!"@ {pos.line}:{pos.offset}" else ""

def token (p : Printer) (t : Token) : String :=
  p.paint t.kind.style t.display ++ p.position t.pos

def tokens (p : Printer) (ts : List Token) : String :=
  String.join (ts.map fun t => p.token t ++ "\n")

def expr (p : Printer) (e : Expr) : String :=
  p.paint e.token.kind.style e.display ++ p.position e.token.pos

def error (p : Printer) (message : String) : String :=
  p.paint (.strong .red) "Error" ++ ": " ++ message

def diagnostic (p : Printer) (d : Diagnostic) : String :=
  p.error d.message ++ " " ++
    p.paint .faint s!"(line {d.pos.line}, offset {d.pos.offset})"

def heading (p : Printer) (source : String) : String :=
  p.paint (.strong .white) ("==> " ++ source ++ " <==")

end Printer

end Offside
