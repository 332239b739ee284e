import Offside.Expr
import Offside.SyntaxError
import Offside.TokenStream

/-! # The parser

A parser looks one token ahead in a stream. It reads one expression at a call: parentheses may
stand around it, to any depth, and layout before it and before each opening parenthesis is passed
over. Nothing is passed over before a closing one. -/

namespace Offside

structure Parser where
  stream : TokenStream
  current : Token

namespace Parser

/-- The next token; behind the end of the text, the end of the text again. -/
def pull (s : TokenStream) : Token × TokenStream :=
  match s.next? with
  | (some t, next) => (t, next)
  | (none, next) => (.synthetic .eof next.pos, next)

def ofStream (s : TokenStream) : Parser :=
  let pulled := pull s
  ⟨pulled.2, pulled.1⟩

def ofString (source : String) : Parser := ofStream (.ofString source)

def diagnostics (p : Parser) : List Diagnostic := p.stream.diagnostics.toList

def isAtEnd (p : Parser) : Bool := p.current.kind == .eof

def advance (p : Parser) : Parser := ofStream p.stream

def budget (p : Parser) : Nat := p.stream.budget + if p.current.kind = .eof then 0 else 1

theorem advance_budget {p : Parser} (h : p.current.kind ≠ .eof) :
    p.advance.budget < p.budget := by
  unfold advance ofStream pull
  split
  · next t next hn =>
    have := TokenStream.next?_budget hn
    simp only [budget, if_neg h]
    split <;> omega
  · next next hn =>
    have := TokenStream.next?_none hn
    simp only [budget, if_neg h, this]
    simp [Token.synthetic]

/-- Passes layout and opening parentheses. The positions of the parentheses come back innermost
first, in front of those given. -/
def enter (p : Parser) (opened : List Position) : List Position × Parser :=
  match _h : p.current.kind with
  | .indent | .dedent => p.advance.enter opened
  | .opening .paren => p.advance.enter (p.current.pos :: opened)
  | _ => (opened, p)
  termination_by p.budget
  decreasing_by all_goals exact advance_budget (by simp [*])

def leave (p : Parser) : List Position → Except SyntaxError Unit × Parser
  | [] => (.ok (), p)
  | pos :: opened =>
    if p.current.kind = .closing .paren then p.advance.leave opened
    else (.error (.missingClosingParen pos), p)

def parsePrimary (p : Parser) : Except SyntaxError Expr × Parser :=
  match Expr.Form.ofKind? p.current.kind with
  | some form => (.ok ⟨form, p.current⟩, p.advance)
  | none =>
    if p.isAtEnd then (.error (.unexpectedEndOfInput p.current.pos), p)
    else (.error (.unexpectedToken p.current), p)

def parseExpression (p : Parser) : Except SyntaxError Expr × Parser :=
  let (opened, inside) := p.enter []
  match inside.parsePrimary with
  | (.error e, next) => (.error e, next)
  | (.ok expr, next) =>
    match next.leave opened with
    | (.error e, next) => (.error e, next)
    | (.ok (), next) => (.ok expr, next)

end Parser

def parse (source : String) : Except SyntaxError Expr :=
  (Parser.ofString source).parseExpression.1

end Offside
