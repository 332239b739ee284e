import Offside.Json
import Offside.Report

/-! # Reports as JSON

A list of reports is one array. What a report holds is told by the name of its second member, and
what a diagnostic holds by its kind. -/

namespace Offside

def Token.toJson (depth : Nat) (t : Token) : String :=
  Json.object depth [
    ("kind", Json.string t.kind.name),
    ("text", Json.string t.text),
    ("line", Json.number t.pos.line),
    ("offset", Json.number t.pos.offset)]

def Expr.toJson (depth : Nat) (e : Expr) : String :=
  Json.object depth [
    ("type", Json.string e.form.name),
    ("token", e.token.toJson (depth + 1))]

def Problem.members : Problem → List (String × String)
  | .unrecognizedCharacter c => [("ch", Json.string (String.singleton c))]
  | .unterminatedString | .unterminatedStringAtEnd => []
  | .inconsistentDedent width landedOn =>
    [("width", Json.number width), ("landed_on", Json.number landedOn)]

def Diagnostic.toJson (depth : Nat) (d : Diagnostic) : String :=
  Json.object depth (("kind", Json.string d.problem.name) :: (d.problem.members ++ [
    ("line", Json.number d.pos.line),
    ("offset", Json.number d.pos.offset)]))

def Outcome.member (depth : Nat) : Outcome → String × String
  | .tokens ts => ("tokens", Json.array depth (ts.map (Token.toJson (depth + 1))))
  | .expr e => ("expr", e.toJson depth)
  | .error message => ("error", Json.string message)

def Report.toJson (depth : Nat) (r : Report) : String :=
  Json.object depth [
    ("source", Json.string r.source),
    r.outcome.member (depth + 1),
    ("diagnostics", Json.array (depth + 1) (r.diagnostics.map (Diagnostic.toJson (depth + 2))))]

def Report.listToJson (reports : List Report) : String :=
  Json.array 0 (reports.map (Report.toJson 1))

end Offside
