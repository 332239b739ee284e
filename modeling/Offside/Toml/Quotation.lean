import Offside.Toml.Number

/-! # TOML strings

A string stands between marks. Between quotation marks it has escapes, between apostrophes it has
none. Between threefold marks it may go over several lines. Every reader takes the characters ahead
and gives the text that was meant with the characters behind, or nothing. -/

namespace Offside.Toml

def isPlain (c : Char) : Bool := c == '\t' || (0x20 ≤ c.toNat && c.toNat != 0x7f)

def isSpace (c : Char) : Bool := c == ' ' || c == '\t'

def escape? (c : Char) : Option Char :=
  if c = 'b' then some '\x08'
  else if c = 't' then some '\t'
  else if c = 'n' then some '\n'
  else if c = 'f' then some '\x0c'
  else if c = 'r' then some '\r'
  else if c = '"' then some '"'
  else if c = '\\' then some '\\'
  else none

def codePoint? (hex : List Char) : Option Char :=
  match hex.mapM (digit? 16) with
  | none => none
  | some ds =>
    let n := ofDigits 16 ds
    if n.isValidChar then some (Char.ofNat n) else none

/-- The character whose code point the next `length` characters spell, and the length of the escape,
which has one more character in front. -/
def hexEscape? (length : Nat) (cs : List Char) : Option (Char × Nat) :=
  let hex := cs.take length
  if hex.length = length then (codePoint? hex).map fun c => (c, length + 1) else none

def escaped? : List Char → Option (Char × Nat)
  | [] => none
  | c :: rest =>
    if c = 'u' then hexEscape? 4 rest
    else if c = 'U' then hexEscape? 8 rest
    else (escape? c).map fun meant => (meant, 1)

def lineEnd? : List Char → Option (List Char)
  | '\n' :: rest => some rest
  | '\r' :: '\n' :: rest => some rest
  | _ => none

def blankLength : List Char → Nat
  | '\n' :: rest => blankLength rest + 1
  | '\r' :: '\n' :: rest => blankLength rest + 2
  | c :: rest => if isSpace c then blankLength rest + 1 else 0
  | [] => 0

/-- What a backslash at the end of a line leaves out: the rest of the line, and the next ones up
to something that is not blank. -/
def continuation? (cs : List Char) : Option Nat :=
  (lineEnd? (cs.dropWhile isSpace)).map fun _ => blankLength cs

structure Quotation where
  mark : Char
  hasEscapes : Bool
  /-- Whether the marks are threefold. -/
  hasLines : Bool
  deriving DecidableEq

namespace Quotation

def basic : Quotation := ⟨'"', true, false⟩

def literal : Quotation := ⟨'\'', false, false⟩

def overLines (q : Quotation) : Quotation := { q with hasLines := true }

def meant? (q : Quotation) (cs : List Char) : Option (List Char × Nat) :=
  match if q.hasLines then continuation? cs else none with
  | some n => some ([], n)
  | none => (escaped? cs).map fun e => ([e.1], e.2)

/-- The end of a quotation, behind its first closing mark. Of threefold marks two more may stand in
front, which belong to the text. -/
def end? (q : Quotation) (cs : List Char) : Option (List Char × List Char) :=
  if q.hasLines then
    if cs.take 2 = [q.mark, q.mark] then
      let extra := min 2 ((cs.drop 2).takeWhile (· == q.mark)).length
      some (List.replicate extra q.mark, cs.drop (2 + extra))
    else none
  else some ([], cs)

inductive Look where
  /-- The quotation ends, with the last of the text and what is behind it. -/
  | ends (text rest : List Char)
  /-- Text is meant, also by as many of the next characters. -/
  | means (text : List Char) (more : Nat)

def look? (q : Quotation) (c : Char) (rest : List Char) : Option Look :=
  if c = q.mark then
    match q.end? rest with
    | some (text, rest) => some (.ends text rest)
    | none => some (.means [c] 0)
  else if q.hasEscapes && c = '\\' then (q.meant? rest).map fun m => .means m.1 m.2
  else if q.hasLines && c = '\n' then some (.means [c] 0)
  else if q.hasLines && c = '\r' && rest.head? = some '\n' then some (.means [] 0)
  else if isPlain c then some (.means [c] 0)
  else none

def body? (q : Quotation) (skip : Nat) : List Char → Option (List Char × List Char)
  | [] => none
  | c :: rest =>
    match skip with
    | skip + 1 => q.body? skip rest
    | 0 =>
      match q.look? c rest with
      | none => none
      | some (.ends text rest) => some (text, rest)
      | some (.means text more) => (q.body? more rest).map fun r => (text ++ r.1, r.2)

end Quotation

def quotation? (c : Char) : Option Quotation :=
  [Quotation.basic, Quotation.literal].find? fun q => q.mark == c

def lineString? : List Char → Option (String × List Char)
  | [] => none
  | c :: rest => do
    let r ← (← quotation? c).body? 0 rest
    return (String.ofList r.1, r.2)

/-- A string on one line or over several. An end of line right behind threefold marks is not in the
text. -/
def string? : List Char → Option (String × List Char)
  | [] => none
  | c :: rest => do
    let q ← quotation? c
    if rest.take 2 = [c, c] then
      let rest := rest.drop 2
      let r ← q.overLines.body? 0 ((lineEnd? rest).getD rest)
      return (String.ofList r.1, r.2)
    else lineString? (c :: rest)

end Offside.Toml
