import Offside.Toml.DateTime
import Offside.Toml.Document
import Offside.Toml.Quotation

/-! # Reading TOML

A text is read line by line: blank lines, headers, and pairs of a key and a value, each with a
comment behind it if need be. Neither a path of keys nor values in values may reach a depth of
80. -/

namespace Offside.Toml

def depthLimit : Nat := 80

def dropSpaces (cs : List Char) : List Char := cs.dropWhile isSpace

/-- Passes spaces, ends of lines and comments; `comment` tells that a comment goes on. -/
def dropGaps? (comment : Bool) : List Char → Option (List Char)
  | [] => some []
  | '\n' :: rest => dropGaps? false rest
  | '\r' :: '\n' :: rest => dropGaps? false rest
  | c :: rest =>
    if comment then if isPlain c then dropGaps? true rest else none
    else if isSpace c then dropGaps? false rest
    else if c == '#' then dropGaps? true rest
    else some (c :: rest)

def endLine? (cs : List Char) : Option (List Char) :=
  match dropSpaces cs with
  | [] => some []
  | '#' :: rest => dropGaps? true rest
  | '\n' :: rest => dropGaps? false rest
  | '\r' :: '\n' :: rest => dropGaps? false rest
  | _ => none

def isBareKey (c : Char) : Bool := c.isAlphanum || c == '_' || c == '-'

def simpleKey? (cs : List Char) : Option (String × List Char) :=
  match lineString? cs with
  | some r => some r
  | none =>
    match cs.takeWhile isBareKey with
    | [] => none
    | key => some (String.ofList key, cs.drop key.length)

def keysFrom? (fuel : Nat) (cs : List Char) : Option (List String × List Char) :=
  match fuel with
  | 0 => none
  | fuel + 1 =>
    match simpleKey? (dropSpaces cs) with
    | none => none
    | some (key, rest) =>
      match dropSpaces rest with
      | '.' :: more => (keysFrom? fuel more).map fun r => (key :: r.1, r.2)
      | rest => some ([key], rest)

def key? (cs : List Char) : Option (List String × List Char) := keysFrom? (depthLimit - 1) cs

def isBareValue (c : Char) : Bool :=
  c.isAlphanum || c == '_' || c == '+' || c == '-' || c == '.'

def ofWord? (word : List Char) : Option Node :=
  if word = ['t', 'r', 'u', 'e'] then some (.boolean true)
  else if word = ['f', 'a', 'l', 's', 'e'] then some (.boolean false)
  else
    match integer? word with
    | some n => if inRange n then some (.integer n) else none
    | none => if isFloat word then some .float else none

def scalar? (cs : List Char) : Option (Node × List Char) :=
  match string? cs with
  | some (text, rest) => some (.string text, rest)
  | none =>
    match dateTime? cs with
    | some rest => some (.dateTime, rest)
    | none =>
      let word := cs.takeWhile isBareValue
      (ofWord? word).map fun node => (node, cs.drop word.length)

mutual

/-- A value with at most `depth` values around one another in it. -/
def value? (fuel depth : Nat) (cs : List Char) : Option (Value × List Char) :=
  match fuel, depth, cs with
  | 0, _, _ => none
  | fuel + 1, depth, '[' :: rest =>
    match depth with
    | 0 => none
    | depth + 1 => (elements? fuel depth rest).map fun r => (⟨.array r.1, .empty⟩, r.2)
  | fuel + 1, depth, '\x7b' :: rest =>
    match depth with
    | 0 => none
    | depth + 1 =>
      match dropSpaces rest with
      | '\x7d' :: rest => some (⟨.table .braces, .empty⟩, rest)
      | cs => (pairs? fuel depth .empty cs).map fun r => (⟨.table .braces, r.1⟩, r.2)
  | _, _, cs => (scalar? cs).map fun r => (⟨r.1, .empty⟩, r.2)

def elements? (fuel depth : Nat) (cs : List Char) : Option (Nat × List Char) :=
  match fuel with
  | 0 => none
  | fuel + 1 =>
    match dropGaps? false cs with
    | none => none
    | some (']' :: rest) => some (0, rest)
    | some cs =>
      match value? fuel depth cs with
      | none => none
      | some (_, rest) =>
        match dropGaps? false rest with
        | some (',' :: rest) => (elements? fuel depth rest).map fun r => (r.1 + 1, r.2)
        | some (']' :: rest) => some (1, rest)
        | _ => none

def pairs? (fuel depth : Nat) (d : Document) (cs : List Char) : Option (Document × List Char) :=
  match fuel with
  | 0 => none
  | fuel + 1 =>
    match key? cs with
    | some (key, '=' :: rest) =>
      match value? fuel depth (dropSpaces rest) with
      | none => none
      | some (v, rest) =>
        match d.addValue? [] key v, dropSpaces rest with
        | some d, ',' :: rest => pairs? fuel depth d rest
        | some d, '\x7d' :: rest => some (d, rest)
        | _, _ => none
    | _ => none

end

def line? (d : Document) (table : List String) (cs : List Char) :
    Option (Document × List String × List Char) :=
  match cs with
  | '[' :: '[' :: rest =>
    match key? rest with
    | some (path, ']' :: ']' :: rest) => do
      return (← d.addElement? path, path, ← endLine? rest)
    | _ => none
  | '[' :: rest =>
    match key? rest with
    | some (path, ']' :: rest) => do
      return (← d.addTable? path, path, ← endLine? rest)
    | _ => none
  | cs =>
    match key? cs with
    | some (key, '=' :: rest) => do
      let (v, rest) ← value? (2 * cs.length + 2) (depthLimit - 1) (dropSpaces rest)
      return (← d.addValue? table key v, table, ← endLine? rest)
    | _ => none

def lines? (fuel : Nat) (d : Document) (table : List String) (cs : List Char) :
    Option Document :=
  match fuel, cs with
  | _, [] => some d
  | 0, _ => none
  | fuel + 1, cs =>
    match line? d table cs with
    | none => none
    | some (d, table, rest) => lines? fuel d table rest

def withoutMark : List Char → List Char
  | '\ufeff' :: cs => cs
  | cs => cs

/-- The document that a text is, if it is one; a byte order mark in front is passed over. -/
def parse? (text : String) : Option Document :=
  let cs := withoutMark text.toList
  match dropGaps? false cs with
  | none => none
  | some cs => lines? (cs.length + 1) .empty [] cs

end Offside.Toml
