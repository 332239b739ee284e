import Offside.Toml.Number

/-! # TOML dates and times

A date, a time, or a date with a time behind it, which may have an offset. No setting is a date, so
every reader gives only the characters behind what it read. -/

namespace Offside.Toml

def twoDigits? (low high : Nat) : List Char → Option (Nat × List Char)
  | a :: b :: rest => do
    let n := 10 * (← digit? 10 a) + (← digit? 10 b)
    if low ≤ n && n ≤ high then some (n, rest) else none
  | _ => none

def char? (expected : Char) : List Char → Option (List Char)
  | [] => none
  | c :: rest => if c = expected then some rest else none

def daysIn (year month : Nat) : Nat :=
  if month = 2 then
    if year % 4 = 0 && (year % 100 != 0 || year % 400 = 0) then 29 else 28
  else if [4, 6, 9, 11].contains month then 30 else 31

def date? (cs : List Char) : Option (List Char) := do
  let (century, cs) ← twoDigits? 0 99 cs
  let (year, cs) ← twoDigits? 0 99 cs
  let cs ← char? '-' cs
  let (month, cs) ← twoDigits? 1 12 cs
  let cs ← char? '-' cs
  let (day, cs) ← twoDigits? 1 31 cs
  if day ≤ daysIn (100 * century + year) month then some cs else none

def dropFraction : List Char → List Char
  | '.' :: c :: rest => if c.isDigit then rest.dropWhile Char.isDigit else '.' :: c :: rest
  | cs => cs

/-- A time with seconds, of which there may be 60, and perhaps a fraction of the last one. -/
def time? (cs : List Char) : Option (List Char) := do
  let (_, cs) ← twoDigits? 0 23 cs
  let cs ← char? ':' cs
  let (_, cs) ← twoDigits? 0 59 cs
  let cs ← char? ':' cs
  let (_, cs) ← twoDigits? 0 60 cs
  return dropFraction cs

def offset? : List Char → Option (List Char)
  | [] => none
  | c :: rest =>
    if c = 'Z' || c = 'z' then some rest
    else if c = '+' || c = '-' then do
      let (_, rest) ← twoDigits? 0 23 rest
      let rest ← char? ':' rest
      let (_, rest) ← twoDigits? 0 59 rest
      return rest
    else none

def timeOfDay? : List Char → Option (List Char)
  | [] => none
  | c :: rest =>
    if c = 'T' || c = 't' || c = ' ' then (time? rest).map fun rest => (offset? rest).getD rest
    else none

def dateTime? (cs : List Char) : Option (List Char) :=
  match date? cs with
  | some rest => some ((timeOfDay? rest).getD rest)
  | none => time? cs

end Offside.Toml
