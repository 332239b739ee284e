/-! # TOML numbers

Digits may have single underscores between them. An integer has a range, and a positive number
with a fraction or an exponent must not round to infinity. -/

namespace Offside.Toml

def digit? (base : Nat) (c : Char) : Option Nat :=
  let n :=
    if '0' ≤ c && c ≤ '9' then c.toNat - '0'.toNat
    else if 'a' ≤ c && c ≤ 'f' then c.toNat - 'a'.toNat + 10
    else if 'A' ≤ c && c ≤ 'F' then c.toNat - 'A'.toNat + 10
    else base
  if n < base then some n else none

def digits? (base : Nat) (afterDigit : Bool) : List Char → Option (List Nat)
  | [] => if afterDigit then some [] else none
  | '_' :: rest => if afterDigit then digits? base false rest else none
  | c :: rest =>
    match digit? base c with
    | none => none
    | some d => (digits? base true rest).map (d :: ·)

def ofDigits (base : Nat) (ds : List Nat) : Nat := ds.foldl (fun n d => n * base + d) 0

/-- Decimal digits that begin with zero only if zero is all there is. -/
def decimal? (cs : List Char) : Option (List Nat) :=
  match digits? 10 false cs with
  | some (0 :: _ :: _) => none
  | ds => ds

def unsigned : List Char → List Char
  | '+' :: rest => rest
  | '-' :: rest => rest
  | cs => cs

def signed? (read : List Char → Option (List Nat)) (cs : List Char) : Option Int :=
  (read (unsigned cs)).map fun ds =>
    let n : Int := ofDigits 10 ds
    if cs.head? = some '-' then -n else n

def integer? : List Char → Option Int
  | '0' :: 'x' :: rest => (digits? 16 false rest).map fun ds => ofDigits 16 ds
  | '0' :: 'o' :: rest => (digits? 8 false rest).map fun ds => ofDigits 8 ds
  | '0' :: 'b' :: rest => (digits? 2 false rest).map fun ds => ofDigits 2 ds
  | cs => signed? decimal? cs

def inRange (n : Int) : Bool := -9223372036854775808 ≤ n && n ≤ 9223372036854775807

structure FloatLiteral where
  negative : Bool
  whole : List Nat
  fraction : List Nat
  exponent : Int
  deriving DecidableEq

namespace FloatLiteral

def isExponentMark (c : Char) : Bool := c == 'e' || c == 'E'

def read? (cs : List Char) : Option FloatLiteral := do
  let body := unsigned cs
  let mantissa := body.takeWhile fun c => !isExponentMark c
  let exponentPart := body.drop mantissa.length
  let wholePart := mantissa.takeWhile (· != '.')
  let fractionPart := mantissa.drop wholePart.length
  if fractionPart.isEmpty && exponentPart.isEmpty then none
  let whole ← decimal? wholePart
  let fraction ←
    if fractionPart.isEmpty then some [] else digits? 10 false (fractionPart.drop 1)
  let exponent ←
    if exponentPart.isEmpty then some 0 else signed? (digits? 10 false) (exponentPart.drop 1)
  return { negative := cs.head? == some '-', whole, fraction, exponent }

/-- The least number that rounds to infinity: it is halfway from the largest number of double
precision to where the next one would be. -/
def infinityFrom : Nat := Nat.pow 2 1024 - Nat.pow 2 970

/-- Whether the number rounds to infinity when its sign is left aside. Only a number of 309 digits
before the point has to be compared with the bound. -/
def overflows (f : FloatLiteral) : Bool :=
  let digits := (f.whole ++ f.fraction).dropWhile (· == 0)
  let scale := f.exponent - f.fraction.length
  let magnitude := digits.length + scale
  if digits.isEmpty || magnitude < 309 then false
  else if 309 < magnitude then true
  else infinityFrom * Nat.pow 10 (-scale).toNat ≤ ofDigits 10 digits * Nat.pow 10 scale.toNat

end FloatLiteral

def isFloat (word : List Char) : Bool :=
  let body := unsigned word
  body == ['i', 'n', 'f'] || body == ['n', 'a', 'n'] ||
    (FloatLiteral.read? word).any fun f => f.negative || !f.overflows

end Offside.Toml
