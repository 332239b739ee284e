/-! # Bytes of characters

Texts measured by the bytes of their characters in UTF-8. -/

namespace Offside.Text

def byteCount : List Char → Nat
  | [] => 0
  | c :: rest => c.utf8Size + byteCount rest

/-- The characters that lie within the first `n` bytes. -/
def takeBytes : List Char → Nat → List Char
  | [], _ => []
  | c :: rest, n => if c.utf8Size ≤ n then c :: takeBytes rest (n - c.utf8Size) else []

def dropBytes : List Char → Nat → List Char
  | [], _ => []
  | c :: rest, n => if n = 0 then c :: rest else dropBytes rest (n - c.utf8Size)

end Offside.Text
