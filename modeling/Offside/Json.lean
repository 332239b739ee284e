/-! # JSON text

The written form of JSON values, one member or element to a line, each level two spaces deeper than
the one around it. Values are built from written parts, and `depth` counts the levels around. -/

namespace Offside.Json

def hexDigit (n : Nat) : Char := (Nat.digitChar (n % 16))

def escape (c : Char) : List Char :=
  if c = '"' then ['\\', '"']
  else if c = '\\' then ['\\', '\\']
  else if c = '\x08' then ['\\', 'b']
  else if c = '\x0c' then ['\\', 'f']
  else if c = '\n' then ['\\', 'n']
  else if c = '\r' then ['\\', 'r']
  else if c = '\t' then ['\\', 't']
  else if c.toNat < 0x20 then ['\\', 'u', '0', '0', hexDigit (c.toNat / 16), hexDigit c.toNat]
  else [c]

def string (s : String) : String :=
  String.ofList ('"' :: (s.toList.flatMap escape ++ ['"']))

def number (n : Nat) : String := toString n

def newline (depth : Nat) : String := String.ofList ('\n' :: List.replicate (2 * depth) ' ')

/-- Items between two brackets, each on its own line; nothing between them if there is no item. -/
def block (opening closing : String) (depth : Nat) (items : List String) : String :=
  match items with
  | [] => opening ++ closing
  | items =>
    opening ++ String.intercalate "," (items.map (newline (depth + 1) ++ ·)) ++ newline depth ++
      closing

def array (depth : Nat) (items : List String) : String := block "[" "]" depth items

def object (depth : Nat) (members : List (String × String)) : String :=
  block "\x7b" "\x7d" depth (members.map fun m => string m.1 ++ ": " ++ m.2)

end Offside.Json
