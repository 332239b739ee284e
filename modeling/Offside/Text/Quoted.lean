import Offside.Text.Hidden

/-! # Quoted text

A quoted text shows every character: the quotation mark in use, the backslash and the hidden
characters appear as escapes, and all else stands for itself. No control character is left. -/

namespace Offside.Text

def codePointEscape (c : Char) : List Char :=
  '\\' :: 'u' :: '\x7b' :: (Nat.toDigits 16 c.toNat ++ ['\x7d'])

def escapeIn (mark c : Char) : List Char :=
  if c = '\x00' then ['\\', '0']
  else if c = '\t' then ['\\', 't']
  else if c = '\r' then ['\\', 'r']
  else if c = '\n' then ['\\', 'n']
  else if c = '\\' then ['\\', '\\']
  else if c = mark then ['\\', mark]
  else if isHidden c then codePointEscape c
  else [c]

def quoted (mark : Char) (cs : List Char) : List Char :=
  mark :: (cs.flatMap (escapeIn mark) ++ [mark])

def quotedString (s : String) : String := String.ofList (quoted '"' s.toList)

def quotedChar (c : Char) : String := String.ofList (quoted '\'' [c])

end Offside.Text
