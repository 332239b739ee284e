/-! # Lowercase names

Names of commands and modes are ASCII and are found in any mix of cases. Of the characters beyond
ASCII only the Kelvin sign U+212A is an ASCII letter in lowercase, so no other one can help to
spell a name, and all others stay as they are. -/

namespace Offside.Text

def lowerChar (c : Char) : Char := if c.toNat = 0x212a then 'k' else c.toLower

def lowercase (cs : List Char) : List Char := cs.map lowerChar

end Offside.Text
