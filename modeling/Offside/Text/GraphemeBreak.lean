import Offside.Text.GraphemeBreak.Ranges
import Offside.Text.Ranges

/-! # Grapheme break classes

What a character is, as far as it matters to whether it belongs to the characters before it. -/

namespace Offside.Text

inductive GraphemeBreak where
  | carriageReturn
  | lineFeed
  | control
  | prepend
  | spacingMark
  | extender
  /-- An extender that joins two consonants. -/
  | linker
  /-- An extender that keeps two consonants apart. -/
  | nonJoiner
  /-- An extender that joins two pictographs. -/
  | joiner
  | lead
  | vowel
  | trail
  /-- A Hangul syllable that has no final consonant. -/
  | openSyllable
  /-- A Hangul syllable that has one. -/
  | closedSyllable
  /-- One of the letters of which two make a flag. -/
  | regional
  | pictograph
  | consonant
  | other
  deriving DecidableEq

namespace GraphemeBreak

/-- Classes with their ranges. A linker is among the extenders too, and counts as a linker. -/
def classes : List (GraphemeBreak × List (Nat × Nat)) := [
  (carriageReturn, [(0xd, 0xd)]),
  (lineFeed, [(0xa, 0xa)]),
  (control, controls),
  (prepend, prepends),
  (spacingMark, spacingMarks),
  (nonJoiner, [(0x200c, 0x200c)]),
  (joiner, [(0x200d, 0x200d)]),
  (linker, linkers),
  (extender, extenders),
  (lead, leads),
  (vowel, vowels),
  (trail, trails),
  (regional, [(0x1f1e6, 0x1f1ff)]),
  (pictograph, pictographs),
  (consonant, consonants)]

/-- The class of a Hangul syllable. There are 28 in a row that differ in the final consonant, and the
first of them has none. -/
def ofSyllable (n : Nat) : GraphemeBreak :=
  if (n - 0xac00) % 28 = 0 then openSyllable else closedSyllable

def ofChar (c : Char) : GraphemeBreak :=
  let n := c.toNat
  if 0xac00 ≤ n && n ≤ 0xd7a3 then ofSyllable n
  else ((classes.find? fun k => inRanges n k.2).map Prod.fst).getD other

end GraphemeBreak

end Offside.Text
