import Offside.Text.GraphemeBreak

/-! # Graphemes

A text falls into graphemes, the characters as a reader sees them: a letter with its marks, a
syllable, a flag, a pictograph put together from others. These are the extended grapheme clusters
of Unicode. Whether a character goes on with a grapheme depends on its class and on what the
grapheme ends with. -/

namespace Offside.Text

/-- What a grapheme ends with, as far as it matters to what may follow in it. -/
inductive Tail where
  | carriageReturn
  | control
  | prepend
  | lead
  | vowel
  | trail
  /-- The first half of a flag. -/
  | halfFlag
  /-- A pictograph and extenders. -/
  | pictograph
  /-- A pictograph, extenders, and a joiner. -/
  | joined
  /-- A consonant and extenders. -/
  | consonant
  /-- A consonant and extenders with a linker among them. -/
  | linked
  | other
  deriving DecidableEq

namespace Tail

def takes : Tail → GraphemeBreak → Bool
  | carriageReturn, .lineFeed => true
  | carriageReturn, _ | control, _ => false
  | _, .carriageReturn | _, .lineFeed | _, .control => false
  | prepend, _ => true
  | _, .extender | _, .linker | _, .nonJoiner | _, .joiner | _, .spacingMark => true
  | lead, .lead | lead, .vowel | lead, .openSyllable | lead, .closedSyllable => true
  | vowel, .vowel | vowel, .trail => true
  | trail, .trail => true
  | linked, .consonant => true
  | joined, .pictograph => true
  | halfFlag, .regional => true
  | _, _ => false

/-- What a grapheme ends with once it went on with a character, or once the character began it if it
ended with nothing of note. -/
def next : Tail → GraphemeBreak → Tail
  | _, .carriageReturn => carriageReturn
  | _, .lineFeed | _, .control => control
  | _, .prepend => prepend
  | _, .lead => lead
  | _, .vowel | _, .openSyllable => vowel
  | _, .trail | _, .closedSyllable => trail
  | _, .pictograph => pictograph
  | _, .consonant => consonant
  | halfFlag, .regional => other
  | _, .regional => halfFlag
  | pictograph, .extender | pictograph, .linker | pictograph, .nonJoiner => pictograph
  | pictograph, .joiner => joined
  | consonant, .extender | consonant, .joiner => consonant
  | consonant, .linker => linked
  | linked, .extender | linked, .joiner | linked, .linker => linked
  | _, _ => other

def ofChar (c : Char) : Tail := other.next (.ofChar c)

end Tail

/-- The graphemes of a text behind the start of one, given in reverse with what it ends with. -/
def graphemesFrom (started : List Char) (tail : Tail) : List Char → List (List Char)
  | [] => [started.reverse]
  | c :: rest =>
    let k := GraphemeBreak.ofChar c
    if tail.takes k then graphemesFrom (c :: started) (tail.next k) rest
    else started.reverse :: graphemesFrom [c] (.ofChar c) rest

def graphemes : List Char → List (List Char)
  | [] => []
  | c :: rest => graphemesFrom [c] (.ofChar c) rest

end Offside.Text
