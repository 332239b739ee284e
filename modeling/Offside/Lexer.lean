import Offside.Indentation
import Offside.Lexeme.Reading

/-! # The lexer

A lexer is a cursor and the open blocks. One step looks at what is next: it reads a lexeme, or
passes over space, or measures the line that begins, or reports a character that begins nothing.
Every step but the last uses up some of a budget, which bounds the tokens still to come. -/

namespace Offside

structure Lexer where
  cursor : Cursor
  blocks : Indentation
  deriving DecidableEq

inductive Step where
  /-- Nothing is left to read. -/
  | exhausted (next : Lexer)
  /-- Tokens and reports, perhaps none, and where to go on. -/
  | found (tokens : List Token) (diagnostics : List Diagnostic) (next : Lexer)
  deriving DecidableEq

namespace Lexer

def start (cursor : Cursor) : Lexer := ⟨cursor, .base⟩

def measureLine (l : Lexer) (width : Nat) : Step :=
  let here := l.cursor.pos
  let measured := l.blocks.measure width
  let next : Lexer := ⟨l.cursor.leaveLineStart, measured.2⟩
  match measured.1 with
  | .ok .unchanged => .found [] [] next
  | .ok .indent => .found [.synthetic .indent here] [] next
  | .ok (.dedent count) => .found (List.replicate count (.synthetic .dedent here)) [] next
  | .error (.misaligned requested popped landedOn) =>
    .found (List.replicate popped (.synthetic .dedent here))
      [⟨.inconsistentDedent requested landedOn, here⟩] next
  | .error _ => .found [] [] next

/-- The spaces that begin a line. A line without anything else on it has no layout. -/
def beginLine (l : Lexer) : Step :=
  let eaten := l.cursor.eatSpaces
  let next := { l with cursor := eaten.2 }
  match eaten.2.peek with
  | none => .exhausted next
  | some ch =>
    if ch = '\n' then .found [] [] { l with cursor := eaten.2.eatNewlines.2 }
    else next.measureLine eaten.1

def readLexeme (l : Lexer) (ch : Char) : Step :=
  match Lexeme.read? l.cursor.rest with
  | some lexeme =>
    let taken := l.cursor.take lexeme
    .found [taken.1] taken.2.1 { l with cursor := taken.2.2 }
  | none =>
    .found [] [⟨.unrecognizedCharacter ch, l.cursor.pos⟩] { l with cursor := l.cursor.next }

def step (l : Lexer) : Step :=
  match l.cursor.peek with
  | none => .exhausted l
  | some ch =>
    if l.cursor.atLineStart = false ∧ ch = ' ' then
      .found [] [] { l with cursor := l.cursor.eatSpaces.2 }
    else if l.cursor.atLineStart = true ∧ (ch = ' ' ∨ 0 < l.blocks.current) then l.beginLine
    else if ch = '\n' then .found [] [] { l with cursor := l.cursor.eatNewlines.2 }
    else readLexeme { l with cursor := l.cursor.leaveLineStart } ch

inductive Stepped (l : Lexer) : Step → Prop where
  | ended (hp : l.cursor.peek = none) : Stepped l (.exhausted l)
  | spaces (hs : l.cursor.atLineStart = false) (hp : l.cursor.peek = some ' ') :
      Stepped l (.found [] [] { l with cursor := l.cursor.eatSpaces.2 })
  | newlines (hp : l.cursor.peek = some '\n') :
      Stepped l (.found [] [] { l with cursor := l.cursor.eatNewlines.2 })
  | lastMargin (hs : l.cursor.atLineStart = true) (hp : l.cursor.eatSpaces.2.peek = none) :
      Stepped l (.exhausted { l with cursor := l.cursor.eatSpaces.2 })
  | blankLine (hs : l.cursor.atLineStart = true) (hp : l.cursor.eatSpaces.2.peek = some '\n') :
      Stepped l (.found [] [] { l with cursor := l.cursor.eatSpaces.2.eatNewlines.2 })
  | line {c : Char} (hs : l.cursor.atLineStart = true)
      (hp : l.cursor.eatSpaces.2.peek = some c) (hn : c ≠ '\n') :
      Stepped l (measureLine { l with cursor := l.cursor.eatSpaces.2 } l.cursor.eatSpaces.1)
  | lexeme {c : Char} {lexeme : Lexeme} (hp : l.cursor.peek = some c) (hb : c ≠ ' ')
      (hn : c ≠ '\n') (h0 : l.cursor.atLineStart = true → l.blocks.current = 0)
      (hr : Lexeme.read? l.cursor.rest = some lexeme) :
      Stepped l (.found [lexeme.token l.cursor.pos] (lexeme.diagnostics l.cursor.leaveLineStart)
        { l with cursor := l.cursor.leaveLineStart.skip lexeme.extent })
  | stray {c : Char} (hp : l.cursor.peek = some c) (hb : c ≠ ' ') (hn : c ≠ '\n')
      (h0 : l.cursor.atLineStart = true → l.blocks.current = 0)
      (hr : Lexeme.read? l.cursor.rest = none) :
      Stepped l (.found [] [⟨.unrecognizedCharacter c, l.cursor.pos⟩]
        { l with cursor := l.cursor.leaveLineStart.next })

theorem stepped_beginLine {l : Lexer} (hs : l.cursor.atLineStart = true) :
    l.Stepped l.beginLine := by
  unfold beginLine
  simp only
  split
  · next hp => exact .lastMargin hs hp
  · next c hp =>
    split
    · next hn =>
      subst hn
      exact .blankLine hs hp
    · next hn => exact .line hs hp hn

theorem stepped_readLexeme {l : Lexer} {c : Char} (hp : l.cursor.peek = some c) (hb : c ≠ ' ')
    (hn : c ≠ '\n') (h0 : l.cursor.atLineStart = true → l.blocks.current = 0) :
    l.Stepped (readLexeme { l with cursor := l.cursor.leaveLineStart } c) := by
  unfold readLexeme
  split
  · next hr => exact .lexeme hp hb hn h0 hr
  · next hr => exact .stray hp hb hn h0 hr

theorem stepped (l : Lexer) : l.Stepped l.step := by
  unfold step
  split
  · next hp => exact .ended hp
  · next c hp =>
    split
    · next hc =>
      obtain ⟨hs, rfl⟩ := hc
      exact .spaces hs hp
    · next hspace =>
      split
      · next hc => exact stepped_beginLine hc.1
      · next hline =>
        split
        · next hn =>
          subst hn
          exact .newlines hp
        · next hn =>
          have hb : c ≠ ' ' := by
            rintro rfl
            cases hs : l.cursor.atLineStart with
            | true => exact hline ⟨hs, .inl rfl⟩
            | false => exact hspace ⟨hs, rfl⟩
          have h0 (hs : l.cursor.atLineStart = true) : l.blocks.current = 0 := by
            have level : ¬ 0 < l.blocks.current := fun deeper => hline ⟨hs, .inr deeper⟩
            omega
          exact stepped_readLexeme hp hb hn h0

def budget (l : Lexer) : Nat :=
  2 * (2 * l.cursor.rest.length + if l.cursor.atLineStart then 1 else 0) + l.blocks.widths.length

end Lexer

end Offside
