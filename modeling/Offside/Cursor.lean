import Offside.Token

/-! # Cursors

A cursor is a place in a text: what is left to read, the position reached, and whether a line has
just begun. The flag is set by reading a newline and cleared only on request, so that a caller can
tell the first look at a line from the later ones. -/

namespace Offside

structure Cursor where
  rest : List Char
  pos : Position
  atLineStart : Bool
  deriving DecidableEq

structure StartPastEnd where
  start : Nat
  length : Nat
  deriving DecidableEq

def StartPastEnd.message (e : StartPastEnd) : String :=
  s!"start position {e.start} is past the end of the input ({e.length} characters)"

namespace Cursor

def ofList (text : List Char) : Cursor := ⟨text, .zero, true⟩

/-- A cursor at character `pos.offset` of a text, which is taken to be on line `pos.line`. -/
def startAt (text : List Char) (pos : Position) : Except StartPastEnd Cursor :=
  if text.length < pos.offset then .error ⟨pos.offset, text.length⟩
  else .ok ⟨text.drop pos.offset, pos,
    pos.offset = 0 || text[pos.offset - 1]? == some '\n'⟩

def length (c : Cursor) : Nat := c.pos.offset + c.rest.length

def isEmpty (c : Cursor) : Bool := c.length == 0

def hasNext (c : Cursor) : Bool := !c.rest.isEmpty

def peek (c : Cursor) : Option Char := c.rest.head?

/-- The `k`-th character to come, counted from one. -/
def peekNth (c : Cursor) (k : Nat) : Option Char := c.rest[k - 1]?

def next (c : Cursor) : Cursor :=
  match c.rest with
  | [] => c
  | ch :: rest => ⟨rest, c.pos.next ch, c.atLineStart || ch == '\n'⟩

def skip (c : Cursor) : Nat → Cursor
  | 0 => c
  | n + 1 => c.next.skip n

def advance (c : Cursor) : Option Char × Cursor := (c.peek, c.next)

def advanceIf (p : Char → Bool) (c : Cursor) : Option Char × Cursor :=
  if c.peek.any p then c.advance else (none, c)

def eatWhile (p : Char → Bool) (c : Cursor) : Nat × Cursor :=
  let n := (c.rest.takeWhile p).length
  (n, c.skip n)

def eatSpaces (c : Cursor) : Nat × Cursor := c.eatWhile (· == ' ')

def eatNewlines (c : Cursor) : Nat × Cursor := c.eatWhile (· == '\n')

def leaveLineStart (c : Cursor) : Cursor := { c with atLineStart := false }

structure Checkpoint where
  rest : List Char
  pos : Position
  deriving DecidableEq

def checkpoint (c : Cursor) : Checkpoint := ⟨c.rest, c.pos⟩

/-- Goes back; whether a line has just begun stays as it was. -/
def rewind (c : Cursor) (k : Checkpoint) : Cursor := { c with rest := k.rest, pos := k.pos }

@[simp] theorem next_rest (c : Cursor) : c.next.rest = c.rest.tail := by
  unfold next
  split <;> simp_all

@[simp] theorem skip_zero (c : Cursor) : c.skip 0 = c := rfl

theorem skip_succ (c : Cursor) (n : Nat) : c.skip (n + 1) = c.next.skip n := rfl

@[simp] theorem skip_rest (c : Cursor) (n : Nat) : (c.skip n).rest = c.rest.drop n := by
  induction n generalizing c with
  | zero => rfl
  | succ n ih => simp [skip_succ, ih]

theorem skip_pos (c : Cursor) (n : Nat) : (c.skip n).pos = c.pos.after (c.rest.take n) := by
  induction n generalizing c with
  | zero => rfl
  | succ n ih =>
    rw [skip_succ, ih]
    unfold next
    split
    · next h => simp [h]
    · next ch rest h => simp [h, Position.after]

end Cursor

structure Draft where
  text : String
  pos : Position

namespace Draft

def begin (c : Cursor) : Draft := ⟨"", c.pos⟩

def push (d : Draft) (ch : Char) : Draft := { d with text := d.text.push ch }

def finish (d : Draft) (kind : TokenKind) : Token := ⟨kind, d.text, d.pos⟩

end Draft

end Offside
