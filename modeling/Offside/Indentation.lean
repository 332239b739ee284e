/-! # Indentation

The widths of the open blocks, above a base level of width zero that is always open. Each line with
something on it is measured once against the innermost block:

    a            levels 0
        b        levels 0, 4        one block opens
            c    levels 0, 4, 8     one block opens
    d            levels 0           two blocks close

A line that is less deep than the innermost block closes every deeper block, also when its own
width turns out to match none of those that stay open. -/

namespace Offside

structure Indentation where
  /-- Widths of the blocks above the base level, innermost first. -/
  widths : List Nat
  deriving DecidableEq

namespace Indentation

inductive Fault where
  | notDeeper (requested current : Nat)
  | notShallower (requested current : Nat)
  | misaligned (requested popped landedOn : Nat)
  deriving DecidableEq

def Fault.name : Fault → String
  | notDeeper .. => "NotDeeper"
  | notShallower .. => "NotShallower"
  | misaligned .. => "Misaligned"

def Fault.message : Fault → String
  | notDeeper requested current =>
    s!"Attempted to add a lower indentation level ({requested} <= {current})"
  | notShallower requested current =>
    s!"Attempted to decrease to a value greater than or equal to the current level ({requested} >= {current})"
  | misaligned requested _ _ => s!"Indentation of {requested} matches no enclosing level"

inductive Change where
  | unchanged
  | indent
  | dedent (count : Nat)
  deriving DecidableEq

def base : Indentation := ⟨[]⟩

def current (i : Indentation) : Nat := i.widths.headD 0

/-- The number of levels, the base level included. -/
def depth (i : Indentation) : Nat := i.widths.length + 1

def levels (i : Indentation) : List Nat := 0 :: i.widths.reverse

def increaseTo (i : Indentation) (width : Nat) : Except Fault Unit × Indentation :=
  if width ≤ i.current then (.error (.notDeeper width i.current), i)
  else (.ok (), ⟨width :: i.widths⟩)

/-- Closes the blocks deeper than `width` and says how many there were. They stay closed when no
level is left of just that width, which is a fault. -/
def decreaseTo (i : Indentation) (width : Nat) : Except Fault Nat × Indentation :=
  if i.current ≤ width then (.error (.notShallower width i.current), i)
  else
    let kept : Indentation := ⟨i.widths.dropWhile (width < ·)⟩
    let popped := (i.widths.takeWhile (width < ·)).length
    if kept.current = width then (.ok popped, kept)
    else (.error (.misaligned width popped kept.current), kept)

def measure (i : Indentation) (width : Nat) : Except Fault Change × Indentation :=
  if i.current < width then
    let opened := i.increaseTo width
    (opened.1.map fun _ => .indent, opened.2)
  else if width < i.current then
    let closed := i.decreaseTo width
    (closed.1.map .dedent, closed.2)
  else (.ok .unchanged, i)

theorem measure_eq (i : Indentation) (width : Nat) :
    i.measure width =
      if i.current < width then (.ok .indent, ⟨width :: i.widths⟩)
      else if width < i.current then
        let kept : Indentation := ⟨i.widths.dropWhile (width < ·)⟩
        let popped := (i.widths.takeWhile (width < ·)).length
        (if kept.current = width then .ok (.dedent popped)
          else .error (.misaligned width popped kept.current), kept)
      else (.ok .unchanged, i) := by
  unfold measure
  split
  · next h => simp [increaseTo, Nat.not_le.2 h, Except.map]
  · split
    · next h =>
      simp only [decreaseTo, Nat.not_le.2 h, if_false]
      split <;> rfl
    · rfl

end Indentation

end Offside
