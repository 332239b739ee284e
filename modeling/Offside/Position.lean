/-! # Positions

Lines and offsets count from zero, and an offset counts characters from the start of the text.
Every token and every report of a problem carries one position. -/

namespace Offside

structure Position where
  line : Nat
  offset : Nat
  deriving DecidableEq

namespace Position

def zero : Position := ⟨0, 0⟩

def next (p : Position) (c : Char) : Position :=
  ⟨if c = '\n' then p.line + 1 else p.line, p.offset + 1⟩

def after (p : Position) (cs : List Char) : Position := cs.foldl next p

/-- The same place in a text that begins at `base` of another one. -/
def shift (base p : Position) : Position := ⟨base.line + p.line, base.offset + p.offset⟩

theorem after_append (p : Position) (xs ys : List Char) :
    p.after (xs ++ ys) = (p.after xs).after ys := by
  simp [after]

theorem after_offset (p : Position) (cs : List Char) :
    (p.after cs).offset = p.offset + cs.length := by
  induction cs generalizing p with
  | nil => rfl
  | cons c cs ih =>
    have h := ih (p.next c)
    simp only [after, List.foldl_cons, List.length_cons, next] at h ⊢
    omega

theorem after_line (p : Position) (cs : List Char) :
    (p.after cs).line = p.line + cs.count '\n' := by
  induction cs generalizing p with
  | nil => rfl
  | cons c cs ih =>
    have h := ih (p.next c)
    by_cases hc : c = '\n'
    · subst hc
      simp only [after, List.foldl_cons, List.count_cons_self, next, if_true] at h ⊢
      omega
    · simp only [after, List.foldl_cons, next, hc, if_false] at h ⊢
      rw [List.count_cons_of_ne hc]
      omega

end Position

end Offside
