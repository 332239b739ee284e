import Offside.Proofs.Calls

/-! # Stalling

A call that reads an expression moves on, and so does one that misses a closing parenthesis. Any
other call stops at a token that begins no expression and leaves the parser there, with nothing
before the token left to pass over. So does every call behind it: it makes the same complaint and
moves nothing. Tokens run out, so sooner or later all calls are of this last kind. -/

namespace Offside

namespace Parser

def after (p : Parser) (calls : ℕ) : Parser := (fun p => p.parseExpression.2)^[calls] p

def Stalls (p : Parser) (e : SyntaxError) : Prop :=
  ∀ calls, p.after calls = p ∧ (p.after calls).parseExpression = (.error e, p)

def MovesOn : Except SyntaxError Expr → Prop
  | .ok _ => True
  | .error (.missingClosingParen _) => True
  | .error _ => False

/-- All of the first calls move on, and then one makes a complaint that all later ones repeat. -/
def StallsBehind (p : Parser) (calls : ℕ) : Prop :=
  (∀ i < calls, MovesOn (p.after i).parseExpression.1) ∧
    ∃ q, (p.after calls).parseExpression = (.error q.complaint, q) ∧ q.Stalls q.complaint

variable {p : Parser}

theorem after_succ (p : Parser) (calls : ℕ) :
    p.after (calls + 1) = p.parseExpression.2.after calls :=
  Function.iterate_succ_apply _ calls p

theorem stalls_of_stays {e : SyntaxError} (h : p.parseExpression = (.error e, p)) : p.Stalls e := by
  intro calls
  have still : p.after calls = p := Function.iterate_fixed (congrArg Prod.snd h) calls
  exact ⟨still, by rw [still, h]⟩

theorem StallsBehind.succ {calls : ℕ} (moves : MovesOn p.parseExpression.1)
    (h : p.parseExpression.2.StallsBehind calls) : p.StallsBehind (calls + 1) := by
  obtain ⟨moved, stalled⟩ := h
  constructor
  · intro i hi
    cases i with
    | zero => exact moves
    | succ i =>
      rw [after_succ]
      exact moved i (by omega)
  · rwa [after_succ]

/-- No more calls move on than there are tokens to pass. -/
theorem exists_stallsBehind (p : Parser) : ∃ calls ≤ p.budget, p.StallsBehind calls := by
  induction h : p.budget using Nat.strongRecOn generalizing p with
  | ind budget ih =>
    subst h
    have onwards (moves : MovesOn p.parseExpression.1)
        (spent : p.parseExpression.2.budget < p.budget) :
        ∃ calls ≤ p.budget, p.StallsBehind calls := by
      obtain ⟨calls, bound, stalls⟩ := ih _ spent p.parseExpression.2 rfl
      exact ⟨calls + 1, by omega, stalls.succ moves⟩
    have call := called p
    generalize hc : p.parseExpression = result at call onwards
    cases call with
    | read passes hn =>
      have := passes.budget_le
      exact onwards trivial (by simp only; omega)
    | unclosed passes hn =>
      have := passes.budget_le
      exact onwards trivial (by simp only; omega)
    | @stalled n q passes stays =>
      refine ⟨0, Nat.zero_le _, ?_, q, hc, stalls_of_stays stays⟩
      intro i hi
      exact absurd hi (Nat.not_lt_zero i)

end Parser

/-- A call that reads an expression passes a token at least, and one that misses a closing
parenthesis two. Any other error is about the token that is current behind the call, and stays:
all later calls come to the same and leave everything as it is. From any parser there are only so
many calls before one that ends so. -/
theorem parseExpression_stalls (p : Parser) :
    (match p.parseExpression with
      | (.ok _, q) => ∃ n, 1 ≤ n ∧ Parser.Passes n p q
      | (.error (.missingClosingParen _), q) => ∃ n, 2 ≤ n ∧ Parser.Passes n p q
      | (.error (.unexpectedToken t), q) =>
        t = q.current ∧ t.kind ≠ .eof ∧ q.Stalls (.unexpectedToken t)
      | (.error (.unexpectedEndOfInput pos), q) =>
        pos = q.current.pos ∧ q.current.kind = .eof ∧ q.Stalls (.unexpectedEndOfInput pos)) ∧
    ∃ calls ≤ p.budget, p.StallsBehind calls := by
  refine ⟨?_, p.exists_stallsBehind⟩
  have call := p.called
  generalize p.parseExpression = result at call ⊢
  cases call with
  | read passes hn => exact ⟨_, hn, passes⟩
  | unclosed passes hn => exact ⟨_, hn, passes⟩
  | @stalled n q passes stays =>
    have stalls := Parser.stalls_of_stays stays
    by_cases hk : q.current.kind = .eof
    · have complaint : q.complaint = .unexpectedEndOfInput q.current.pos := if_pos hk
      rw [complaint] at stalls ⊢
      exact ⟨rfl, hk, stalls⟩
    · have complaint : q.complaint = .unexpectedToken q.current := if_neg hk
      rw [complaint] at stalls ⊢
      exact ⟨rfl, hk, stalls⟩

end Offside
