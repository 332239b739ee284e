import Offside.Proofs.Descent

/-! # Calls

What one call that reads an expression passes over on its way through the tokens, and what it comes
to. The way in passes whatever may stand before an expression, and the way out the parentheses that
were opened. A call never passes the end of the text. -/

namespace Offside.Parser

inductive Passes : ℕ → Parser → Parser → Prop where
  | none (p) : Passes 0 p p
  | some {n p q} (hk : p.current.kind ≠ .eof) : Passes n p.advance q → Passes (n + 1) p q

def complaint (p : Parser) : SyntaxError :=
  if p.current.kind = .eof then .unexpectedEndOfInput p.current.pos else .unexpectedToken p.current

variable {p q r : Parser} {m n : ℕ}

theorem passes_one (hk : p.current.kind ≠ .eof) : Passes 1 p p.advance := .some hk (.none _)

theorem Passes.trans (h : Passes m p q) (k : Passes n q r) : Passes (m + n) p r := by
  induction h with
  | none => rwa [Nat.zero_add]
  | some hk _ ih =>
    rw [Nat.add_right_comm]
    exact .some hk (ih k)

theorem Passes.budget_le (h : Passes n p q) : q.budget + n ≤ p.budget := by
  induction h with
  | none => exact Nat.le_refl _
  | some hk _ ih =>
    have := advance_budget hk
    omega

/-- What is kept by passing one token is kept by passing any number. -/
theorem Passes.keeps {P : Parser → Prop}
    (moves : ∀ p, P p → p.current.kind ≠ .eof → P p.advance) (h : Passes n p q) (hp : P p) :
    P q := by
  induction h with
  | none => exact hp
  | some hk _ ih => exact ih (moves _ hp hk)

structure Entered (p : Parser) : Prop where
  indent : p.current.kind ≠ .indent
  dedent : p.current.kind ≠ .dedent
  opening : p.current.kind ≠ .opening .paren

/-- Each parenthesis that is opened on the way in is a token passed. -/
theorem enter_passes (p : Parser) (opened : List Position) :
    ∃ n, Passes n p (p.enter opened).2 ∧ (p.enter opened).1.length ≤ opened.length + n ∧
      (p.enter opened).2.Entered := by
  fun_induction enter p opened with
  | case1 p opened hk ih | case2 p opened hk ih =>
    obtain ⟨n, passes, length, entered⟩ := ih
    exact ⟨n + 1, .some (by simp [hk]) passes, by omega, entered⟩
  | case3 p opened hk ih =>
    obtain ⟨n, passes, length, entered⟩ := ih
    rw [List.length_cons] at length
    exact ⟨n + 1, .some (by simp [hk]) passes, by omega, entered⟩
  | case4 p opened hi hd ho => exact ⟨0, .none p, by simp, hi, hd, ho⟩

theorem leave_passes (p : Parser) (opened : List Position) :
    ∃ n, Passes n p (p.leave opened).2 ∧
      ((p.leave opened).1 = .ok () ∨
        ∃ pos ∈ opened, (p.leave opened).1 = .error (.missingClosingParen pos)) := by
  induction opened generalizing p with
  | nil => exact ⟨0, .none p, .inl rfl⟩
  | cons pos opened ih =>
    rw [leave]
    by_cases hk : p.current.kind = .closing .paren
    · obtain ⟨n, passes, result⟩ := ih p.advance
      rw [if_pos hk]
      refine ⟨n + 1, .some (by simp [hk]) passes, result.imp_right ?_⟩
      rintro ⟨missing, mem, error⟩
      exact ⟨missing, List.mem_cons_of_mem pos mem, error⟩
    · rw [if_neg hk]
      exact ⟨0, .none p, .inr ⟨pos, List.mem_cons_self, rfl⟩⟩

theorem parsePrimary_cases (p : Parser) :
    (∃ expr, p.parsePrimary = (.ok expr, p.advance) ∧ p.current.kind ≠ .eof) ∨
      p.parsePrimary = (.error p.complaint, p) := by
  rw [parsePrimary]
  split
  · next form hf =>
    refine .inl ⟨_, rfl, ?_⟩
    intro hk
    simp [hk, Expr.Form.ofKind?] at hf
  · right
    by_cases hk : p.current.kind = .eof
    · simp [complaint, isAtEnd, hk]
    · simp [complaint, isAtEnd, hk]

inductive Called (p : Parser) : Except SyntaxError Expr × Parser → Prop where
  | read {n : ℕ} {expr : Expr} {q : Parser} (passes : Passes n p q) (hn : 1 ≤ n) :
      Called p (.ok expr, q)
  | unclosed {n : ℕ} {pos : Position} {q : Parser} (passes : Passes n p q) (hn : 2 ≤ n) :
      Called p (.error (.missingClosingParen pos), q)
  | stalled {n : ℕ} {q : Parser} (passes : Passes n p q)
      (stays : q.parseExpression = (.error q.complaint, q)) : Called p (.error q.complaint, q)

theorem called_close {opened : List Position} {expr : Expr} (before : Passes n p q)
    (length : opened.length < n) : Called p (close (.ok expr, q) opened) := by
  obtain ⟨exit, behind, result⟩ := q.leave_passes opened
  rw [close]
  generalize q.leave opened = left at behind result
  obtain ⟨outcome, next⟩ := left
  rcases result with closed | ⟨pos, mem, unclosed⟩
  · cases closed
    exact .read (before.trans behind) (by omega)
  · cases unclosed
    have := List.length_pos_of_mem mem
    exact .unclosed (before.trans behind) (by omega)

theorem called (p : Parser) : Called p p.parseExpression := by
  obtain ⟨entry, before, length, entered⟩ := p.enter_passes []
  rw [parseExpression_eq, parseInside]
  rcases (p.enter []).2.parsePrimary_cases with ⟨expr, primary, hk⟩ | primary
  · rw [primary]
    rw [List.length_nil, Nat.zero_add] at length
    exact called_close (before.trans (passes_one hk)) (Nat.lt_succ_of_le length)
  · -- Nothing is passed over before a token that a call has stopped at.
    have stays : (p.enter []).2.parseExpression =
        (.error (p.enter []).2.complaint, (p.enter []).2) := by
      rw [parseExpression_eq, parseInside_primary entered.indent entered.dedent entered.opening,
        primary]
      rfl
    rw [primary]
    exact .stalled before stays

theorem parseExpression_passes (p : Parser) : ∃ n, Passes n p p.parseExpression.2 := by
  have call := called p
  generalize p.parseExpression = result at call ⊢
  cases call with
  | read passes => exact ⟨_, passes⟩
  | unclosed passes => exact ⟨_, passes⟩
  | stalled passes => exact ⟨_, passes⟩

end Offside.Parser
