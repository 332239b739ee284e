import Mathlib.Logic.Function.Iterate
import Offside.Parser
import Offside.Proofs.Pulls

/-! # Recursive descent

An expression can be read by recursion, over tokens that are all there before reading begins. The
parser counts the parentheses it has passed instead, and pulls a token only when it moves on to it.
Call after call, and also after errors, both come to the same answer at the same token. -/

namespace Offside

/-- Tokens still to be read. Behind them the end of the text comes again and again. -/
structure Ahead where
  tokens : List Token
  last : Position

namespace Ahead

def current (a : Ahead) : Token := a.tokens.headD (.synthetic .eof a.last)

def advance (a : Ahead) : Ahead := { a with tokens := a.tokens.tail }

theorem advance_length_lt {a : Ahead} (h : a.current.kind ≠ .eof) :
    a.advance.tokens.length < a.tokens.length := by
  obtain ⟨tokens, last⟩ := a
  cases tokens with
  | nil => exact absurd rfl h
  | cons t ts => exact Nat.lt_succ_self ts.length

theorem current_mem {a : Ahead} (h : a.current.kind ≠ .eof) : a.current ∈ a.tokens := by
  obtain ⟨tokens, last⟩ := a
  cases tokens with
  | nil => exact absurd rfl h
  | cons t ts => exact List.mem_cons_self

/-- Layout may stand before an expression, but not before the parenthesis that closes it. -/
def descend (a : Ahead) : Except SyntaxError Expr × Ahead :=
  match _h : a.current.kind with
  | .indent | .dedent => a.advance.descend
  | .opening .paren =>
    match a.advance.descend with
    | (.error e, b) => (.error e, b)
    | (.ok expr, b) =>
      if b.current.kind = .closing .paren then (.ok expr, b.advance)
      else (.error (.missingClosingParen a.current.pos), b)
  | .integer => (.ok ⟨.integer, a.current⟩, a.advance)
  | .floating => (.ok ⟨.floating, a.current⟩, a.advance)
  | .string => (.ok ⟨.string, a.current⟩, a.advance)
  | .identifier => (.ok ⟨.identifier, a.current⟩, a.advance)
  | .unit => (.ok ⟨.unit, a.current⟩, a.advance)
  | .eof => (.error (.unexpectedEndOfInput a.current.pos), a)
  | _ => (.error (.unexpectedToken a.current), a)
  termination_by a.tokens.length
  decreasing_by all_goals exact advance_length_lt (by simp [*])

/-- An expression has the form that its token has, which is one of those read. -/
theorem descend_ok {a : Ahead} {expr : Expr} (h : a.descend.1 = .ok expr) :
    expr.token ∈ a.tokens ∧ Expr.Form.ofKind? expr.token.kind = some expr.form := by
  have here {form : Expr.Form} {a : Ahead} (hk : Expr.Form.ofKind? a.current.kind = some form)
      (he : (Except.ok ⟨form, a.current⟩ : Except SyntaxError Expr) = .ok expr) :
      expr.token ∈ a.tokens ∧ Expr.Form.ofKind? expr.token.kind = some expr.form := by
    cases he
    exact ⟨current_mem fun hn => by simp [hn, Expr.Form.ofKind?] at hk, hk⟩
  have later {a : Ahead} (ht : expr.token ∈ a.advance.tokens ∧
      Expr.Form.ofKind? expr.token.kind = some expr.form) :
      expr.token ∈ a.tokens ∧ Expr.Form.ofKind? expr.token.kind = some expr.form :=
    ⟨List.mem_of_mem_tail ht.1, ht.2⟩
  fun_induction descend a with
  | case1 a hk ih | case2 a hk ih => exact later (ih h)
  | case4 a hk inner b hd hc ih => exact later (ih (by rw [hd]; exact h))
  | case6 a hk | case7 a hk | case8 a hk | case9 a hk | case10 a hk =>
    exact here (by rw [hk]; rfl) h
  | case3 | case5 | case11 | case12 => cases h

end Ahead

theorem TokenStream.remaining_ofString (source : String) :
    (TokenStream.ofString source).remaining = (tokenize source).tokens :=
  (congrArg Lexed.tokens (tokenize_eq source)).symm

def TokenStream.ahead (s : TokenStream) : Ahead := ⟨s.remaining, s.lexer.run.last.cursor.pos⟩

namespace Parser

open TokenStream (Settled)

theorem pull_eq (s : TokenStream) :
    pull s = (s.next?.1.getD (.synthetic .eof s.next?.2.pos), s.next?.2) := by
  unfold pull
  split <;> simp_all

theorem pull_ahead {s : TokenStream} (hs : s.Settled) :
    (pull s).1 = s.ahead.current ∧ (pull s).2.ahead = s.ahead.advance ∧ (pull s).2.Settled := by
  obtain ⟨head, tail⟩ := TokenStream.next?_remaining s
  obtain ⟨settled, last⟩ := hs.after_next
  rw [pull_eq, head]
  refine ⟨?_, ?_, settled⟩
  · cases hr : s.remaining with
    | cons t ts => simp [TokenStream.ahead, Ahead.current, hr]
    | nil =>
      -- Nothing remains only where the end of the text has been handed out.
      obtain ⟨-, ended⟩ : s.waiting = [] ∧ s.finished = true := by
        simpa [TokenStream.remaining] using hr
      have still : s.next?.2 = s := TokenStream.next?_none (by simp [Prod.ext_iff, head, hr])
      have here : s.lexer.run.last = s.lexer := by
        rw [Lexer.run_of_rest_nil (hs.read ended)]
      simp [TokenStream.ahead, Ahead.current, hr, still, here, TokenStream.pos]
  · rw [TokenStream.ahead, TokenStream.ahead, tail, last]
    rfl

structure StandsAt (p : Parser) (a : Ahead) : Prop where
  settled : p.stream.Settled
  current : p.current = a.current
  stream : p.stream.ahead = a.advance

theorem standsAt_ofStream {s : TokenStream} (hs : s.Settled) : (ofStream s).StandsAt s.ahead := by
  obtain ⟨current, ahead, settled⟩ := pull_ahead hs
  exact ⟨settled, current, ahead⟩

theorem StandsAt.advance {p : Parser} {a : Ahead} (h : p.StandsAt a) :
    p.advance.StandsAt a.advance := by
  rw [← h.stream]
  exact standsAt_ofStream h.settled

def close (read : Except SyntaxError Expr × Parser) (opened : List Position) :
    Except SyntaxError Expr × Parser :=
  match read with
  | (.error e, p) => (.error e, p)
  | (.ok expr, p) =>
    match p.leave opened with
    | (.error e, q) => (.error e, q)
    | (.ok (), q) => (.ok expr, q)

def parseInside (p : Parser) (opened : List Position) : Except SyntaxError Expr × Parser :=
  close (p.enter opened).2.parsePrimary (p.enter opened).1

theorem parseExpression_eq (p : Parser) : p.parseExpression = p.parseInside [] := rfl

theorem parseInside_layout {p : Parser} (h : p.current.kind = .indent ∨ p.current.kind = .dedent)
    (opened : List Position) : p.parseInside opened = p.advance.parseInside opened := by
  unfold parseInside
  rw [enter]
  rcases h with h | h <;> split <;> simp_all

theorem parseInside_opening {p : Parser} (h : p.current.kind = .opening .paren)
    (opened : List Position) :
    p.parseInside opened = p.advance.parseInside (p.current.pos :: opened) := by
  unfold parseInside
  rw [enter]
  split <;> simp_all

theorem parseInside_primary {p : Parser} (hi : p.current.kind ≠ .indent)
    (hd : p.current.kind ≠ .dedent) (ho : p.current.kind ≠ .opening .paren)
    (opened : List Position) : p.parseInside opened = close p.parsePrimary opened := by
  have stays : p.enter opened = (opened, p) := by
    rw [enter]
    split <;> simp_all
  rw [parseInside, stays]

theorem StandsAt.parseInside_form {p : Parser} {a : Ahead} (h : p.StandsAt a) {form : Expr.Form}
    (hf : Expr.Form.ofKind? a.current.kind = some form) (opened : List Position) :
    ∃ q, q.StandsAt a.advance ∧ p.parseInside opened = close (.ok ⟨form, a.current⟩, q) opened := by
  rw [← h.current] at hf
  have primary : p.parsePrimary = (.ok ⟨form, p.current⟩, p.advance) := by
    rw [parsePrimary, hf]
  refine ⟨p.advance, h.advance, ?_⟩
  rw [← h.current, ← primary]
  apply parseInside_primary
  · intro hk
    simp [hk, Expr.Form.ofKind?] at hf
  · intro hk
    simp [hk, Expr.Form.ofKind?] at hf
  · intro hk
    simp [hk, Expr.Form.ofKind?] at hf

theorem StandsAt.parseInside_fault {p : Parser} {a : Ahead} (h : p.StandsAt a)
    (hi : a.current.kind ≠ .indent) (hd : a.current.kind ≠ .dedent)
    (ho : a.current.kind ≠ .opening .paren) (hf : Expr.Form.ofKind? a.current.kind = none)
    (opened : List Position) :
    p.parseInside opened = close (.error (if a.current.kind = .eof
      then .unexpectedEndOfInput a.current.pos else .unexpectedToken a.current), p) opened := by
  rw [← h.current] at hi hd ho hf ⊢
  rw [parseInside_primary hi hd ho, parsePrimary, hf]
  by_cases he : p.current.kind = .eof
  · simp [isAtEnd, he]
  · simp [isAtEnd, he]

/-- The parentheses that the parser counts are those that the recursion is inside of. -/
theorem StandsAt.parseInside {p : Parser} {a : Ahead} (h : p.StandsAt a) (opened : List Position) :
    ∃ q, q.StandsAt a.descend.2 ∧ p.parseInside opened = close (a.descend.1, q) opened := by
  -- `opened` varies: what is read inside a parenthesis has one more to close.
  fun_induction Ahead.descend a generalizing p opened with
  | case1 a hk ih =>
    rw [parseInside_layout (.inl (h.current ▸ hk))]
    exact ih h.advance opened
  | case2 a hk ih =>
    rw [parseInside_layout (.inr (h.current ▸ hk))]
    exact ih h.advance opened
  -- A parenthesis: what stands inside fails, or is closed, or is not closed.
  | case3 a hk e b hd ih =>
    obtain ⟨q, hq, read⟩ := ih h.advance (p.current.pos :: opened)
    rw [hd] at hq read
    refine ⟨q, hq, ?_⟩
    rw [parseInside_opening (h.current ▸ hk), read]
    rfl
  | case4 a hk expr b hd hc ih =>
    obtain ⟨q, hq, read⟩ := ih h.advance (p.current.pos :: opened)
    rw [hd] at hq read
    refine ⟨q.advance, hq.advance, ?_⟩
    rw [parseInside_opening (h.current ▸ hk), read]
    simp only [close, leave, hq.current, hc, if_true]
  | case5 a hk expr b hd hc ih =>
    obtain ⟨q, hq, read⟩ := ih h.advance (p.current.pos :: opened)
    rw [hd] at hq read
    refine ⟨q, hq, ?_⟩
    rw [parseInside_opening (h.current ▸ hk), read]
    simp only [close, leave, hq.current, hc, if_false, h.current]
  -- An expression without parentheses.
  | case6 a hk => exact h.parseInside_form (by rw [hk]; rfl) opened
  | case7 a hk => exact h.parseInside_form (by rw [hk]; rfl) opened
  | case8 a hk => exact h.parseInside_form (by rw [hk]; rfl) opened
  | case9 a hk => exact h.parseInside_form (by rw [hk]; rfl) opened
  | case10 a hk => exact h.parseInside_form (by rw [hk]; rfl) opened
  -- Nothing that begins an expression.
  | case11 a hk =>
    refine ⟨p, h, ?_⟩
    rw [h.parseInside_fault (by simp [hk]) (by simp [hk]) (by simp [hk]) (by rw [hk]; rfl),
      if_pos hk]
  | case12 a hi hd ho hint hfl hstr hid hu he =>
    have noForm : Expr.Form.ofKind? a.current.kind = none := by
      unfold Expr.Form.ofKind?
      split <;> simp_all
    refine ⟨p, h, ?_⟩
    rw [h.parseInside_fault hi hd ho noForm, if_neg he]

theorem StandsAt.parseExpression {p : Parser} {a : Ahead} (h : p.StandsAt a) :
    p.parseExpression.1 = a.descend.1 ∧ p.parseExpression.2.StandsAt a.descend.2 := by
  obtain ⟨q, hq, read⟩ := h.parseInside []
  rw [parseExpression_eq, read]
  cases hd : a.descend.1 with
  | error e => exact ⟨rfl, hq⟩
  | ok expr => exact ⟨rfl, hq⟩

theorem StandsAt.iterate {p : Parser} {a : Ahead} (h : p.StandsAt a) (calls : ℕ) :
    ((fun p => p.parseExpression.2)^[calls] p).StandsAt ((fun a => a.descend.2)^[calls] a) := by
  induction calls with
  | zero => exact h
  | succ calls ih =>
    rw [Function.iterate_succ_apply', Function.iterate_succ_apply']
    exact ih.parseExpression.2

end Parser

theorem parse_ok {source : String} {expr : Expr} (h : parse source = .ok expr) :
    expr.token ∈ (tokenize source).tokens ∧
      Expr.Form.ofKind? expr.token.kind = some expr.form := by
  have settled : (TokenStream.ofString source).Settled := TokenStream.settled_ofCursor _
  have read := (Parser.standsAt_ofStream settled).parseExpression.1
  rw [← TokenStream.remaining_ofString]
  exact Ahead.descend_ok (read.symm.trans h)

/-- Any number of calls read what recursive descent reads from the tokens of the whole text. -/
theorem parseExpression_descend (source : String) :
    ∃ read last, (tokenize source).tokens = read ++ [.synthetic .eof last] ∧ ∀ calls : ℕ,
      let p := (fun p => p.parseExpression.2)^[calls] (Parser.ofString source)
      let a := (fun a => a.descend.2)^[calls] (⟨(tokenize source).tokens, last⟩ : Ahead)
      p.parseExpression.1 = a.descend.1 ∧
        p.parseExpression.2.current = a.descend.2.current := by
  have settled : (TokenStream.ofString source).Settled := TokenStream.settled_ofCursor _
  have all := congrArg Lexed.tokens (tokenize_eq source)
  refine ⟨_, _, all, ?_⟩
  intro calls
  have stands := (Parser.standsAt_ofStream settled).iterate calls
  rw [all]
  exact ⟨stands.parseExpression.1, stands.parseExpression.2.current⟩

end Offside
