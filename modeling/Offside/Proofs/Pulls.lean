import Mathlib.Data.ENat.Lattice
import Mathlib.Algebra.BigOperators.Group.List.Basic
import Offside.Proofs.Positions

/-! # Pulling tokens

A stream can be asked for the next token, for some number of tokens, for all of them, or for a
batch. The first three hand out one list from the front, which ends with the one token for the end
of the text. A batch that finds something while tokens of an earlier step are still waiting is put
before them; as long as that does not happen, the order of the text is kept. -/

namespace Offside

inductive Pull where
  | next
  | take (n : Nat)
  | tokens
  deriving DecidableEq

def Pull.demand : Pull → ℕ∞
  | next => 1
  | take n => n
  | tokens => ⊤

inductive Call where
  | pull (p : Pull)
  | batch
  deriving DecidableEq

def Token.beforeEnd (ts : List Token) : List Token := ts.filter fun t => t.kind ≠ .eof

theorem Token.beforeEnd_append (ts us : List Token) :
    beforeEnd (ts ++ us) = beforeEnd ts ++ beforeEnd us :=
  List.filter_append ts us

theorem Token.beforeEnd_eq_self {ts : List Token} (h : ∀ t ∈ ts, t.kind ≠ .eof) :
    beforeEnd ts = ts := by
  apply List.filter_eq_self.2
  intro t ht
  exact decide_eq_true (h t ht)

theorem Token.beforeEnd_beforeEnd (ts : List Token) : beforeEnd (beforeEnd ts) = beforeEnd ts :=
  beforeEnd_eq_self fun _ ht => of_decide_eq_true (List.mem_filter.1 ht).2

theorem Lexer.beforeEnd_run (l : Lexer) : Token.beforeEnd l.run.tokens = l.run.tokens :=
  Token.beforeEnd_eq_self fun _ => l.reads_run.1.kind_ne_eof

namespace TokenStream

def answer (s : TokenStream) : Call → List Token × TokenStream
  | .pull .next => (s.next?.1.toList, s.next?.2)
  | .pull (.take n) => s.take n
  | .pull .tokens => s.tokens
  | .batch => (s.nextBatch.1.getD [], s.nextBatch.2)

def answers (s : TokenStream) : List Call → List Token × TokenStream
  | [] => ([], s)
  | c :: cs =>
    let first := s.answer c
    let later := first.2.answers cs
    (first.1 ++ later.1, later.2)

def due (s : TokenStream) : List Token := s.waiting ++ s.lexer.run.tokens

def remaining (s : TokenStream) : List Token :=
  s.waiting ++
    if s.finished then [] else s.lexer.run.tokens ++ [.synthetic .eof s.lexer.run.last.cursor.pos]

/-- The end of the text is handed out after all that there was to read, and does not wait. -/
structure Settled (s : TokenStream) : Prop where
  read : s.finished = true → s.lexer.cursor.rest = []
  waiting : ∀ t ∈ s.waiting, t.kind ≠ .eof

theorem settled_ofCursor (cursor : Cursor) : (ofCursor cursor).Settled := by
  constructor
  · intro h
    cases h
  · intro t ht
    cases ht

theorem next?_finished {s : TokenStream} (hf : s.finished = true) :
    s.next? = (s.waiting.head?, { s with waiting := s.waiting.tail }) := by
  have step := handed s
  generalize s.next? = result at step ⊢
  cases step with
  | waited hw => rw [hw, List.head?_cons, List.tail_cons]
  | finished hw => rw [hw, List.head?_nil, List.tail_nil, ← hw]
  | found _ hf' => simp [hf] at hf'
  | ended _ hf' => simp [hf] at hf'

theorem next?_remaining (s : TokenStream) :
    s.next?.1 = s.remaining.head? ∧ s.next?.2.remaining = s.remaining.tail := by
  cases hf : s.finished with
  | false =>
    obtain ⟨t, next, hn, hfin, hd, ht⟩ | ⟨hn, ht⟩ := next?_run hf
    · have hl : next.lexer.run.last = s.lexer.run.last := congrArg lexer hd
      have here : s.remaining = t :: next.remaining := by
        simp only [remaining, hf, hfin, Bool.false_eq_true, if_false, hl]
        rw [← List.append_assoc, ht, ← List.append_assoc]
        rfl
      rw [hn, here]
      exact ⟨rfl, rfl⟩
    · have here : s.remaining = [.synthetic .eof s.lexer.run.last.cursor.pos] := by
        simp only [remaining, hf, Bool.false_eq_true, if_false]
        rw [← List.append_assoc, ht]
        rfl
      rw [hn, here]
      exact ⟨rfl, rfl⟩
  | true => simp [next?_finished hf, remaining, hf]

theorem Settled.after_next {s : TokenStream} (hs : s.Settled) :
    s.next?.2.Settled ∧ s.next?.2.lexer.run.last = s.lexer.run.last := by
  cases hf : s.finished with
  | false =>
    obtain ⟨t, next, hn, hfin, hd, ht⟩ | ⟨hn, ht⟩ := next?_run hf
    · rw [hn]
      refine ⟨⟨?_, ?_⟩, congrArg lexer hd⟩
      · intro h
        simp [hfin] at h
      · intro u hu
        have mem : u ∈ s.waiting ++ s.lexer.run.tokens := by
          rw [ht]
          exact List.mem_cons_of_mem t (List.mem_append_left _ hu)
        rcases List.mem_append.1 mem with mem | mem
        · exact hs.waiting u mem
        · exact s.lexer.reads_run.1.kind_ne_eof mem
    · have done := s.lexer.reads_run.2
      rw [hn]
      refine ⟨⟨?_, ?_⟩, ?_⟩
      · intro _
        exact done
      · intro u hu
        cases hu
      · rw [drained, Lexer.run_of_rest_nil done]
  | true =>
    rw [next?_finished hf]
    refine ⟨⟨hs.read, ?_⟩, rfl⟩
    intro t ht
    exact hs.waiting t (List.mem_of_mem_tail ht)

theorem takeOnto_remaining (read : List Token) (s : TokenStream) (n : Nat) :
    (s.takeOnto read n).1 = read.reverse ++ s.remaining.take n ∧
      (s.takeOnto read n).2.remaining = s.remaining.drop n := by
  induction n generalizing read s with
  | zero => simp [takeOnto]
  | succ n ih =>
    obtain ⟨head, tail⟩ := next?_remaining s
    rw [takeOnto]
    split
    · next t next hn =>
      rw [hn] at head tail
      obtain ⟨rest, hr⟩ := List.head?_eq_some_iff.1 head.symm
      rw [hr, List.tail_cons] at tail
      obtain ⟨taken, left⟩ := ih (t :: read) next
      rw [taken, left, tail, hr]
      simp
    · next next hn =>
      rw [hn] at head tail
      have hr := List.head?_eq_none_iff.1 head.symm
      rw [hr] at tail
      simp [hr, tail]

theorem drainOnto_remaining (read : List Token) (s : TokenStream) :
    (s.drainOnto read).1 = read.reverse ++ s.remaining ∧
      (s.drainOnto read).2.remaining = [] := by
  fun_induction drainOnto read s with
  | case1 read s t next hn ih =>
    obtain ⟨head, tail⟩ := next?_remaining s
    rw [hn] at head tail
    obtain ⟨rest, hr⟩ := List.head?_eq_some_iff.1 head.symm
    rw [hr, List.tail_cons] at tail
    obtain ⟨handed, left⟩ := ih
    refine ⟨?_, left⟩
    rw [handed, tail, hr]
    simp
  | case2 read s next hn =>
    obtain ⟨head, tail⟩ := next?_remaining s
    rw [hn] at head tail
    have hr := List.head?_eq_none_iff.1 head.symm
    rw [hr] at tail
    exact ⟨by simp [hr], tail⟩

/-- Whatever one token after the other leaves true, every way of pulling does. -/
theorem answer_pull_keeps {P : TokenStream → Prop} (step : ∀ s, P s → P s.next?.2)
    {s : TokenStream} (hs : P s) (p : Pull) : P (s.answer (.pull p)).2 := by
  cases p with
  | next => exact step s hs
  | take n =>
    change P (s.takeOnto [] n).2
    -- What has been read already grows along the recursion; the state does not depend on it.
    generalize [] = read
    induction n generalizing read s with
    | zero => exact hs
    | succ n ih =>
      have kept := step s hs
      rw [takeOnto]
      split
      · next hn => exact ih (by rwa [hn] at kept) _
      · next hn => rwa [hn] at kept
  | tokens =>
    change P (s.drainOnto []).2
    generalize [] = read
    fun_induction drainOnto read s with
    | case1 read s t next hn ih =>
      have kept := step s hs
      exact ih (by rwa [hn] at kept)
    | case2 read s next hn =>
      have kept := step s hs
      rwa [hn] at kept

/-- What a demand gets of the tokens that can be had: never more, and less only where they end. -/
structure Serves (available : List Token) (demand : ℕ∞) (drawn left : List Token) : Prop where
  split : drawn ++ left = available
  within : (drawn.length : ℕ∞) ≤ demand
  met : left = [] ∨ (drawn.length : ℕ∞) = demand

theorem Serves.trans {available middle left xs ys : List Token} {d e : ℕ∞}
    (h : Serves available d xs middle) (k : Serves middle e ys left) :
    Serves available (d + e) (xs ++ ys) left := by
  constructor
  · rw [List.append_assoc, k.split, h.split]
  · rw [List.length_append, Nat.cast_add]
    exact add_le_add h.within k.within
  · rcases k.met with hl | hl
    · exact .inl hl
    · rcases h.met with hm | hm
      · left
        have nothing := k.split
        rw [hm, List.append_eq_nil_iff] at nothing
        exact nothing.2
      · right
        rw [List.length_append, Nat.cast_add, hm, hl]

theorem Serves.length_eq {available drawn left : List Token} {demand : ℕ∞}
    (h : Serves available demand drawn left) :
    (drawn.length : ℕ∞) = min demand available.length := by
  rw [← h.split, List.length_append]
  rcases h.met with hl | hl
  · rw [hl, List.length_nil, Nat.add_zero, min_eq_right h.within]
  · rw [← hl, Nat.cast_add, min_eq_left le_self_add]

theorem Serves.last_mem_iff {found drawn left : List Token} {last : Token} {demand : ℕ∞}
    (h : Serves (found ++ [last]) demand drawn left) (hl : last ∉ found) :
    last ∈ drawn ↔ (found.length : ℕ∞) < demand := by
  rw [← ENat.natCast_add_one_le_iff]
  have length : drawn.length + left.length = found.length + 1 := by
    rw [← List.length_append, h.split, List.length_append, List.length_singleton]
  constructor
  · intro mem
    -- What is drawn is all there is, or else lies before the last token, which comes only once.
    rcases List.prefix_concat_iff.1 ⟨left, h.split⟩ with whole | inside
    · rw [← Nat.cast_one, ← Nat.cast_add]
      simpa [whole] using h.within
    · exact absurd (inside.subset mem) hl
  · intro enough
    have all : left = [] := by
      rcases h.met with nothing | met
      · exact nothing
      · rw [← met, ← Nat.cast_one, ← Nat.cast_add, Nat.cast_le] at enough
        apply List.length_eq_zero_iff.1
        omega
    rw [← List.append_nil drawn, ← all, h.split]
    exact List.mem_append_right _ (List.mem_singleton_self last)

theorem answer_pull (s : TokenStream) (p : Pull) :
    Serves s.remaining p.demand (s.answer (.pull p)).1 (s.answer (.pull p)).2.remaining := by
  cases p with
  | next =>
    obtain ⟨head, tail⟩ := next?_remaining s
    simp only [answer, head, tail, Pull.demand]
    cases s.remaining with
    | nil => exact ⟨rfl, by simp, .inl rfl⟩
    | cons t ts => exact ⟨rfl, by simp, .inr (by simp)⟩
  | take n =>
    obtain ⟨taken, left⟩ := takeOnto_remaining [] s n
    simp only [answer, take, taken, left, Pull.demand, List.reverse_nil, List.nil_append]
    refine ⟨List.take_append_drop _ _, ?_, ?_⟩
    · exact Nat.cast_le.2 (List.length_take_le _ _)
    · rcases Nat.le_total n s.remaining.length with hn | hn
      · exact .inr (by rw [List.length_take_of_le hn])
      · exact .inl (List.drop_eq_nil_of_le hn)
  | tokens =>
    obtain ⟨drained, left⟩ := drainOnto_remaining [] s
    simp only [answer, tokens, drained, left, Pull.demand, List.reverse_nil, List.nil_append]
    exact ⟨List.append_nil _, le_top, .inl rfl⟩

theorem answers_pull (s : TokenStream) (pulls : List Pull) :
    Serves s.remaining (pulls.map Pull.demand).sum (s.answers (pulls.map .pull)).1
      (s.answers (pulls.map .pull)).2.remaining := by
  induction pulls generalizing s with
  | nil => exact ⟨rfl, le_rfl, .inr rfl⟩
  | cons p pulls ih =>
    rw [List.map_cons, List.map_cons, List.sum_cons]
    exact (answer_pull s p).trans (ih _)

theorem Settled.beforeEnd_remaining {s : TokenStream} (hs : s.Settled) :
    Token.beforeEnd s.remaining = s.due := by
  rw [remaining, Token.beforeEnd_append, Token.beforeEnd_eq_self hs.waiting, due]
  cases hf : s.finished with
  | false =>
    simp only [Bool.false_eq_true, if_false, Token.beforeEnd_append, Lexer.beforeEnd_run]
    simp [Token.beforeEnd, Token.synthetic]
  | true =>
    rw [Lexer.run_of_rest_nil (hs.read hf)]
    rfl

theorem Settled.after_pull {s : TokenStream} (hs : s.Settled) (p : Pull) :
    (s.answer (.pull p)).2.Settled :=
  answer_pull_keeps (P := Settled) (fun _ h => h.after_next.1) hs p

end TokenStream

end Offside
