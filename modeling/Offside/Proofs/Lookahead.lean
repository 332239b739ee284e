import Offside.Proofs.Calls

/-! # One token ahead

A parser reports what its stream has met so far. The stream has been asked for the current token
and for those before it, and for nothing behind it, however many calls have been made and whatever
came of them. So the reports are those of the steps up to the one that found the current token: a
step reports before any of its tokens is handed out, and no step is taken ahead of need. -/

namespace Offside

namespace Lexer

/-- What is reported by the step that finds token `n`, counted from here, and by all steps before.
Where there is no such token, every step counts. -/
def reportsUpTo (l : Lexer) (n : ℕ) : List Diagnostic :=
  match _h : l.step with
  | .exhausted _ => []
  | .found ts ds next => if n < ts.length then ds else ds ++ next.reportsUpTo (n - ts.length)
  termination_by l.budget
  decreasing_by exact (step_spends ‹_›).1

theorem reportsUpTo_of_exhausted {l last : Lexer} (h : l.step = .exhausted last) (n : ℕ) :
    l.reportsUpTo n = [] := by
  rw [reportsUpTo]
  split <;> simp_all

theorem reportsUpTo_of_found {l next : Lexer} {ts ds} (h : l.step = .found ts ds next) (n : ℕ) :
    l.reportsUpTo n = if n < ts.length then ds else ds ++ next.reportsUpTo (n - ts.length) := by
  rw [reportsUpTo]
  split
  · simp_all
  · next k =>
    rw [h] at k
    cases k
    rfl

theorem reportsUpTo_of_rest_nil {l : Lexer} (h : l.cursor.rest = []) (n : ℕ) :
    l.reportsUpTo n = [] :=
  reportsUpTo_of_exhausted (step_of_rest_nil h) n

theorem reportsUpTo_prefix (l : Lexer) {m n : ℕ} (h : m ≤ n) :
    l.reportsUpTo m <+: l.reportsUpTo n := by
  fun_induction reportsUpTo l m generalizing n with
  | case1 l m last hl => exact List.nil_prefix
  | case2 l m ts ds next hl hm =>
    rw [reportsUpTo_of_found hl]
    by_cases hn : n < ts.length
    · rw [if_pos hn]
    · rw [if_neg hn]
      exact List.prefix_append _ _
  | case3 l m ts ds next hl hm ih =>
    rw [reportsUpTo_of_found hl, if_neg (by omega), List.prefix_append_right_inj]
    exact ih (by omega)

/-- Behind the last token nothing more is left out. -/
theorem reportsUpTo_of_length_le (l : Lexer) {n : ℕ} (h : l.run.tokens.length ≤ n) :
    l.reportsUpTo n = l.run.diagnostics := by
  fun_induction reportsUpTo l n with
  | case1 l n last hl => rw [run_of_exhausted hl]
  | case2 l n ts ds next hl hn =>
    rw [run_of_found hl, Run.after, List.length_append] at h
    omega
  | case3 l n ts ds next hl hn ih =>
    rw [run_of_found hl, Run.after, List.length_append] at h
    rw [ih (by omega), run_of_found hl, Run.after]

theorem reportsUpTo_prefix_run (l : Lexer) (n : ℕ) : l.reportsUpTo n <+: l.run.diagnostics := by
  rw [← l.reportsUpTo_of_length_le (Nat.le_max_right n l.run.tokens.length)]
  exact l.reportsUpTo_prefix (Nat.le_max_left _ _)

end Lexer

namespace TokenStream

def reportsUpTo (s : TokenStream) (n : ℕ) : List Diagnostic :=
  s.diagnostics.toList ++
    if n < s.waiting.length then [] else s.lexer.reportsUpTo (n - s.waiting.length)

theorem reportsUpTo_nextBatch {s : TokenStream} (hw : s.waiting = []) (n : ℕ) :
    s.reportsUpTo n = s.nextBatch.2.diagnostics.toList ++
      if n < (s.nextBatch.1.getD []).length then []
      else s.nextBatch.2.lexer.reportsUpTo (n - (s.nextBatch.1.getD []).length) := by
  fun_induction nextBatch s with
  | case1 s lexer h =>
    have done := Lexer.rest_of_exhausted h
    simp [reportsUpTo, hw, Lexer.reportsUpTo_of_exhausted h, Lexer.reportsUpTo_of_rest_nil done]
  | case2 s ds lexer h ih =>
    rw [← ih hw]
    simp [reportsUpTo, hw, record, Lexer.reportsUpTo_of_found h]
  | case3 s t ts ds lexer h =>
    by_cases hn : n ≤ ts.length
    · simp [reportsUpTo, hw, record, Lexer.reportsUpTo_of_found h, hn]
    · simp [reportsUpTo, hw, record, Lexer.reportsUpTo_of_found h, hn]

theorem Settled.reportsUpTo_next {s : TokenStream} (hs : s.Settled) (n : ℕ) :
    s.next?.2.diagnostics.toList = s.reportsUpTo 0 ∧
      s.next?.2.reportsUpTo n = s.reportsUpTo (n + 1) := by
  have step := handed s
  generalize s.next? = result at step ⊢
  cases step with
  | @waited t ts hw => simp [reportsUpTo, hw]
  | finished hw hf => simp [reportsUpTo, hw, Lexer.reportsUpTo_of_rest_nil (hs.read hf)]
  -- A batch has been reported on before its first token, so nothing is added for the others.
  | @found t ts next hw hf hb =>
    rw [reportsUpTo_nextBatch hw, reportsUpTo_nextBatch hw, hb]
    simp [reportsUpTo]
  | @ended next hw hf hb =>
    have done : next.lexer.cursor.rest = [] := by
      have last := (nextBatch_run s).2.2.2
      rw [hb] at last
      exact last rfl
    rw [reportsUpTo_nextBatch hw, reportsUpTo_nextBatch hw, hb]
    simp [reportsUpTo, Lexer.reportsUpTo_of_rest_nil done]

def skip (n : ℕ) (s : TokenStream) : TokenStream := (fun s => s.next?.2)^[n] s

theorem skip_succ (n : ℕ) (s : TokenStream) : s.skip (n + 1) = (s.skip n).next?.2 :=
  Function.iterate_succ_apply' _ n s

theorem take_eq (s : TokenStream) (n : ℕ) : s.take n = (s.remaining.take n, s.skip n) := by
  have state (read : List Token) : (s.takeOnto read n).2 = s.skip n := by
    induction n generalizing s read with
    | zero => rfl
    | succ n ih =>
      rw [takeOnto, skip, Function.iterate_succ_apply]
      split
      · next t next h => rw [ih, h, skip]
      · next next h =>
        -- Nothing is left: asking again, however often, changes nothing.
        have still := next?_none h
        rw [h, still, Function.iterate_fixed (by rw [h, still])]
  exact Prod.ext (takeOnto_remaining [] s n).1 (state [])

structure Skipped (s : TokenStream) (n : ℕ) : Prop where
  settled : (s.skip n).Settled
  remaining : (s.skip n).remaining = s.remaining.drop n
  reports : ∀ m, (s.skip n).reportsUpTo m = s.reportsUpTo (m + n)

theorem Settled.skipped {s : TokenStream} (hs : s.Settled) (n : ℕ) : s.Skipped n := by
  induction n with
  | zero => exact ⟨hs, rfl, fun _ => rfl⟩
  | succ n ih =>
    constructor
    · rw [skip_succ]
      exact ih.settled.after_next.1
    · rw [skip_succ, (next?_remaining _).2, ih.remaining, List.tail_drop]
    · intro m
      rw [skip_succ, (ih.settled.reportsUpTo_next m).2, ih.reports, Nat.add_right_comm]
      rfl

end TokenStream

namespace Parser

/-- Whatever is kept by moving on before the end of the text, a call keeps. -/
theorem parseExpression_keeps {P : Parser → Prop}
    (moves : ∀ p, P p → p.current.kind ≠ .eof → P p.advance) {p : Parser} (hp : P p) :
    P p.parseExpression.2 := by
  obtain ⟨n, passes⟩ := p.parseExpression_passes
  exact passes.keeps moves hp

structure Reached (source : String) (k : ℕ) (p : Parser) : Prop where
  current : (tokenize source).tokens[k]? = some p.current
  stream : p.stream = (TokenStream.ofString source).skip (k + 1)

variable {source : String}

theorem reached_ofStream {k : ℕ} (h : k < (tokenize source).tokens.length) :
    Reached source k (ofStream ((TokenStream.ofString source).skip k)) := by
  have skipped := (TokenStream.settled_ofCursor (.ofList source.toList)).skipped k
  have handed : ((TokenStream.ofString source).skip k).next?.1 = (tokenize source).tokens[k]? := by
    rw [(TokenStream.next?_remaining _).1, ← List.head?_drop, ← TokenStream.remaining_ofString]
    exact congrArg List.head? skipped.remaining
  constructor
  · rw [ofStream, pull_eq, handed, List.getElem?_eq_getElem h]
    rfl
  · rw [ofStream, pull_eq, TokenStream.skip_succ]

theorem reached_ofString (source : String) : Reached source 0 (ofString source) := by
  apply reached_ofStream (k := 0)
  rw [tokenize_eq, List.length_append]
  exact Nat.succ_pos _

variable {k : ℕ} {p : Parser}

/-- The end of the text is current where all tokens of the run are passed, and only there. -/
theorem Reached.eof_iff (h : Reached source k p) :
    p.current.kind = .eof ↔ k = (Lexer.start (.ofList source.toList)).run.tokens.length := by
  have current := h.current
  simp only [tokenize_eq] at current
  rcases List.getElem?_eq_some_iff.1 current with ⟨bound, here⟩
  rw [List.length_append, List.length_singleton] at bound
  constructor
  · intro hk
    by_contra before
    rw [List.getElem_append_left (by omega)] at here
    exact (Lexer.reads_run _).1.kind_ne_eof (here ▸ List.getElem_mem _) hk
  · rintro rfl
    rw [List.getElem_concat_length rfl] at here
    rw [← here]
    rfl

theorem Reached.advance (h : Reached source k p) (hk : p.current.kind ≠ .eof) :
    Reached source (k + 1) p.advance := by
  rw [Parser.advance, h.stream]
  apply reached_ofStream
  have bound := (List.getElem?_eq_some_iff.1 h.current).1
  rw [tokenize_eq, List.length_append, List.length_singleton] at bound ⊢
  have inside := mt h.eof_iff.2 hk
  omega

theorem Reached.parseExpression (h : Reached source k p) :
    ∃ j, k ≤ j ∧ Reached source j p.parseExpression.2 := by
  apply parseExpression_keeps (P := fun q => ∃ j, k ≤ j ∧ Reached source j q)
  · rintro q ⟨j, hj, reached⟩ hq
    exact ⟨j + 1, Nat.le_succ_of_le hj, reached.advance hq⟩
  · exact ⟨k, le_rfl, h⟩

theorem Reached.diagnostics (h : Reached source k p) :
    p.diagnostics = (Lexer.start (.ofList source.toList)).reportsUpTo k := by
  have skipped := (TokenStream.settled_ofCursor (.ofList source.toList)).skipped k
  rw [Parser.diagnostics, h.stream, TokenStream.skip_succ]
  refine (skipped.settled.reportsUpTo_next 0).1.trans ?_
  rw [skipped.reports, Nat.zero_add]
  simp [TokenStream.reportsUpTo, TokenStream.ofCursor]

theorem reached_calls (source : String) (calls : ℕ) :
    ∃ k, Reached source k ((fun p => p.parseExpression.2)^[calls] (ofString source)) := by
  induction calls with
  | zero => exact ⟨0, reached_ofString source⟩
  | succ calls ih =>
    obtain ⟨k, reached⟩ := ih
    obtain ⟨j, -, reached⟩ := reached.parseExpression
    rw [Function.iterate_succ_apply']
    exact ⟨j, reached⟩

end Parser

/-- After any number of calls a parser has reported what the lexer reports up to the step that found
the current token, which is the last that was drawn. That is a prefix of all there is to report, the
next call only adds to it, and at the end of the text it is all. -/
theorem diagnostics_up_to_current (source : String) (calls : ℕ) :
    let scanned := tokenize source
    let p := (fun p => p.parseExpression.2)^[calls] (Parser.ofString source)
    p.diagnostics <+: scanned.diagnostics ∧
    p.diagnostics <+: p.parseExpression.2.diagnostics ∧
    (∃ k, scanned.tokens[k]? = some p.current ∧
      (TokenStream.ofString source).take (k + 1) = (scanned.tokens.take (k + 1), p.stream) ∧
      p.diagnostics = (Lexer.start (.ofList source.toList)).reportsUpTo k) ∧
    (p.isAtEnd = true → p.diagnostics = scanned.diagnostics) := by
  intro scanned p
  obtain ⟨k, reached⟩ := Parser.reached_calls source calls
  obtain ⟨j, later, next⟩ := reached.parseExpression
  have all : scanned.diagnostics = (Lexer.start (.ofList source.toList)).run.diagnostics :=
    congrArg Lexed.diagnostics (tokenize_eq source)
  refine ⟨?_, ?_, ⟨k, reached.current, ?_, reached.diagnostics⟩, ?_⟩
  · rw [all, reached.diagnostics]
    exact Lexer.reportsUpTo_prefix_run _ k
  · rw [reached.diagnostics, next.diagnostics]
    exact Lexer.reportsUpTo_prefix _ later
  · rw [TokenStream.take_eq, TokenStream.remaining_ofString, reached.stream]
  · intro atEnd
    have hk := reached.eof_iff.1 (beq_iff_eq.1 atEnd)
    rw [all, reached.diagnostics, Lexer.reportsUpTo_of_length_le _ hk.ge]

/-- The end of the text is looked at, and a character before it reported, by the second call. -/
theorem diagnostics_up_to_current_second :
    let p := (fun p => p.parseExpression.2)^[2] (Parser.ofString "x y ;")
    p.isAtEnd = true ∧ p.diagnostics = (tokenize "x y ;").diagnostics ∧
      (Parser.ofString "x y ;").parseExpression.2.diagnostics = [] := by
  have atEnd : ((fun p => p.parseExpression.2)^[2] (Parser.ofString "x y ;")).isAtEnd = true := by
    decide +kernel
  refine ⟨atEnd, (diagnostics_up_to_current "x y ;" 2).2.2.2 atEnd, ?_⟩
  decide +kernel

end Offside
