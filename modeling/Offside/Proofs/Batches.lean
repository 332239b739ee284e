import Offside.Proofs.Pulls

/-! # Batches

A batch comes straight from the lexer. One that finds something while tokens of an earlier step are
still waiting overtakes them: the order of the text is kept by exactly the calls that overtake
nothing, and no calls lose a token or hand it out twice. -/

namespace Offside

namespace Lexer

/-- A step finds one token at most, or else dedents of the line it has measured. -/
theorem found_cases {l m : Lexer} {ts ds} (h : l.step = .found ts ds m) :
    ts.length ≤ 1 ∨ ts = List.replicate ts.length (.synthetic .dedent m.cursor.pos) := by
  obtain ⟨between, -, ⟨rfl, -⟩ | move⟩ := step_found h
  · exact .inl (Nat.zero_le 1)
  · cases move with
    | line =>
      unfold layoutTokens
      split
      · exact .inl (Nat.zero_le 1)
      · exact .inl (Nat.le_refl 1)
      · exact .inr (by rw [List.length_replicate]; rfl)
      · exact .inr (by rw [List.length_replicate]; rfl)
      · exact .inl (Nat.zero_le 1)
    | lexeme => exact .inl (Nat.le_refl 1)
    | _ => exact .inl (Nat.zero_le 1)

/-- Layout is found where the lexer then is, on a line that has been measured. -/
theorem here_of_found {l m : Lexer} {ts ds} (h : l.step = .found ts ds m) {t : Token} (ht : t ∈ ts)
    (hsyn : t.isSynthetic = true) : m.cursor.atLineStart = false ∧ t.pos = m.cursor.pos := by
  obtain ⟨between, -, ⟨rfl, -⟩ | move⟩ := step_found h
  · cases ht
  · cases move with
    | line =>
      refine ⟨rfl, ?_⟩
      rcases mem_layoutTokens ht with rfl | rfl
      · rfl
      · rfl
    | lexeme hs hp hb hn hr =>
      rw [List.mem_singleton.1 ht, Lexeme.isSynthetic_token, Lexeme.isSynthetic_of_read? hr] at hsyn
      cases hsyn
    | _ => cases ht

/-- Within a line only lexemes begin where reading goes on. -/
theorem Reads.synthetic_offset_lt {l m : Lexer} {ts ds} (h : Reads l ts ds m)
    (hs : l.cursor.atLineStart = false) {t : Token} (ht : t ∈ ts) (hsyn : t.isSynthetic = true) :
    l.cursor.pos.offset < t.pos.offset := by
  cases h with
  | refl => cases ht
  | move first later =>
    rcases List.mem_append.1 ht with ht | ht
    · cases first with
      | line hf => simp [hs] at hf
      | lexeme hf hp hb hn hr =>
        rw [List.mem_singleton.1 ht, Lexeme.isSynthetic_token, Lexeme.isSynthetic_of_read? hr] at hsyn
        cases hsyn
      | _ => cases ht
    · exact (first.offset_lt hs).trans_le (later.token_offset ht)

/-- The layout that one step finds is not found a second time. -/
theorem not_mem_run_of_found {l m : Lexer} {ts ds} (h : l.step = .found ts ds m) {t : Token}
    (ht : t ∈ ts) (hsyn : t.isSynthetic = true) : t ∉ m.run.tokens := by
  intro again
  obtain ⟨hs, pos⟩ := here_of_found h ht hsyn
  have later := m.reads_run.1.synthetic_offset_lt hs again hsyn
  rw [pos] at later
  exact lt_irrefl _ later

end Lexer

namespace TokenStream

def Apart (s : TokenStream) : Prop := ∀ t ∈ s.waiting, t ∉ s.lexer.run.tokens

/-- A batch is what one step of the lexer finds. -/
theorem nextBatch_found {s : TokenStream} {batch : List Token} (h : s.nextBatch.1 = some batch) :
    ∃ (l : Lexer) (ds : List Diagnostic), l.step = .found batch ds s.nextBatch.2.lexer := by
  fun_induction nextBatch s with
  | case1 => cases h
  | case2 s ds lexer hstep ih => exact ih h
  | case3 s t ts ds lexer hstep =>
    cases h
    exact ⟨s.lexer, ds, hstep⟩

theorem Apart.after_next {s : TokenStream} (ha : s.Apart) : s.next?.2.Apart := by
  have step := handed s
  generalize s.next? = result at step ⊢
  intro u hu
  cases step with
  | @waited t ts hw =>
    apply ha u
    rw [hw]
    exact List.mem_cons_of_mem t hu
  | finished => exact ha u hu
  | @found t ts next _ _ hb =>
    obtain ⟨l, ds, found⟩ := nextBatch_found (congrArg Prod.fst hb)
    rw [hb] at found
    have mem := List.mem_cons_of_mem t hu
    refine Lexer.not_mem_run_of_found found mem ?_
    -- Where more than one token is found, each of them is a dedent.
    rcases Lexer.found_cases found with one | dedents
    · rw [List.length_eq_zero_iff.1 (Nat.le_zero.1 (Nat.le_of_succ_le_succ one))] at hu
      cases hu
    · rw [dedents] at mem
      rw [List.eq_of_mem_replicate mem]
      rfl
  | @ended next hw _ hb =>
    have waits := (nextBatch_budget s).2.2.1
    rw [hb, hw] at waits
    rw [show next.waiting = [] from waits] at hu
    cases hu

theorem Apart.after_pull {s : TokenStream} (ha : s.Apart) (p : Pull) :
    (s.answer (.pull p)).2.Apart :=
  answer_pull_keeps (P := Apart) (fun _ h => h.after_next) ha p

theorem answer_batch (s : TokenStream) :
    s.lexer.run.tokens = (s.answer .batch).1 ++ (s.answer .batch).2.lexer.run.tokens ∧
      (s.answer .batch).2.waiting = s.waiting :=
  ⟨(nextBatch_run s).1, (nextBatch_budget s).2.2.1⟩

theorem Settled.after {s : TokenStream} (hs : s.Settled) (c : Call) : (s.answer c).2.Settled := by
  cases c with
  | pull p => exact hs.after_pull p
  | batch =>
    obtain ⟨-, nonempty, waits, ended⟩ := nextBatch_budget s
    constructor
    · intro hf
      have nothing := (nextBatch_run s).1
      rw [Lexer.run_of_rest_nil (hs.read (ended.symm.trans hf)), eq_comm,
        List.append_eq_nil_iff] at nothing
      apply (nextBatch_run s).2.2.2
      cases hb : s.nextBatch.1 with
      | none => rfl
      | some ts =>
        have empty := nothing.1
        rw [hb, Option.getD_some] at empty
        exact absurd (by rw [hb, empty]) nonempty
    · intro t ht
      exact hs.waiting t (waits ▸ ht)

def Overtakes (s : TokenStream) : Call → Prop
  | .pull _ => False
  | .batch => s.waiting ≠ [] ∧ s.nextBatch.1 ≠ none

def InOrder (s : TokenStream) : List Call → Prop
  | [] => True
  | c :: cs => ¬ s.Overtakes c ∧ (s.answer c).2.InOrder cs

theorem beforeEnd_batch (s : TokenStream) :
    Token.beforeEnd (s.answer .batch).1 = (s.answer .batch).1 := by
  apply Token.beforeEnd_eq_self
  intro t ht
  apply s.lexer.reads_run.1.kind_ne_eof
  rw [(answer_batch s).1]
  exact List.mem_append_left _ ht

/-- A call that overtakes nothing takes its tokens from the front of those that are due. -/
theorem Settled.answer_due {s : TokenStream} (hs : s.Settled) {c : Call} (hc : ¬ s.Overtakes c) :
    Token.beforeEnd (s.answer c).1 ++ (s.answer c).2.due = s.due := by
  cases c with
  | pull p =>
    rw [← (hs.after_pull p).beforeEnd_remaining, ← hs.beforeEnd_remaining,
      ← Token.beforeEnd_append, (answer_pull s p).split]
  | batch =>
    obtain ⟨found, waits⟩ := answer_batch s
    rw [beforeEnd_batch, due, due, waits, found]
    by_cases hw : s.waiting = []
    · rw [hw, List.nil_append, List.nil_append]
    · have hb : s.nextBatch.1 = none := by
        by_contra hb
        exact hc ⟨hw, hb⟩
      have empty : (s.answer .batch).1 = [] := by
        rw [answer, hb]
        rfl
      rw [empty, List.nil_append, List.nil_append]

theorem Settled.answer_perm {s : TokenStream} (hs : s.Settled) (c : Call) :
    (Token.beforeEnd (s.answer c).1 ++ (s.answer c).2.due).Perm s.due := by
  cases c with
  | pull p => rw [hs.answer_due (c := .pull p) not_false]
  | batch =>
    obtain ⟨found, waits⟩ := answer_batch s
    rw [beforeEnd_batch, due, due, waits, found]
    exact List.perm_append_comm_assoc _ _ _

theorem Settled.answers_perm {s : TokenStream} (hs : s.Settled) (calls : List Call) :
    (Token.beforeEnd (s.answers calls).1 ++ (s.answers calls).2.due).Perm s.due := by
  induction calls generalizing s with
  | nil => exact .refl _
  | cons c calls ih =>
    rw [answers]
    simp only [Token.beforeEnd_append, List.append_assoc]
    exact ((ih (hs.after c)).append_left _).trans (hs.answer_perm c)

theorem Apart.after {s : TokenStream} (ha : s.Apart) {c : Call} (hc : ¬ s.Overtakes c) :
    (s.answer c).2.Apart := by
  cases c with
  | pull p => exact ha.after_pull p
  | batch =>
    obtain ⟨found, waits⟩ := answer_batch s
    intro t ht again
    apply ha t (waits ▸ ht)
    rw [found]
    exact List.mem_append_right _ again

/-- What a batch brings that overtakes is not the token that is due. -/
theorem Apart.not_prefix {s : TokenStream} (ha : s.Apart) {c : Call} (hc : s.Overtakes c)
    (later : List Token) : ¬ Token.beforeEnd (s.answer c).1 ++ later <+: s.due := by
  cases c with
  | pull p => exact absurd hc not_false
  | batch =>
    obtain ⟨hw, hb⟩ := hc
    obtain ⟨found, -⟩ := answer_batch s
    obtain ⟨w, ws, hw⟩ := List.exists_cons_of_ne_nil hw
    obtain ⟨b, bs, batch⟩ : ∃ b bs, (s.answer .batch).1 = b :: bs := by
      apply List.exists_cons_of_ne_nil
      intro empty
      obtain ⟨ts, hts⟩ := Option.ne_none_iff_exists'.1 hb
      have nothing : ts = [] := by simpa [answer, hts] using empty
      exact (nextBatch_budget s).2.1 (by rw [hts, nothing])
    intro inOrder
    -- The first token that waits would be the first of the batch, and so still to be found.
    rw [beforeEnd_batch, batch, due, hw, List.cons_append, List.cons_append,
      List.cons_prefix_cons] at inOrder
    apply ha w (by simp [hw])
    rw [found, batch, ← inOrder.1]
    exact List.mem_cons_self

theorem Settled.prefix_iff {s : TokenStream} (hs : s.Settled) (ha : s.Apart) (calls : List Call) :
    Token.beforeEnd (s.answers calls).1 <+: s.due ↔ s.InOrder calls := by
  induction calls generalizing s with
  | nil => exact ⟨fun _ => trivial, fun _ => List.nil_prefix⟩
  | cons c calls ih =>
    have split : Token.beforeEnd (s.answers (c :: calls)).1 =
        Token.beforeEnd (s.answer c).1 ++ Token.beforeEnd ((s.answer c).2.answers calls).1 :=
      Token.beforeEnd_append _ _
    rw [split, InOrder]
    -- The order is kept up to the first call that overtakes, and lost there for good.
    by_cases hc : s.Overtakes c
    · exact ⟨fun h => absurd h (ha.not_prefix hc _), fun h => absurd hc h.1⟩
    · rw [← hs.answer_due hc, List.prefix_append_right_inj, ih (hs.after c) (ha.after hc)]
      exact ⟨fun h => ⟨hc, h⟩, fun h => h.2⟩

end TokenStream

/-- Whatever the calls, all tokens are handed out or still due, each of them once; and they are
handed out in the order of the text if and only if no batch overtakes a token that waits. -/
theorem answers_ordered_iff (source : String) (calls : List Call) :
    let s := TokenStream.ofString source
    let answered := s.answers calls
    (Token.beforeEnd answered.1 ++ answered.2.due).Perm (Token.beforeEnd (tokenize source).tokens) ∧
      (Token.beforeEnd answered.1 <+: (tokenize source).tokens ↔ s.InOrder calls) := by
  intro s answered
  have settled : s.Settled := TokenStream.settled_ofCursor _
  have apart : s.Apart := by
    intro t ht
    cases ht
  have all : (tokenize source).tokens = s.due ++ [.synthetic .eof s.lexer.run.last.cursor.pos] := by
    rw [tokenize_eq]
    rfl
  have found : Token.beforeEnd (tokenize source).tokens = s.due := by
    rw [← settled.beforeEnd_remaining, all]
    rfl
  constructor
  · rw [found]
    exact settled.answers_perm calls
  · rw [← settled.prefix_iff apart calls]
    constructor
    · intro h
      have kept := h.filter fun t => t.kind ≠ .eof
      rwa [← Token.beforeEnd, ← Token.beforeEnd, Token.beforeEnd_beforeEnd, found] at kept
    · intro h
      rw [all]
      exact h.trans (List.prefix_append _ _)

/-- A second dedent of one line, overtaken by the name on that line. -/
theorem answers_not_ordered :
    ¬ Token.beforeEnd
        ((TokenStream.ofString " a\n  b\nc").answers [.pull (.take 5), .batch]).1 <+:
      (tokenize " a\n  b\nc").tokens := by
  decide +kernel

end Offside
