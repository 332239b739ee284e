import Offside.Proofs.Batches
import Offside.Proofs.Blocks
import Offside.Proofs.Levels

/-! # Draining by batches

Batch after batch gives the same tokens as token after token, and leaves the same reports and the
same place. Only dedents come several at a time: those of one line, as many as it closes levels. -/

namespace Offside

namespace Indentation

def afterLine (blocks : Indentation) (line : List Char) : Indentation :=
  if isBlank line then blocks else (blocks.measure (widthOf line)).2

def afterLines (blocks : Indentation) (lines : List (List Char)) : Indentation :=
  lines.foldl afterLine blocks

end Indentation

namespace TokenStream

variable {s : TokenStream} {batch : List Token} {t : Token}

theorem nextBatch_lt (h : s.nextBatch.1 = some batch) :
    s.nextBatch.2.lexer.budget < s.lexer.budget := by
  obtain ⟨paid, nonempty, -⟩ := nextBatch_budget s
  rw [h, Option.getD_some] at paid
  have pos : 0 < batch.length := by
    apply List.length_pos_iff.2
    rintro rfl
    exact nonempty h
  omega

def batches (s : TokenStream) : List (List Token) × TokenStream :=
  match _h : s.nextBatch with
  | (some batch, next) =>
    let later := next.batches
    (batch :: later.1, later.2)
  | (none, next) => ([], next)
  termination_by s.lexer.budget
  decreasing_by
    have lt := nextBatch_lt (congrArg Prod.fst _h)
    rwa [_h] at lt

theorem batches_run (s : TokenStream) :
    s.batches.1.flatten = s.lexer.run.tokens ∧
      s.batches.2.diagnostics = s.diagnostics ++ s.lexer.run.diagnostics ∧
      s.batches.2.lexer = s.lexer.run.last := by
  fun_induction batches s with
  | case1 s batch next h later ih =>
    obtain ⟨tokens, diagnostics, last, -⟩ := nextBatch_run s
    simp only [h, Option.getD_some] at tokens diagnostics last
    rw [List.flatten_cons, tokens, diagnostics, last]
    exact ⟨congrArg (batch ++ ·) ih.1, ih.2⟩
  | case2 s next h =>
    obtain ⟨tokens, diagnostics, last, done⟩ := nextBatch_run s
    simp only [h, Option.getD_none, List.nil_append, forall_const] at tokens diagnostics last done
    rw [Lexer.run_of_rest_nil done] at tokens diagnostics last
    rw [tokens, diagnostics, last]
    exact ⟨rfl, by simp, rfl⟩

theorem found_of_mem_batches (h : batch ∈ s.batches.1) :
    ∃ (l m : Lexer) (ds : List Diagnostic), l.step = .found batch ds m := by
  fun_induction batches s with
  | case1 s first next h' later ih =>
    rcases List.mem_cons.1 h with rfl | h
    · obtain ⟨l, ds, found⟩ := nextBatch_found (congrArg Prod.fst h')
      exact ⟨l, _, ds, found⟩
    · exact ih h
  | case2 => cases h

theorem mem_run_of_mem_batch (h : batch ∈ s.batches.1) (ht : t ∈ batch) :
    t ∈ s.lexer.run.tokens := by
  rw [← (batches_run s).1]
  exact List.mem_flatten.2 ⟨batch, h, ht⟩

/-- No other batch has the layout that is in this one. -/
theorem count_batch (h : batch ∈ s.batches.1) (ht : t ∈ batch) (hsyn : t.isSynthetic = true) :
    s.lexer.run.tokens.count t = batch.count t := by
  fun_induction batches s with
  | case1 s first next h' later ih =>
    have tokens := (nextBatch_run s).1
    obtain ⟨l, ds, found⟩ := nextBatch_found (congrArg Prod.fst h')
    simp only [h', Option.getD_some] at tokens found
    have once (hf : t ∈ first) : t ∉ next.lexer.run.tokens :=
      Lexer.not_mem_run_of_found found hf hsyn
    rw [tokens, List.count_append]
    rcases List.mem_cons.1 h with rfl | h
    · rw [List.count_eq_zero.2 (once ht), Nat.add_zero]
    · have later : t ∈ next.lexer.run.tokens := mem_run_of_mem_batch h ht
      have unfound : t ∉ first := fun hf => once hf later
      rw [List.count_eq_zero.2 unfound, Nat.zero_add, ih h]
  | case2 => cases h

/-- Several tokens in one batch are all the dedents that there are at one place. -/
theorem dedents_of_batch (h : batch ∈ s.batches.1) (several : 1 < batch.length) :
    ∃ pos, batch = List.replicate batch.length (.synthetic .dedent pos) ∧
      .synthetic .dedent pos ∈ s.lexer.run.tokens ∧
      s.lexer.run.tokens.count (.synthetic .dedent pos) = batch.length := by
  obtain ⟨l, m, ds, found⟩ := found_of_mem_batches h
  rcases Lexer.found_cases found with one | dedents
  · omega
  · have mem : .synthetic .dedent m.cursor.pos ∈ batch := by
      rw [dedents]
      exact List.mem_replicate.2 ⟨by omega, rfl⟩
    have count : batch.count (.synthetic .dedent m.cursor.pos) = batch.length := by
      rw [dedents, List.count_replicate_self, List.length_replicate]
    exact ⟨_, dedents, mem_run_of_mem_batch h mem, by rw [count_batch h mem rfl, count]⟩

end TokenStream

theorem Indentation.rising_afterLines (lines : List (List Char)) :
    (Indentation.base.afterLines lines).Rising := by
  have keeps (blocks : Indentation) (line : List Char) (h : blocks.Rising) :
      (blocks.afterLine line).Rising := by
    unfold afterLine
    by_cases hb : isBlank line = true
    · rwa [if_pos hb]
    · rw [if_neg hb]
      exact h.measure _
  exact List.foldlRecOn lines afterLine rising_base fun blocks h line _ => keeps blocks line h

/-- A dedent is given once for each block it closes, and the others stay open. -/
theorem Lexer.layoutTokens_of_dedent {i : Indentation} {width : Nat} {pos : Position} {t : Token}
    (h : t ∈ layoutTokens (i.measure width).1 pos) (hk : t.kind = .dedent) :
    (layoutTokens (i.measure width).1 pos).count t = (i.widths.takeWhile (width < ·)).length ∧
      (i.measure width).2.widths = i.widths.dropWhile (width < ·) := by
  rw [Indentation.measure_eq] at h ⊢
  by_cases deeper : i.current < width
  · rw [if_pos deeper] at h
    rw [List.mem_singleton.1 h] at hk
    cases hk
  · rw [if_neg deeper] at h ⊢
    by_cases shallower : width < i.current
    · rw [if_pos shallower] at h ⊢
      refine ⟨?_, rfl⟩
      simp only at h ⊢
      by_cases fits : (Indentation.mk (i.widths.dropWhile (width < ·))).current = width
      · rw [if_pos fits] at h ⊢
        obtain rfl := List.eq_of_mem_replicate h
        exact List.count_replicate_self
      · rw [if_neg fits] at h ⊢
        obtain rfl := List.eq_of_mem_replicate h
        exact List.count_replicate_self
    · rw [if_neg shallower] at h
      cases h

namespace Lexed

variable {blocks : Indentation} {base : Position} {line : List Char} {lines : List (List Char)}
  {t : Token}

theorem ofLine_blocks (blocks : Indentation) (base : Position) (line : List Char) :
    (ofLine blocks base line).2 = blocks.afterLine line := by
  unfold ofLine Indentation.afterLine
  split <;> rfl

theorem count_dedent_line (h : t ∈ (ofLine blocks base line).1.tokens) (hk : t.kind = .dedent) :
    t.pos.line = base.line ∧
      (ofLine blocks base line).1.tokens.count t =
        (blocks.widths.takeWhile (widthOf line < ·)).length ∧
      (blocks.afterLine line).widths = blocks.widths.dropWhile (widthOf line < ·) := by
  unfold ofLine at h ⊢
  unfold Indentation.afterLine
  by_cases hb : isBlank line = true
  · rw [if_pos hb] at h
    cases h
  · rw [if_neg hb] at h ⊢
    rw [if_neg hb]
    simp only at h ⊢
    have plain : t ∉ (Token.lexemes (tokenize (String.ofList line)).tokens).map (Token.shift base) := by
      intro mem
      obtain ⟨u, hu, rfl⟩ := List.mem_map.1 mem
      have real : u.isSynthetic = false := by simpa using (List.mem_filter.1 hu).2
      have kind : u.kind = .dedent := hk
      simp [Token.isSynthetic, kind, TokenKind.isSynthetic] at real
    rcases List.mem_append.1 h with h | h
    · rw [List.count_append, List.count_eq_zero.2 plain, Nat.add_zero]
      refine ⟨?_, Lexer.layoutTokens_of_dedent h hk⟩
      rcases Lexer.mem_layoutTokens h with rfl | rfl <;> rfl
    · exact absurd h plain

/-- The line that a dedent is on gives as many as it closes blocks. -/
theorem count_dedent (h : t ∈ (ofLines blocks base lines).tokens) (hk : t.kind = .dedent) :
    let n := t.pos.line - base.line
    let before := blocks.afterLines (lines.take n)
    ∃ line, lines[n]? = some line ∧
      (ofLines blocks base lines).tokens.count t =
        (before.widths.takeWhile (widthOf line < ·)).length ∧
      (blocks.afterLines (lines.take (n + 1))).widths =
        before.widths.dropWhile (widthOf line < ·) := by
  induction lines generalizing blocks base with
  | nil => cases h
  | cons line lines ih =>
    have behind {u : Token} {b : Indentation} {offset : Nat}
        (hu : u ∈ (ofLines b ⟨base.line + 1, offset⟩ lines).tokens) : base.line < u.pos.line :=
      line_le_of_mem_ofLines hu
    simp only [ofLines] at h ⊢
    rw [List.count_append]
    by_cases here : t ∈ (ofLine blocks base line).1.tokens
    · obtain ⟨same, closed⟩ := count_dedent_line here hk
      have once : t ∉ (ofLines (ofLine blocks base line).2
          ⟨base.line + 1, base.offset + line.length⟩ lines).tokens := by
        intro later
        have := behind later
        omega
      rw [List.count_eq_zero.2 once, same, Nat.sub_self]
      exact ⟨line, rfl, closed⟩
    · have later := (List.mem_append.1 h).resolve_left here
      have lt := behind later
      have next : t.pos.line - base.line = t.pos.line - (base.line + 1) + 1 := by omega
      have closed := ih later
      rw [ofLine_blocks] at closed ⊢
      rw [List.count_eq_zero.2 here, Nat.zero_add, next]
      exact closed

end Lexed

/-- Batches drain a text as its tokens do. A batch of several tokens is one dedent again and again,
once for each block that was open before its line and is deeper than the line; the others stay
open. -/
theorem batches_tokens (source : String) :
    let s := TokenStream.ofString source
    let drained := s.tokens
    let batched := s.batches
    let lines := linesOf source.toList
    let openBefore := fun n => (Indentation.base.afterLines (lines.take n)).widths
    drained.1 = batched.1.flatten ++ [.synthetic .eof drained.2.pos] ∧
      (∀ batch ∈ batched.1, ∀ t ∈ batch, t.kind ≠ .eof) ∧
      batched.2.diagnostics = drained.2.diagnostics ∧
      batched.2.pos = drained.2.pos ∧
      ∀ batch ∈ batched.1, 1 < batch.length → ∃ pos line, lines[pos.line]? = some line ∧
        batch = List.replicate batch.length (.synthetic .dedent pos) ∧
        batch.length = ((openBefore pos.line).filter (widthOf line < ·)).length ∧
        openBefore (pos.line + 1) = (openBefore pos.line).filter (· ≤ widthOf line) := by
  intro s drained batched lines openBefore
  obtain ⟨tokens, diagnostics, last⟩ := s.batches_run
  have all : drained = _ := TokenStream.tokens_eq rfl
  refine ⟨?_, ?_, ?_, ?_, ?_⟩
  · rw [all, tokens]
    rfl
  · intro batch hb t ht
    exact s.lexer.reads_run.1.kind_ne_eof (TokenStream.mem_run_of_mem_batch hb ht)
  · rw [all, diagnostics]
    rfl
  · rw [all, TokenStream.pos, last]
    rfl
  · intro batch hb several
    obtain ⟨pos, dedents, mem, count⟩ := TokenStream.dedents_of_batch hb several
    have read : s.lexer.run.tokens = _ := (Lexer.run_ofLines source.toList .zero .base).1
    rw [read] at mem count
    obtain ⟨line, hl, closed, kept⟩ := Lexed.count_dedent mem rfl
    obtain ⟨deeper, others⟩ :=
      (Indentation.rising_afterLines (lines.take pos.line)).split (widthOf line)
    refine ⟨pos, line, hl, dedents, ?_, ?_⟩
    · rw [← deeper, ← count]
      exact closed
    · rw [← others]
      exact kept

/-- A line that closes two blocks at once and is as deep as neither of those that stay open. -/
theorem batches_tokens_misaligned :
    let source := "  a\n    b\n\n      c \"\n   d"
    let batch : List Token := List.replicate 2 (.synthetic .dedent ⟨4, 24⟩)
    let lines := linesOf source.toList
    let openBefore := fun n => (Indentation.base.afterLines (lines.take n)).widths
    batch ∈ (TokenStream.ofString source).batches.1 ∧ 1 < batch.length ∧
      ∃ pos line, lines[pos.line]? = some line ∧
        batch = List.replicate batch.length (.synthetic .dedent pos) ∧
        batch.length = ((openBefore pos.line).filter (widthOf line < ·)).length ∧
        openBefore (pos.line + 1) = (openBefore pos.line).filter (· ≤ widthOf line) := by
  intro source batch lines openBefore
  have mem : batch ∈ (TokenStream.ofString source).batches.1 := by decide +kernel
  obtain ⟨-, -, -, -, closes⟩ := batches_tokens source
  exact ⟨mem, Nat.one_lt_two, closes batch mem Nat.one_lt_two⟩

end Offside
