import Mathlib.Data.Prod.Lex
import Mathlib.Order.WellFounded
import Offside.Proofs.Pulls
import Offside.Proofs.Splitting

/-! # Progress

Measuring a line may read nothing, and reading a newline lets a line begin again, so neither the
text that is left nor the beginning of a line is a measure alone. Taken together, the text first,
they shrink with every step that is not the last. -/

namespace Offside

namespace Lexer

/-- The characters that are left, and then whether a line has just begun. -/
def left (l : Lexer) : ℕ ×ₗ ℕ := toLex (l.cursor.rest.length, l.cursor.atLineStart.toNat)

theorem left_lt_of_shorter {l m : Lexer} (h : m.cursor.rest.length < l.cursor.rest.length) :
    m.left < l.left :=
  Prod.Lex.toLex_lt_toLex.2 (.inl h)

theorem left_lt_of_skip {l : Lexer} {n : ℕ} (hn : 0 < n) (hne : l.cursor.rest ≠ []) :
    left { l with cursor := l.cursor.skip n } < l.left := by
  apply left_lt_of_shorter
  have := List.length_pos_iff.2 hne
  rw [Cursor.skip_rest, List.length_drop]
  omega

theorem Move.left_lt {l m : Lexer} {ts ds} (h : Move l ts ds m) : m.left < l.left := by
  have hne := h.rest_ne_nil
  cases h with
  | space => exact left_lt_of_skip Nat.one_pos hne
  | newline => exact left_lt_of_skip Nat.one_pos hne
  | margin hs hp he =>
    apply left_lt_of_shorter
    exact Cursor.eatWhile_length_lt hp rfl
  | line hs hp hn =>
    have shorter := Cursor.eatWhile_length_le (· == ' ') l.cursor
    apply Prod.Lex.toLex_lt_toLex.2
    -- A line without spaces before it leaves all characters, but no longer just begins.
    rcases shorter.lt_or_eq with hlt | heq
    · exact .inl hlt
    · exact .inr ⟨heq, by simp [hs, Cursor.leaveLineStart]⟩
  | lexeme hs hp hb hn hr => exact left_lt_of_skip (Lexeme.read?_extent_pos hr) hne
  | stray => exact left_lt_of_skip Nat.one_pos hne

theorem Reads.left_lt {l m : Lexer} {ts ds} (h : Reads l ts ds m) : m = l ∨ m.left < l.left := by
  induction h with
  | refl => exact .inl rfl
  | move first _ ih =>
    right
    rcases ih with rfl | later
    · exact first.left_lt
    · exact later.trans first.left_lt

theorem left_lt_of_found {l m : Lexer} {ts ds} (h : l.step = .found ts ds m) : m.left < l.left := by
  rcases (reads_of_found h).left_lt with rfl | hlt
  · exact absurd (step_spends h).1 (lt_irrefl _)
  · exact hlt

/-- Where nothing is found any more, the whole text has been passed over. -/
theorem atEnd_of_exhausted {l m : Lexer} (h : l.step = .exhausted m) :
    m.cursor.rest = [] ∧ m.cursor.pos = l.cursor.pos.after l.cursor.rest := by
  have done := rest_of_exhausted h
  obtain ⟨taken, hr, hp⟩ := (reads_of_exhausted h).skips
  rw [done, List.append_nil] at hr
  exact ⟨done, by rw [hp, hr]⟩

theorem wellFounded_step : WellFounded fun m l : Lexer => ∃ ts ds, l.step = .found ts ds m := by
  apply Subrelation.wf _ (InvImage.wf left wellFounded_lt)
  rintro m l ⟨ts, ds, h⟩
  exact left_lt_of_found h

end Lexer

/-- Reading gets on with every step and so comes to an end; and however the tokens are pulled, the
end of the text is the last of them, which comes once, as soon as more is asked for than was found. -/
theorem reading_ends (cursor : Cursor) :
    (∀ l : Lexer, match l.step with
      | .exhausted m => m.cursor.rest = [] ∧ m.cursor.pos = l.cursor.pos.after l.cursor.rest
      | .found _ _ m => m.left < l.left) ∧
    (WellFounded fun m l : Lexer => ∃ ts ds, l.step = .found ts ds m) ∧
    (∀ s : TokenStream, s.nextBatch.1 ≠ some []) ∧
    ∃ found pos, (TokenStream.ofCursor cursor).tokens.1 = found ++ [.synthetic .eof pos] ∧
      (∀ t ∈ found, t.kind ≠ .eof) ∧
      ∀ pulls : List Pull,
        let drawn := ((TokenStream.ofCursor cursor).answers (pulls.map .pull)).1
        let demand := (pulls.map Pull.demand).sum
        drawn <+: found ++ [.synthetic .eof pos] ∧
          (drawn.length : ℕ∞) = min demand (found.length + 1) ∧
          (.synthetic .eof pos ∈ drawn ↔ found.length < demand) := by
  refine ⟨?_, Lexer.wellFounded_step, fun s => s.nextBatch_budget.2.1, ?_⟩
  · intro l
    cases h : l.step with
    | exhausted m => exact Lexer.atEnd_of_exhausted h
    | found ts ds m => exact Lexer.left_lt_of_found h
  · let s := TokenStream.ofCursor cursor
    have kinds : ∀ t ∈ s.lexer.run.tokens, t.kind ≠ .eof := fun t => s.lexer.reads_run.1.kind_ne_eof
    refine ⟨s.lexer.run.tokens, s.lexer.run.last.cursor.pos, ?_, kinds, ?_⟩
    · rw [TokenStream.tokens_eq rfl]
      rfl
    · intro pulls drawn demand
      have serves : TokenStream.Serves
          (s.lexer.run.tokens ++ [.synthetic .eof s.lexer.run.last.cursor.pos]) demand drawn _ :=
        s.answers_pull pulls
      have length := serves.length_eq
      rw [List.length_append, List.length_singleton, Nat.cast_add, Nat.cast_one] at length
      refine ⟨⟨_, serves.split⟩, length, serves.last_mem_iff ?_⟩
      intro mem
      exact kinds _ mem rfl

end Offside
