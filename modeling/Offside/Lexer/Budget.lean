import Offside.Lexer

/-! # The budget of a lexer

Every step that finds something leaves a smaller budget, and what is left covers all tokens still
to come. So reading ends, and the number of tokens is bounded before reading begins. -/

namespace Offside

namespace Cursor

theorem eatWhile_rest (p : Char → Bool) (c : Cursor) :
    (c.eatWhile p).2.rest = c.rest.dropWhile p := by
  have h : (c.rest.takeWhile p ++ c.rest.dropWhile p).drop (c.rest.takeWhile p).length =
      c.rest.dropWhile p := List.drop_left
  rw [List.takeWhile_append_dropWhile] at h
  simp [eatWhile, h]

theorem eatWhile_length_le (p : Char → Bool) (c : Cursor) :
    (c.eatWhile p).2.rest.length ≤ c.rest.length := by
  simp [eatWhile]

theorem eatWhile_length_lt {p : Char → Bool} {c : Cursor} {ch : Char} (h : c.peek = some ch)
    (hp : p ch = true) : (c.eatWhile p).2.rest.length < c.rest.length := by
  obtain ⟨rest, hr⟩ : ∃ rest, c.rest = ch :: rest := List.head?_eq_some_iff.1 h
  simp only [eatWhile, skip_rest, hr, List.takeWhile_cons, hp, if_true, List.length_cons,
    List.drop_succ_cons, List.length_drop]
  omega

theorem length_pos_of_peek {c : Cursor} {ch : Char} (h : c.peek = some ch) :
    0 < c.rest.length := by
  obtain ⟨rest, hr⟩ : ∃ rest, c.rest = ch :: rest := List.head?_eq_some_iff.1 h
  simp [hr]

end Cursor

namespace Lexer

/-- What a step owes: the tokens found and the budget left stay within the old budget. -/
def Spends (l : Lexer) (tokens : List Token) (next : Lexer) : Prop :=
  next.budget < l.budget ∧ tokens.length + next.budget ≤ l.budget

theorem spends_of_shorter {l : Lexer} {tokens : List Token} {cursor : Cursor}
    (h : cursor.rest.length < l.cursor.rest.length) (ht : tokens.length ≤ 1) :
    l.Spends tokens { l with cursor } := by
  simp only [Spends, budget]
  split <;> split <;> omega

theorem budget_le {l : Lexer} {cursor : Cursor} (hs : l.cursor.atLineStart = true)
    (h : cursor.rest.length ≤ l.cursor.rest.length) :
    budget { l with cursor } ≤ l.budget := by
  simp only [budget, hs, if_true]
  split <;> omega

theorem measure_length (i : Indentation) (width : Nat) :
    (i.measure width).2.widths.length ≤ i.widths.length + 1 ∧
      ∀ count, ((i.measure width).1 = .ok (.dedent count) ∨
        ∃ r d, (i.measure width).1 = .error (.misaligned r count d)) →
        count + (i.measure width).2.widths.length = i.widths.length := by
  have cut := congrArg List.length (List.takeWhile_append_dropWhile (p := (width < ·))
    (l := i.widths))
  rw [List.length_append] at cut
  rw [Indentation.measure_eq]
  split
  · simp
  · split
    · refine ⟨by simp only; omega, fun count hc => ?_⟩
      simp only at hc ⊢
      split at hc <;> simp at hc <;> omega
    · simp

/-- Measuring a line spends the line start itself. -/
theorem spends_of_measured {l : Lexer} {ts : List Token} {cursor : Cursor} {blocks : Indentation}
    (hs : l.cursor.atLineStart = true) (hr : cursor.rest.length ≤ l.cursor.rest.length)
    (hw : blocks.widths.length ≤ l.blocks.widths.length + 1)
    (ht : ts.length + blocks.widths.length ≤ l.blocks.widths.length + 2) :
    l.Spends ts ⟨cursor.leaveLineStart, blocks⟩ := by
  simp only [Spends, budget, hs, if_true, Cursor.leaveLineStart, Bool.false_eq_true, if_false]
  omega

theorem spends_measureLine {l m : Lexer} {width : Nat} {ts : List Token} {ds : List Diagnostic}
    {next : Lexer} (hs : l.cursor.atLineStart = true)
    (hr : m.cursor.rest.length ≤ l.cursor.rest.length) (hb : m.blocks = l.blocks)
    (h : m.measureLine width = .found ts ds next) : l.Spends ts next := by
  obtain ⟨hw, hcount⟩ := measure_length m.blocks width
  simp only [measureLine] at h
  rw [hb] at h hw hcount
  split at h
  · cases h
    exact spends_of_measured hs hr hw (by rw [List.length_nil]; omega)
  · cases h
    exact spends_of_measured hs hr hw (by rw [List.length_singleton]; omega)
  · next count hm =>
    cases h
    have := hcount count (.inl hm)
    exact spends_of_measured hs hr hw (by rw [List.length_replicate]; omega)
  · next r count d hm =>
    cases h
    have := hcount count (.inr ⟨r, d, hm⟩)
    exact spends_of_measured hs hr hw (by rw [List.length_replicate]; omega)
  · cases h
    exact spends_of_measured hs hr hw (by rw [List.length_nil]; omega)

theorem step_spends {l : Lexer} {ts : List Token} {ds : List Diagnostic} {next : Lexer}
    (h : l.step = .found ts ds next) : l.Spends ts next := by
  have spaces := Cursor.eatWhile_length_le (· == ' ') l.cursor
  have outcome := l.stepped
  generalize l.step = s at h outcome
  cases outcome with
  | ended => cases h
  | lastMargin => cases h
  | spaces hs hp =>
    cases h
    exact spends_of_shorter (Cursor.eatWhile_length_lt hp rfl) (Nat.zero_le 1)
  | newlines hp =>
    cases h
    exact spends_of_shorter (Cursor.eatWhile_length_lt hp rfl) (Nat.zero_le 1)
  | blankLine hs hp =>
    cases h
    have newlines := Cursor.eatWhile_length_lt (p := (· == '\n')) hp rfl
    exact spends_of_shorter (Nat.lt_of_lt_of_le newlines spaces) (Nat.zero_le 1)
  | line hs hp hn =>
    exact spends_measureLine (m := { l with cursor := l.cursor.eatSpaces.2 }) hs spaces rfl h
  | lexeme hp hb hn h0 hr =>
    cases h
    have nonempty := Cursor.length_pos_of_peek hp
    have extent := Lexeme.read?_extent_pos hr
    refine spends_of_shorter ?_ (Nat.le_refl 1)
    rw [Cursor.skip_rest, List.length_drop]
    exact Nat.sub_lt nonempty extent
  | stray hp hb hn h0 hr =>
    cases h
    have nonempty := Cursor.length_pos_of_peek hp
    refine spends_of_shorter ?_ (Nat.zero_le 1)
    rw [Cursor.next_rest, List.length_tail]
    exact Nat.sub_lt nonempty Nat.one_pos

theorem measureLine_ne_exhausted (l next : Lexer) (width : Nat) :
    l.measureLine width ≠ .exhausted next := by
  unfold measureLine
  simp only
  split <;> simp

theorem exhausted_budget {l next : Lexer} (h : l.step = .exhausted next) :
    next.budget ≤ l.budget ∧ next.cursor.peek = none := by
  have outcome := l.stepped
  generalize l.step = s at h outcome
  cases outcome with
  | ended hp =>
    cases h
    exact ⟨Nat.le_refl _, hp⟩
  | lastMargin hs hp =>
    cases h
    exact ⟨budget_le hs (Cursor.eatWhile_length_le (· == ' ') l.cursor), hp⟩
  | line => exact absurd h (measureLine_ne_exhausted _ _ _)
  | _ => cases h

end Lexer

end Offside
