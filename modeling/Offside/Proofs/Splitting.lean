import Offside.Proofs.Run

/-! # Splitting a reading

What a lexer does up to the end of a line is not changed by what follows, nor by where the text is
taken to begin; and within a line the open blocks play no part. So a run over a long text falls
into runs over its pieces. -/

namespace Offside

namespace Position

theorem shift_next (base p : Position) (c : Char) :
    (base.shift p).next c = base.shift (p.next c) := by
  by_cases hc : c = '\n' <;> simp [next, shift, hc, Nat.add_assoc]

theorem after_eq (p : Position) (cs : List Char) :
    p.after cs = ⟨p.line + cs.count '\n', p.offset + cs.length⟩ := by
  rw [← after_line, ← after_offset]

@[simp] theorem shift_zero (p : Position) : zero.shift p = p := by
  simp [shift, zero]

end Position

def Token.shift (base : Position) (t : Token) : Token := { t with pos := base.shift t.pos }

def Diagnostic.shift (base : Position) (d : Diagnostic) : Diagnostic :=
  { d with pos := base.shift d.pos }

@[simp] theorem Token.map_shift_zero (ts : List Token) : ts.map (shift .zero) = ts :=
  List.map_id'' (fun t => by simp [shift]) ts

@[simp] theorem Diagnostic.map_shift_zero (ds : List Diagnostic) : ds.map (shift .zero) = ds :=
  List.map_id'' (fun d => by simp [shift]) ds

@[simp] theorem Lexeme.shift_token (l : Lexeme) (base pos : Position) :
    (l.token pos).shift base = l.token (base.shift pos) := rfl

namespace Cursor

variable {c : Cursor} {n : Nat} {p : Char → Bool}

def feed (c : Cursor) (more : List Char) : Cursor := { c with rest := c.rest ++ more }

@[simp] theorem pos_feed (c : Cursor) (more : List Char) : (c.feed more).pos = c.pos := rfl

@[simp] theorem leaveLineStart_feed (c : Cursor) (more : List Char) :
    (c.feed more).leaveLineStart = c.leaveLineStart.feed more := rfl

theorem peek_feed (h : c.rest ≠ []) (more : List Char) : (c.feed more).peek = c.peek := by
  obtain ⟨ch, rest, hr⟩ := List.exists_cons_of_ne_nil h
  simp [peek, feed, hr]

theorem next_feed (h : c.rest ≠ []) (more : List Char) :
    (c.feed more).next = c.next.feed more := by
  obtain ⟨ch, rest, hr⟩ := List.exists_cons_of_ne_nil h
  simp [next, feed, hr]

theorem skip_feed (h : n ≤ c.rest.length) (more : List Char) :
    (c.feed more).skip n = (c.skip n).feed more := by
  induction n generalizing c with
  | zero => rfl
  | succ n ih =>
    have hne : c.rest ≠ [] := List.length_pos_iff.1 (Nat.zero_lt_of_lt h)
    rw [skip_succ, skip_succ, next_feed hne, ih]
    rw [next_rest, List.length_tail]
    omega

/-- The newline that is still to come stops the spaces. -/
theorem eatSpaces_feed (h : '\n' ∈ c.rest) (more : List Char) :
    (c.feed more).eatSpaces = (c.eatSpaces.1, c.eatSpaces.2.feed more) := by
  have hle : (c.rest.takeWhile (· == ' ')).length ≤ c.rest.length :=
    (List.takeWhile_prefix _).length_le
  have stops : (c.rest.takeWhile (· == ' ')).length ≠ c.rest.length := fun he => by
    rw [← (List.takeWhile_prefix _).eq_of_length he] at h
    simpa using Lexeme.eq_space_of_mem_takeWhile h
  have same : (c.feed more).rest.takeWhile (· == ' ') = c.rest.takeWhile (· == ' ') := by
    rw [feed, List.takeWhile_append, if_neg stops]
  simp only [eatSpaces, eatWhile, same, skip_feed hle]

end Cursor

namespace Lexer

def feed (l : Lexer) (more : List Char) : Lexer := { l with cursor := l.cursor.feed more }

/-- The text to read ends with a newline, or that newline has been read. -/
def EndsLine (l : Lexer) : Prop :=
  l.cursor.rest.getLast? = some '\n' ∨ l.cursor.rest = [] ∧ l.cursor.atLineStart = true

theorem EndsLine.newline_mem {l : Lexer} (h : l.EndsLine) (hne : l.cursor.rest ≠ []) :
    '\n' ∈ l.cursor.rest := by
  rcases h with h | ⟨h, -⟩
  · exact List.mem_of_getLast? h
  · exact absurd h hne

/-- Reading on, the newline at the end is either still to come or has just been read. -/
theorem EndsLine.skip {l : Lexer} (h : l.EndsLine) (n : Nat) {blocks : Indentation} :
    EndsLine ⟨l.cursor.skip n, blocks⟩ := by
  have split := List.take_append_drop n l.cursor.rest
  rcases h with h | ⟨h, hs⟩
  · rw [← split, List.getLast?_append] at h
    rcases hr : (l.cursor.rest.drop n).getLast? with _ | c
    · rw [hr, Option.none_or] at h
      have taken : '\n' ∈ l.cursor.rest.take n := List.mem_of_getLast? h
      right
      exact ⟨by simpa using hr, by simp [Cursor.skip_atLineStart, taken]⟩
    · rw [hr, Option.some_or] at h
      left
      simpa [hr] using h
  · right
    exact ⟨by simp [h], by simp [Cursor.skip_atLineStart, hs]⟩

theorem Move.endsLine {l m : Lexer} {ts ds} (h : Move l ts ds m) (hl : l.EndsLine) : m.EndsLine := by
  cases h with
  | space => exact hl.skip 1
  | newline => exact hl.skip 1
  | margin => exact hl.skip _
  | line hs hp hn =>
    have ends : EndsLine ⟨l.cursor.eatSpaces.2, l.blocks⟩ := hl.skip _
    rcases ends with h | ⟨h, -⟩
    · exact .inl h
    · have nothing : l.cursor.eatSpaces.2.peek = none := List.head?_eq_none_iff.2 h
      simp [hp] at nothing
  | lexeme => exact hl.skip _
  | stray => exact hl.skip 1

theorem read?_append {cs : List Char} (h : '\n' ∈ cs) (more : List Char) :
    Lexeme.read? (cs ++ more) = Lexeme.read? cs := by
  obtain ⟨line, rest, rfl, hn⟩ := List.eq_append_cons_of_mem h
  rw [List.append_assoc, List.cons_append]
  exact Lexeme.read?_line hn _ _

theorem diagnostics_feed {c : Cursor} {lexeme : Lexeme} (h : Lexeme.read? c.rest = some lexeme)
    (more : List Char) : lexeme.diagnostics (c.feed more) = lexeme.diagnostics c := by
  have covered := (Lexeme.covers_of_read? h).1
  refine List.map_congr_left fun f hf => ?_
  have inside := (Lexeme.flaw_of_read? h (Option.mem_toList.1 hf)).2.1
  rw [Cursor.skip_feed (inside.trans covered)]
  rfl

/-- A move does the same when more lines follow the last one. -/
theorem Move.feed {l m : Lexer} {ts ds} (h : Move l ts ds m) (hl : l.EndsLine) (more : List Char) :
    Move (l.feed more) ts ds (m.feed more) := by
  have hne := h.rest_ne_nil
  have hnl := hl.newline_mem hne
  have front := Cursor.peek_feed hne more
  have next := Cursor.next_feed hne more
  have spaces := Cursor.eatSpaces_feed hnl more
  have read := read?_append hnl more
  have nonempty : l.cursor.eatSpaces.2.rest ≠ [] := by
    intro he
    rw [Cursor.eatSpaces, Cursor.eatWhile_rest, List.dropWhile_eq_nil_iff] at he
    simpa using he _ hnl
  have past := Cursor.peek_feed nonempty more
  cases h with
  | space hs hp =>
    have move := Move.space (l := l.feed more) hs (front.trans hp)
    simpa only [Lexer.feed, next] using move
  | newline hp =>
    have move := Move.newline (l := l.feed more) (front.trans hp)
    simpa only [Lexer.feed, next] using move
  | margin hs hp he =>
    have move := Move.margin (l := l.feed more) hs (front.trans hp)
      (by simpa only [Lexer.feed, spaces, past] using he)
    simpa only [Lexer.feed, spaces] using move
  | line hs hp hn =>
    have move := Move.line (l := l.feed more) hs
      (by simpa only [Lexer.feed, spaces, past] using hp) hn
    simpa only [Lexer.feed, spaces, Cursor.pos_feed, Cursor.leaveLineStart_feed] using move
  | lexeme hs hp hb hn hr =>
    have move := Move.lexeme (l := l.feed more) hs (front.trans hp) hb hn (read.trans hr)
    simpa only [Lexer.feed, diagnostics_feed hr, Cursor.pos_feed,
      Cursor.skip_feed (Lexeme.covers_of_read? hr).1] using move
  | stray hs hp hb hn hr =>
    have move := Move.stray (l := l.feed more) hs (front.trans hp) hb hn (read.trans hr)
    simpa only [Lexer.feed, next, Cursor.pos_feed] using move

theorem Reads.feed {l m : Lexer} {ts ds} (h : Reads l ts ds m) (hl : l.EndsLine)
    (more : List Char) : Reads (l.feed more) ts ds (m.feed more) ∧ m.EndsLine := by
  induction h with
  | refl l => exact ⟨.refl _, hl⟩
  | move h _ ih =>
    obtain ⟨reads, hm⟩ := ih (h.endsLine hl)
    exact ⟨.move (h.feed hl more) reads, hm⟩

theorem Reads.skips {l m : Lexer} {ts ds} (h : Reads l ts ds m) :
    ∃ taken, l.cursor.rest = taken ++ m.cursor.rest ∧ m.cursor.pos = l.cursor.pos.after taken := by
  induction h with
  | refl l => exact ⟨[], rfl, rfl⟩
  | @move l m n _ _ _ _ h _ ih =>
    obtain ⟨k, -, hr, hp⟩ := h.skips
    obtain ⟨taken, hrest, hpos⟩ := ih
    refine ⟨l.cursor.rest.take k ++ taken, ?_, ?_⟩
    · rw [List.append_assoc, ← hrest, hr, List.take_append_drop]
    · rw [hpos, hp, Position.after_append]

/-- A run ends behind all that there is to read. -/
theorem run_last_pos (l : Lexer) : l.run.last.cursor.pos = l.cursor.pos.after l.cursor.rest := by
  obtain ⟨reads, done⟩ := l.reads_run
  obtain ⟨taken, hr, hp⟩ := reads.skips
  rw [hp, hr, done, List.append_nil]

/-- A run over whole lines, and then the run over what follows them. -/
theorem run_feed {l : Lexer} (hl : l.cursor.rest.getLast? = some '\n') (more : List Char) :
    (l.feed more).run = .after l.run.tokens l.run.diagnostics
      (run ⟨⟨more, l.cursor.pos.after l.cursor.rest, true⟩, l.run.last.blocks⟩) := by
  obtain ⟨reads, done⟩ := l.reads_run
  obtain ⟨reads, ends⟩ := reads.feed (.inl hl) more
  rw [reads.run_eq]
  have hs : l.run.last.cursor.atLineStart = true := by
    rcases ends with h | ⟨-, h⟩
    · simp [done] at h
    · exact h
  have hp := l.run_last_pos
  have last : l.run.last.feed more =
      ⟨⟨more, l.cursor.pos.after l.cursor.rest, true⟩, l.run.last.blocks⟩ := by
    simp [Lexer.feed, Cursor.feed, done, hs, hp]
  rw [last]

end Lexer

namespace Cursor

variable {base : Position} {c : Cursor}

def shift (base : Position) (c : Cursor) : Cursor := { c with pos := base.shift c.pos }

@[simp] theorem pos_shift : (c.shift base).pos = base.shift c.pos := rfl

@[simp] theorem peek_shift : (c.shift base).peek = c.peek := rfl

@[simp] theorem leaveLineStart_shift :
    (c.shift base).leaveLineStart = c.leaveLineStart.shift base := rfl

theorem next_shift (base : Position) (c : Cursor) : (c.shift base).next = c.next.shift base := by
  cases hr : c.rest with
  | nil => simp [next, shift, hr]
  | cons ch rest => simp [next, shift, hr, Position.shift_next]

theorem skip_shift (base : Position) (c : Cursor) (n : Nat) :
    (c.shift base).skip n = (c.skip n).shift base := by
  induction n generalizing c with
  | zero => rfl
  | succ n ih => rw [skip_succ, skip_succ, next_shift, ih]

theorem eatSpaces_shift (base : Position) (c : Cursor) :
    (c.shift base).eatSpaces = (c.eatSpaces.1, c.eatSpaces.2.shift base) := by
  simp only [eatSpaces, eatWhile, skip_shift]
  rfl

end Cursor

namespace Lexer

def shift (base : Position) (l : Lexer) : Lexer := { l with cursor := l.cursor.shift base }

variable {base : Position}

theorem layoutTokens_shift (measured : Except Indentation.Fault Indentation.Change)
    (pos : Position) : layoutTokens measured (base.shift pos) =
      (layoutTokens measured pos).map (Token.shift base) := by
  unfold layoutTokens
  split <;> simp [Token.shift, Token.synthetic]

theorem layoutReports_shift (measured : Except Indentation.Fault Indentation.Change)
    (pos : Position) : layoutReports measured (base.shift pos) =
      (layoutReports measured pos).map (Diagnostic.shift base) := by
  unfold layoutReports
  split <;> rfl

theorem diagnostics_shift (lexeme : Lexeme) (c : Cursor) :
    lexeme.diagnostics (c.shift base) = (lexeme.diagnostics c).map (Diagnostic.shift base) := by
  rw [Lexeme.diagnostics, Lexeme.diagnostics, List.map_map]
  refine List.map_congr_left fun f _ => ?_
  rw [Cursor.skip_shift]
  rfl

/-- A move does the same wherever the text is taken to begin. -/
theorem Move.shift {l m : Lexer} {ts ds} (h : Move l ts ds m) (base : Position) :
    Move (l.shift base) (ts.map (Token.shift base)) (ds.map (Diagnostic.shift base))
      (m.shift base) := by
  have next := Cursor.next_shift base l.cursor
  have spaces := Cursor.eatSpaces_shift base l.cursor
  cases h with
  | space hs hp =>
    have move := Move.space (l := l.shift base) hs hp
    simpa [Lexer.shift, next] using move
  | newline hp =>
    have move := Move.newline (l := l.shift base) hp
    simpa [Lexer.shift, next] using move
  | margin hs hp he =>
    have move := Move.margin (l := l.shift base) hs hp (by simpa [Lexer.shift, spaces] using he)
    simpa [Lexer.shift, spaces] using move
  | line hs hp hn =>
    have move := Move.line (l := l.shift base) hs (by simpa [Lexer.shift, spaces] using hp) hn
    rw [← layoutTokens_shift, ← layoutReports_shift]
    simpa [Lexer.shift, spaces] using move
  | lexeme hs hp hb hn hr =>
    have move := Move.lexeme (l := l.shift base) hs hp hb hn hr
    simpa [Lexer.shift, diagnostics_shift, Cursor.skip_shift] using move
  | stray hs hp hb hn hr =>
    have move := Move.stray (l := l.shift base) hs hp hb hn hr
    simpa [Lexer.shift, next, Diagnostic.shift] using move

theorem Reads.shift {l m : Lexer} {ts ds} (h : Reads l ts ds m) (base : Position) :
    Reads (l.shift base) (ts.map (Token.shift base)) (ds.map (Diagnostic.shift base))
      (m.shift base) := by
  induction h with
  | refl l => exact .refl _
  | move h _ ih =>
    rw [List.map_append, List.map_append]
    exact .move (h.shift base) ih

theorem run_shift (l : Lexer) (base : Position) :
    (l.shift base).run = ⟨l.run.tokens.map (Token.shift base),
      l.run.diagnostics.map (Diagnostic.shift base), l.run.last.shift base⟩ := by
  obtain ⟨reads, done⟩ := l.reads_run
  exact (reads.shift base).run_eq_of_rest_nil done

def InLine (l : Lexer) : Prop :=
  l.cursor.rest = [] ∨ l.cursor.atLineStart = false ∧ '\n' ∉ l.cursor.rest.dropLast

theorem InLine.skip {l : Lexer} (h : l.InLine) (n : Nat) {blocks : Indentation} :
    InLine ⟨l.cursor.skip n, blocks⟩ := by
  rcases h with h | ⟨hs, hn⟩
  · exact .inl (by simp [h])
  · by_cases hd : l.cursor.rest.drop n = []
    · exact .inl (by rw [Cursor.skip_rest, hd])
    · rw [← List.take_append_drop n l.cursor.rest, List.dropLast_append_of_ne_nil hd,
        List.mem_append, not_or] at hn
      exact .inr ⟨by simp [Cursor.skip_atLineStart, hs, hn.1], by simpa using hn.2⟩

/-- Within a line, only what is written is found, whatever blocks are open. -/
theorem Move.inLine {l m : Lexer} {ts ds} (h : Move l ts ds m) (hl : l.InLine) :
    m.InLine ∧ m.blocks = l.blocks ∧ (∀ t ∈ ts, t.isSynthetic = false) ∧
      ∀ blocks, Move { l with blocks } ts ds { m with blocks } := by
  have hs : l.cursor.atLineStart = false := by
    rcases hl with hl | ⟨hs, -⟩
    · exact absurd hl h.rest_ne_nil
    · exact hs
  cases h with
  | space _ hp => exact ⟨hl.skip 1, rfl, by simp, fun _ => .space hs hp⟩
  | newline hp => exact ⟨hl.skip 1, rfl, by simp, fun _ => .newline hp⟩
  | margin hf => simp [hs] at hf
  | line hf => simp [hs] at hf
  | lexeme _ hp hb hn hr =>
    exact ⟨hl.skip _, rfl, by simpa using Lexeme.isSynthetic_of_read? hr,
      fun _ => .lexeme hs hp hb hn hr⟩
  | stray _ hp hb hn hr => exact ⟨hl.skip 1, rfl, by simp, fun _ => .stray hs hp hb hn hr⟩

theorem Reads.inLine {l m : Lexer} {ts ds} (h : Reads l ts ds m) (hl : l.InLine) :
    m.blocks = l.blocks ∧ (∀ t ∈ ts, t.isSynthetic = false) ∧
      ∀ blocks, Reads { l with blocks } ts ds { m with blocks } := by
  induction h with
  | refl l => exact ⟨rfl, by simp, fun _ => .refl _⟩
  | move h _ ih =>
    obtain ⟨hm, kept, real, move⟩ := h.inLine hl
    obtain ⟨kept', real', reads⟩ := ih hm
    refine ⟨kept'.trans kept, fun t ht => ?_, fun blocks => .move (move blocks) (reads blocks)⟩
    rcases List.mem_append.1 ht with ht | ht
    · exact real t ht
    · exact real' t ht

theorem run_inLine {l : Lexer} (hl : l.InLine) :
    (∀ t ∈ l.run.tokens, t.isSynthetic = false) ∧
      ∀ blocks, run { l with blocks } =
        ⟨l.run.tokens, l.run.diagnostics, { l.run.last with blocks }⟩ := by
  obtain ⟨reads, done⟩ := l.reads_run
  obtain ⟨-, real, reads⟩ := reads.inLine hl
  exact ⟨real, fun blocks => (reads blocks).run_eq_of_rest_nil done⟩

end Lexer

end Offside
