import Offside.Lexer.Budget
import Offside.Proofs.Lexemes

/-! # Moves of a lexer

A step of a lexer may pass over many characters at once. Here the same reading is cut into moves:
one space, one newline, the margin of a blank line, the measuring of a line, one lexeme, one
character that begins nothing. Every step is a sequence of moves, and at most one move is open to a
lexer, so what moves do is what a whole reading does. -/

namespace Offside

namespace Cursor

variable {c : Cursor} {p : Char → Bool} {ch : Char}

theorem eatWhile_next (h : c.peek = some ch) (hp : p ch = true) :
    (c.eatWhile p).2 = (c.next.eatWhile p).2 := by
  obtain ⟨rest, hr⟩ : ∃ rest, c.rest = ch :: rest := List.head?_eq_some_iff.1 h
  simp [eatWhile, hr, hp, skip_succ]

theorem eatWhile_none (h : ∀ ch, c.peek = some ch → p ch = false) : c.eatWhile p = (0, c) := by
  have ht : c.rest.takeWhile p = [] := by
    cases hr : c.rest with
    | nil => rfl
    | cons ch rest => simp [h ch (by simp [peek, hr])]
  simp [eatWhile, ht]

theorem eatWhile_pos (p : Char → Bool) (c : Cursor) :
    (c.eatWhile p).2.pos = c.pos.after (c.rest.takeWhile p) := by
  rw [eatWhile, skip_pos, ← List.prefix_iff_eq_take.1 (List.takeWhile_prefix p)]

theorem skip_offset {n : Nat} (hn : n ≤ c.rest.length) :
    (c.skip n).pos.offset = c.pos.offset + n := by
  rw [skip_pos, Position.after_offset, List.length_take, Nat.min_eq_left hn]

theorem next_offset (h : c.peek = some ch) : c.next.pos.offset = c.pos.offset + 1 :=
  skip_offset (length_pos_of_peek h)

theorem skip_atLineStart (c : Cursor) (n : Nat) :
    (c.skip n).atLineStart = (c.atLineStart || (c.rest.take n).contains '\n') := by
  induction n generalizing c with
  | zero => simp
  | succ n ih =>
    rw [skip_succ, ih]
    cases hr : c.rest with
    | nil => simp [next, hr]
    | cons ch rest =>
      simp only [next, hr, List.take_succ_cons, List.contains_cons, Bool.or_assoc]
      rw [Bool.beq_comm]

/-- Nothing but the offset goes on where no newline is read. -/
theorem skip_line {n : ℕ} (hn : n ≤ c.rest.length) (line : '\n' ∉ c.rest.take n) :
    c.skip n = ⟨c.rest.drop n, ⟨c.pos.line, c.pos.offset + n⟩, c.atLineStart⟩ := by
  have rest := c.skip_rest n
  have offset := skip_offset hn
  have flag := c.skip_atLineStart n
  have lines : (c.skip n).pos.line = c.pos.line := by
    rw [skip_pos, Position.after_line, List.count_eq_zero.2 line, Nat.add_zero]
  generalize c.skip n = s at *
  obtain ⟨_, ⟨_, _⟩, _⟩ := s
  simp_all

theorem take_verbatim {text : List Char} (front : text <+: c.rest) (line : '\n' ∉ text)
    (kind : TokenKind) :
    c.take (.verbatim kind text) = (⟨kind, String.ofList text, c.pos⟩, [],
      ⟨c.rest.drop text.length, ⟨c.pos.line, c.pos.offset + text.length⟩, c.atLineStart⟩) := by
  have taken : c.rest.take text.length = text := (List.prefix_iff_eq_take.1 front).symm
  rw [take, Lexeme.verbatim, skip_line front.length_le (by rwa [taken])]
  rfl

theorem peek_eatWhile (h : (c.eatWhile p).2.peek = some ch) : p ch = false := by
  rw [peek, eatWhile_rest] at h
  simpa [h] using List.head?_dropWhile_not p c.rest

end Cursor

@[simp] theorem Lexeme.isSynthetic_token (lexeme : Lexeme) (pos : Position) :
    (lexeme.token pos).isSynthetic = lexeme.kind.isSynthetic := rfl

namespace Token

def lexemes (ts : List Token) : List Token := ts.filter fun t => !t.isSynthetic

@[simp] theorem lexemes_append (ts us : List Token) : lexemes (ts ++ us) = lexemes ts ++ lexemes us :=
  List.filter_append ts us

@[simp] theorem lexemes_eof (pos : Position) : lexemes [.synthetic .eof pos] = [] := rfl

theorem lexemes_eq_self {ts : List Token} (h : ∀ t ∈ ts, t.isSynthetic = false) :
    lexemes ts = ts :=
  List.filter_eq_self.2 fun t ht => by simp [h t ht]

theorem lexemes_eq_nil {ts : List Token} (h : ∀ t ∈ ts, t.isSynthetic = true) : lexemes ts = [] :=
  List.filter_eq_nil_iff.2 fun t ht => by simp [h t ht]

end Token

namespace Lexer

open Indentation (Fault Change)

def layoutTokens (measured : Except Fault Change) (pos : Position) : List Token :=
  match measured with
  | .ok .unchanged => []
  | .ok .indent => [.synthetic .indent pos]
  | .ok (.dedent count) => List.replicate count (.synthetic .dedent pos)
  | .error (.misaligned _ popped _) => List.replicate popped (.synthetic .dedent pos)
  | .error _ => []

def layoutReports (measured : Except Fault Change) (pos : Position) : List Diagnostic :=
  match measured with
  | .error (.misaligned requested _ landedOn) => [⟨.inconsistentDedent requested landedOn, pos⟩]
  | _ => []

theorem measureLine_eq (l : Lexer) (width : Nat) :
    l.measureLine width =
      .found (layoutTokens (l.blocks.measure width).1 l.cursor.pos)
        (layoutReports (l.blocks.measure width).1 l.cursor.pos)
        ⟨l.cursor.leaveLineStart, (l.blocks.measure width).2⟩ := by
  unfold measureLine
  simp only
  split <;> simp_all [layoutTokens, layoutReports]

theorem mem_layoutTokens {measured : Except Fault Change} {pos : Position} {t : Token}
    (h : t ∈ layoutTokens measured pos) : t = .synthetic .indent pos ∨ t = .synthetic .dedent pos := by
  unfold layoutTokens at h
  split at h
  · simp at h
  · exact .inl (List.mem_singleton.1 h)
  · exact .inr (List.mem_replicate.1 h).2
  · exact .inr (List.mem_replicate.1 h).2
  · simp at h

theorem isSynthetic_of_layoutTokens {measured : Except Fault Change} {pos : Position} {t : Token}
    (h : t ∈ layoutTokens measured pos) : t.isSynthetic = true := by
  rcases mem_layoutTokens h with rfl | rfl <;> rfl

@[simp] theorem lexemes_layoutTokens (measured : Except Fault Change) (pos : Position) :
    Token.lexemes (layoutTokens measured pos) = [] :=
  Token.lexemes_eq_nil fun _ => isSynthetic_of_layoutTokens

theorem mem_layoutReports {measured : Except Fault Change} {pos : Position} {d : Diagnostic}
    (h : d ∈ layoutReports measured pos) :
    ∃ requested landedOn, d = ⟨.inconsistentDedent requested landedOn, pos⟩ := by
  unfold layoutReports at h
  split at h
  · exact ⟨_, _, List.mem_singleton.1 h⟩
  · simp at h

/-- Only the spaces and the newlines are passed over without a lexeme or a report. -/
inductive Move (l : Lexer) : List Token → List Diagnostic → Lexer → Prop where
  | space (hs : l.cursor.atLineStart = false) (hp : l.cursor.peek = some ' ') :
      Move l [] [] { l with cursor := l.cursor.next }
  | newline (hp : l.cursor.peek = some '\n') :
      Move l [] [] { l with cursor := l.cursor.next }
  | margin (hs : l.cursor.atLineStart = true) (hp : l.cursor.peek = some ' ')
      (he : ∀ c, l.cursor.eatSpaces.2.peek = some c → c = '\n') :
      Move l [] [] { l with cursor := l.cursor.eatSpaces.2 }
  | line {c : Char} (hs : l.cursor.atLineStart = true)
      (hp : l.cursor.eatSpaces.2.peek = some c) (hn : c ≠ '\n') :
      Move l (layoutTokens (l.blocks.measure l.cursor.eatSpaces.1).1 l.cursor.eatSpaces.2.pos)
        (layoutReports (l.blocks.measure l.cursor.eatSpaces.1).1 l.cursor.eatSpaces.2.pos)
        ⟨l.cursor.eatSpaces.2.leaveLineStart, (l.blocks.measure l.cursor.eatSpaces.1).2⟩
  | lexeme {c : Char} {lexeme : Lexeme} (hs : l.cursor.atLineStart = false)
      (hp : l.cursor.peek = some c) (hb : c ≠ ' ') (hn : c ≠ '\n')
      (hr : Lexeme.read? l.cursor.rest = some lexeme) :
      Move l [lexeme.token l.cursor.pos] (lexeme.diagnostics l.cursor)
        { l with cursor := l.cursor.skip lexeme.extent }
  | stray {c : Char} (hs : l.cursor.atLineStart = false) (hp : l.cursor.peek = some c)
      (hb : c ≠ ' ') (hn : c ≠ '\n') (hr : Lexeme.read? l.cursor.rest = none) :
      Move l [] [⟨.unrecognizedCharacter c, l.cursor.pos⟩] { l with cursor := l.cursor.next }

inductive Reads : Lexer → List Token → List Diagnostic → Lexer → Prop where
  | refl (l) : Reads l [] [] l
  | move {l m n ts us ds es} : Move l ts ds m → Reads m us es n → Reads l (ts ++ us) (ds ++ es) n

theorem Move.reads {l m : Lexer} {ts ds} (h : Move l ts ds m) : Reads l ts ds m := by
  simpa using Reads.move h (.refl m)

theorem Reads.trans {l m n : Lexer} {ts us ds es} (h : Reads l ts ds m) (k : Reads m us es n) :
    Reads l (ts ++ us) (ds ++ es) n := by
  induction h with
  | refl => exact k
  | move h _ ih => simpa using Reads.move h (ih k)

/-- A token of a run is a token of one of its moves. -/
theorem Reads.exists_move {l m : Lexer} {ts ds} (h : Reads l ts ds m) {t : Token} (ht : t ∈ ts) :
    ∃ n o us es vs fs, Reads l us es n ∧ Move n vs fs o ∧ t ∈ vs := by
  induction h with
  | refl => simp at ht
  | move h _ ih =>
    rcases List.mem_append.1 ht with ht | ht
    · exact ⟨_, _, _, _, _, _, .refl _, h, ht⟩
    · obtain ⟨n, o, us, es, vs, fs, before, move, ht⟩ := ih ht
      exact ⟨n, o, _, _, vs, fs, .move h before, move, ht⟩

theorem Move.rest_ne_nil {l m : Lexer} {ts ds} (h : Move l ts ds m) : l.cursor.rest ≠ [] := by
  intro hr
  cases h with
  | line hs hp hn =>
    rw [Cursor.peek, Cursor.eatSpaces, Cursor.eatWhile_rest, hr] at hp
    simp at hp
  | space hs hp => simp [Cursor.peek, hr] at hp
  | newline hp => simp [Cursor.peek, hr] at hp
  | margin hs hp => simp [Cursor.peek, hr] at hp
  | lexeme hs hp => simp [Cursor.peek, hr] at hp
  | stray hs hp => simp [Cursor.peek, hr] at hp

/-- A move reads on from where it begins. -/
theorem Move.skips {l m : Lexer} {ts ds} (h : Move l ts ds m) :
    ∃ n ≤ l.cursor.rest.length, m.cursor.rest = l.cursor.rest.drop n ∧
      m.cursor.pos = l.cursor.pos.after (l.cursor.rest.take n) := by
  have one (c : Char) (hp : l.cursor.peek = some c) : 1 ≤ l.cursor.rest.length :=
    Cursor.length_pos_of_peek hp
  have spaces : (l.cursor.rest.takeWhile (· == ' ')).length ≤ l.cursor.rest.length :=
    (List.takeWhile_prefix _).length_le
  cases h with
  | space hs hp => exact ⟨1, one _ hp, l.cursor.skip_rest 1, l.cursor.skip_pos 1⟩
  | newline hp => exact ⟨1, one _ hp, l.cursor.skip_rest 1, l.cursor.skip_pos 1⟩
  | margin => exact ⟨_, spaces, l.cursor.skip_rest _, l.cursor.skip_pos _⟩
  | line => exact ⟨_, spaces, l.cursor.skip_rest _, l.cursor.skip_pos _⟩
  | lexeme hs hp hb hn hr =>
    exact ⟨_, (Lexeme.covers_of_read? hr).1, l.cursor.skip_rest _, l.cursor.skip_pos _⟩
  | stray hs hp => exact ⟨1, one _ hp, l.cursor.skip_rest 1, l.cursor.skip_pos 1⟩

/-- At most one move is open to a lexer: the first characters and the flag tell the moves apart. -/
theorem Move.deterministic {l m n : Lexer} {ts us ds es} (h : Move l ts ds m) (k : Move l us es n) :
    ts = us ∧ ds = es ∧ m = n := by
  have still (hn : l.cursor.peek = some '\n') : l.cursor.eatSpaces.2 = l.cursor :=
    congrArg Prod.snd (Cursor.eatWhile_none (by simp [hn]))
  cases h with
  | space hs hp => cases k <;> grind
  | newline hp => cases k <;> grind
  | margin hs hp he => cases k <;> grind
  | line hs hp hn => cases k <;> grind
  | lexeme hs hp hb hn hr => cases k <;> grind
  | stray hs hp hb hn hr => cases k <;> grind

theorem Reads.unique {l m n : Lexer} {ts us ds es} (h : Reads l ts ds m) (k : Reads l us es n)
    (hm : m.cursor.rest = []) (hn : n.cursor.rest = []) : ts = us ∧ ds = es ∧ m = n := by
  induction h generalizing us es with
  | refl =>
    cases k with
    | refl => exact ⟨rfl, rfl, rfl⟩
    | move k _ => exact absurd hm k.rest_ne_nil
  | move h _ ih =>
    cases k with
    | refl => exact absurd hn h.rest_ne_nil
    | move k kr =>
      obtain ⟨rfl, rfl, rfl⟩ := h.deterministic k
      obtain ⟨rfl, rfl, rfl⟩ := ih kr hm
      exact ⟨rfl, rfl, rfl⟩

theorem reads_newlines (l : Lexer) : Reads l [] [] { l with cursor := l.cursor.eatNewlines.2 } := by
  obtain ⟨c, blocks⟩ := l
  generalize hr : c.rest = rest
  induction rest generalizing c with
  | nil =>
    rw [Cursor.eatNewlines, Cursor.eatWhile_none (by simp [Cursor.peek, hr])]
    exact .refl _
  | cons ch rest ih =>
    have hp : c.peek = some ch := by simp [Cursor.peek, hr]
    by_cases hn : ch = '\n'
    · subst hn
      rw [Cursor.eatNewlines, Cursor.eatWhile_next hp rfl]
      exact .move (.newline hp) (ih c.next (by simp [hr]))
    · rw [Cursor.eatNewlines, Cursor.eatWhile_none (by simp [hp, hn])]
      exact .refl _

theorem reads_spaces {l : Lexer} (hs : l.cursor.atLineStart = false) :
    Reads l [] [] { l with cursor := l.cursor.eatSpaces.2 } := by
  obtain ⟨c, blocks⟩ := l
  generalize hr : c.rest = rest
  induction rest generalizing c with
  | nil =>
    rw [Cursor.eatSpaces, Cursor.eatWhile_none (by simp [Cursor.peek, hr])]
    exact .refl _
  | cons ch rest ih =>
    have hp : c.peek = some ch := by simp [Cursor.peek, hr]
    by_cases hb : ch = ' '
    · subst hb
      rw [Cursor.eatSpaces, Cursor.eatWhile_next hp rfl]
      refine .move (.space hs hp) (ih c.next ?_ (by simp [hr]))
      simpa [Cursor.next, hr] using hs
    · rw [Cursor.eatSpaces, Cursor.eatWhile_none (by simp [hp, hb])]
      exact .refl _

/-- The spaces before a newline or before nothing are a margin; without spaces nothing moves. -/
theorem reads_margin {l : Lexer} (hs : l.cursor.atLineStart = true)
    (he : ∀ c, l.cursor.eatSpaces.2.peek = some c → c = '\n') :
    Reads l [] [] { l with cursor := l.cursor.eatSpaces.2 } := by
  by_cases hb : l.cursor.peek = some ' '
  · exact (Move.margin hs hb he).reads
  · have still : l.cursor.eatSpaces.2 = l.cursor :=
      congrArg Prod.snd (Cursor.eatWhile_none (by grind))
    rw [still]
    exact .refl l

/-- A line that begins at the base level without a space is as good as measured. -/
theorem move_leaveLineStart {l : Lexer} {c : Char} (hs : l.cursor.atLineStart = true)
    (hp : l.cursor.peek = some c) (hb : c ≠ ' ') (hn : c ≠ '\n') (h0 : l.blocks.current = 0) :
    Move l [] [] { l with cursor := l.cursor.leaveLineStart } := by
  have still : l.cursor.eatSpaces = (0, l.cursor) := Cursor.eatWhile_none (by simp [hp, hb])
  have unchanged : l.blocks.measure 0 = (.ok .unchanged, l.blocks) := by
    simp [Indentation.measure_eq, h0]
  have h := Move.line (l := l) (c := c) hs (by rw [still]; exact hp) hn
  simpa [still, unchanged, layoutTokens, layoutReports] using h

/-- So a line is entered, or has been entered before. -/
theorem reads_leaveLineStart {l : Lexer} {c : Char} (hp : l.cursor.peek = some c) (hb : c ≠ ' ')
    (hn : c ≠ '\n') (h0 : l.cursor.atLineStart = true → l.blocks.current = 0) :
    Reads l [] [] { l with cursor := l.cursor.leaveLineStart } := by
  cases hs : l.cursor.atLineStart with
  | true => exact (move_leaveLineStart hs hp hb hn (h0 hs)).reads
  | false =>
    have same : l.cursor.leaveLineStart = l.cursor := by rw [Cursor.leaveLineStart, ← hs]
    rw [same]
    exact .refl l

/-- A step that finds something passes over space, perhaps none, and then makes one move or stays. -/
theorem step_found {l m : Lexer} {ts ds} (h : l.step = .found ts ds m) :
    ∃ between, Reads l [] [] between ∧
      (ts = [] ∧ ds = [] ∧ m = between ∨ Move between ts ds m) := by
  have outcome := l.stepped
  generalize l.step = s at h outcome
  cases outcome with
  | ended => cases h
  | lastMargin => cases h
  | spaces hs hp =>
    cases h
    exact ⟨_, reads_spaces hs, .inl ⟨rfl, rfl, rfl⟩⟩
  | newlines hp =>
    cases h
    exact ⟨_, reads_newlines l, .inl ⟨rfl, rfl, rfl⟩⟩
  | blankLine hs hp =>
    cases h
    have margin := reads_margin hs (by simp [hp])
    exact ⟨_, margin.trans (reads_newlines { l with cursor := l.cursor.eatSpaces.2 }),
      .inl ⟨rfl, rfl, rfl⟩⟩
  | line hs hp hn =>
    rw [measureLine_eq] at h
    cases h
    exact ⟨l, .refl l, .inr (.line hs hp hn)⟩
  | lexeme hp hb hn h0 hr =>
    cases h
    exact ⟨_, reads_leaveLineStart hp hb hn h0, .inr (.lexeme rfl hp hb hn hr)⟩
  | stray hp hb hn h0 hr =>
    cases h
    exact ⟨_, reads_leaveLineStart hp hb hn h0, .inr (.stray rfl hp hb hn hr)⟩

theorem reads_of_found {l m : Lexer} {ts ds} (h : l.step = .found ts ds m) : Reads l ts ds m := by
  obtain ⟨between, passed, ⟨rfl, rfl, rfl⟩ | move⟩ := step_found h
  · exact passed
  · exact passed.trans move.reads

theorem reads_of_exhausted {l m : Lexer} (h : l.step = .exhausted m) : Reads l [] [] m := by
  have outcome := l.stepped
  generalize l.step = s at h outcome
  cases outcome with
  | ended =>
    cases h
    exact .refl l
  | lastMargin hs hp =>
    cases h
    exact reads_margin hs (by simp [hp])
  | line => exact absurd h (measureLine_ne_exhausted _ _ _)
  | _ => cases h

theorem rest_of_exhausted {l m : Lexer} (h : l.step = .exhausted m) : m.cursor.rest = [] :=
  List.head?_eq_none_iff.1 (exhausted_budget h).2

theorem step_of_rest_nil {l : Lexer} (h : l.cursor.rest = []) : l.step = .exhausted l := by
  simp [step, Cursor.peek, h]

end Lexer

end Offside
