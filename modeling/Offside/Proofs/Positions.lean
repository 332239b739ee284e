import Mathlib.Data.List.Pairwise
import Offside.Proofs.Run

/-! # Positions

Every position that a reading reports counts the newlines before it, and what is found is found in
the order of the text. The invariant of a move is that the lexer stands in the text where its
position says, with nothing but spaces before it on a line that has just begun. -/

namespace Offside

/-- A position in the part of a text that is read from `start` on. A counter that can number the
last line can number every line. -/
structure Position.Right (text : List Char) (start p : Position) : Prop where
  from_start : start.offset ≤ p.offset
  within : p.offset ≤ text.length
  line : p.line = start.line +
    ((text.drop start.offset).take (p.offset - start.offset)).count '\n'
  line_le : p.line ≤ start.line + (text.drop start.offset).count '\n'

def AtMargin (text : List Char) (offset : Nat) : Prop :=
  ∃ lines width, text.take offset = lines ++ List.replicate width ' ' ∧
    (lines = [] ∨ lines.getLast? = some '\n')

def FirstOnLine (text : List Char) (offset : Nat) : Prop :=
  AtMargin text offset ∧ ∃ c, text[offset]? = some c ∧ c ≠ ' ' ∧ c ≠ '\n'

/-- What may stand between two reports that follow each other. -/
def Diagnostic.Precedes (d e : Diagnostic) : Prop :=
  d.pos.offset < e.pos.offset ∨
    d.pos.offset = e.pos.offset ∧ (∃ width landedOn, d.problem = .inconsistentDedent width landedOn) ∧
      ∃ c, e.problem = .unrecognizedCharacter c

variable {text : List Char} {start p : Position}

theorem Position.right_start (h : start.offset ≤ text.length) : start.Right text start where
  from_start := Nat.le_refl _
  within := h
  line := by simp
  line_le := Nat.le_add_right _ _

theorem Position.Right.after (h : start.Right text p) {n : Nat}
    (hn : n ≤ (text.drop p.offset).length) :
    start.Right text (p.after ((text.drop p.offset).take n)) := by
  have offset : (p.after ((text.drop p.offset).take n)).offset = p.offset + n := by
    rw [Position.after_offset, List.length_take, Nat.min_eq_left hn]
  have line : (p.after ((text.drop p.offset).take n)).line = start.line +
      ((text.drop start.offset).take (p.offset + n - start.offset)).count '\n' := by
    have split : p.offset + n - start.offset = (p.offset - start.offset) + n := by
      have := h.from_start
      omega
    have dropped : (text.drop start.offset).drop (p.offset - start.offset) = text.drop p.offset := by
      rw [List.drop_drop, Nat.add_sub_cancel' h.from_start]
    rw [Position.after_line, h.line, split, List.take_add, List.count_append, dropped, Nat.add_assoc]
  have := h.from_start
  have := h.within
  rw [List.length_drop] at hn
  refine ⟨by omega, by omega, by rw [offset, line], ?_⟩
  rw [line]
  exact Nat.add_le_add_left ((List.take_sublist _ _).count_le _) _

structure Cursor.Checkpoint.Placed (text : List Char) (start : Position) (k : Checkpoint) : Prop where
  right : start.Right text k.pos
  rest : k.rest = text.drop k.pos.offset

theorem Cursor.Checkpoint.Placed.skip {c : Cursor} (h : c.checkpoint.Placed text start) {n : Nat}
    (hn : n ≤ c.rest.length) : (c.skip n).checkpoint.Placed text start := by
  have rest : c.rest = text.drop c.pos.offset := h.rest
  refine ⟨?_, ?_⟩
  · change start.Right text (c.skip n).pos
    rw [Cursor.skip_pos, rest]
    exact h.right.after (rest ▸ hn)
  · change (c.skip n).rest = text.drop (c.skip n).pos.offset
    rw [Cursor.skip_rest, rest, List.drop_drop, Cursor.skip_offset hn]

theorem Cursor.Checkpoint.Placed.peek_eq {c : Cursor} (h : c.checkpoint.Placed text start) :
    c.peek = text[c.pos.offset]? := by
  have rest : c.rest = text.drop c.pos.offset := h.rest
  rw [Cursor.peek, rest, List.head?_drop]

structure Stands (text : List Char) (start : Position) (l : Lexer) : Prop where
  right : start.Right text l.cursor.pos
  rest : l.cursor.rest = text.drop l.cursor.pos.offset
  margin : l.cursor.atLineStart = true → AtMargin text l.cursor.pos.offset

theorem Stands.placed {l : Lexer} (hs : Stands text start l) :
    l.cursor.checkpoint.Placed text start :=
  ⟨hs.right, hs.rest⟩

theorem Stands.advance {l : Lexer} (hs : Stands text start l) {n : Nat}
    (hn : n ≤ l.cursor.rest.length) :
    start.Right text (l.cursor.skip n).pos ∧
      (l.cursor.skip n).pos.offset = l.cursor.pos.offset + n ∧
      (l.cursor.skip n).rest = text.drop (l.cursor.skip n).pos.offset ∧
      text.take (l.cursor.skip n).pos.offset =
        text.take l.cursor.pos.offset ++ l.cursor.rest.take n := by
  have offset := Cursor.skip_offset hn
  have placed := hs.placed.skip hn
  refine ⟨placed.right, offset, placed.rest, ?_⟩
  rw [offset, List.take_add, hs.rest]

theorem atMargin_of_newline {taken : List Char} {offset : Nat} (h : text.take offset = taken)
    (hn : taken.getLast? = some '\n') : AtMargin text offset :=
  ⟨taken, 0, by simpa using h, .inr hn⟩

/-- The spaces that begin a line leave the lexer at its margin. -/
theorem Stands.eatSpaces {l : Lexer} (hs : Stands text start l) (hf : l.cursor.atLineStart = true) :
    AtMargin text l.cursor.eatSpaces.2.pos.offset := by
  have hle : (l.cursor.rest.takeWhile (· == ' ')).length ≤ l.cursor.rest.length :=
    (List.takeWhile_prefix _).length_le
  obtain ⟨-, -, -, taken⟩ := hs.advance hle
  obtain ⟨lines, width, before, hlines⟩ := hs.margin hf
  refine ⟨lines, width + (l.cursor.rest.takeWhile (· == ' ')).length, ?_, hlines⟩
  have spaces : l.cursor.rest.take (l.cursor.rest.takeWhile (· == ' ')).length =
      List.replicate (l.cursor.rest.takeWhile (· == ' ')).length ' ' := by
    rw [← List.prefix_iff_eq_take.1 (List.takeWhile_prefix _)]
    exact Lexeme.takeWhile_spaces _
  rw [spaces, before, List.append_assoc, List.replicate_append_replicate] at taken
  exact taken

theorem Stands.of_skip {l : Lexer} (hs : Stands text start l) {n : Nat}
    (hn : n ≤ l.cursor.rest.length) {flag : Bool} {blocks : Indentation}
    (hm : flag = true → AtMargin text (l.cursor.skip n).pos.offset) :
    Stands text start ⟨{ l.cursor.skip n with atLineStart := flag }, blocks⟩ := by
  obtain ⟨right, -, rest, -⟩ := hs.advance hn
  exact ⟨right, rest, hm⟩

/-- The lexer of a whole text, before it has read anything. -/
theorem stands_start (text : List Char) : Stands text .zero (.start (.ofList text)) :=
  ⟨Position.right_start (Nat.zero_le _), rfl, fun _ => ⟨[], 0, rfl, .inl rfl⟩⟩

theorem Stands.offset_of_rest_nil {l : Lexer} (hs : Stands text start l) (h : l.cursor.rest = []) :
    l.cursor.pos.offset = text.length := by
  have rest := hs.rest
  rw [h, eq_comm, List.drop_eq_nil_iff] at rest
  exact Nat.le_antisymm hs.right.within rest

namespace Lexer

theorem Move.stands {l m : Lexer} {ts ds} (h : Move l ts ds m) (hs : Stands text start l) :
    Stands text start m := by
  have spaces : (l.cursor.rest.takeWhile (· == ' ')).length ≤ l.cursor.rest.length :=
    (List.takeWhile_prefix _).length_le
  -- Only a newline read by the move lets a line begin behind it.
  have skip {n : Nat} (hn : n ≤ l.cursor.rest.length) (hf : l.cursor.atLineStart = false)
      (hlast : '\n' ∈ l.cursor.rest.take n → (l.cursor.rest.take n).getLast? = some '\n') :
      Stands text start { l with cursor := l.cursor.skip n } := by
    refine hs.of_skip hn fun hflag => ?_
    rw [Cursor.skip_atLineStart, hf, Bool.false_or, List.contains_iff_mem] at hflag
    obtain ⟨-, -, -, taken⟩ := hs.advance hn
    exact atMargin_of_newline taken (by rw [List.getLast?_append, hlast hflag, Option.some_or])
  cases h with
  | space hf hp =>
    obtain ⟨rest, hr⟩ := List.head?_eq_some_iff.1 hp
    exact skip (Cursor.length_pos_of_peek hp) hf (by simp [hr])
  | newline hp =>
    obtain ⟨rest, hr⟩ := List.head?_eq_some_iff.1 hp
    have hn : 1 ≤ l.cursor.rest.length := Cursor.length_pos_of_peek hp
    obtain ⟨-, -, -, taken⟩ := hs.advance hn
    refine hs.of_skip hn fun _ => atMargin_of_newline taken ?_
    simp [hr]
  | margin hf hp he => exact hs.of_skip spaces fun _ => hs.eatSpaces hf
  | line hf hp hn => exact hs.of_skip spaces (by simp)
  | lexeme hf hp hb hn hr =>
    obtain ⟨hle, covers⟩ := Lexeme.covers_of_read? hr
    exact skip hle hf covers.getLast?
  | stray hf hp hb hn hr =>
    obtain ⟨rest, hr⟩ := List.head?_eq_some_iff.1 hp
    exact skip (Cursor.length_pos_of_peek hp) hf (by simp [hr, Ne.symm hn])

theorem mem_diagnostics {lexeme : Lexeme} {c : Cursor} {d : Diagnostic}
    (h : d ∈ lexeme.diagnostics c) :
    ∃ f, lexeme.flaw = some f ∧ d = ⟨f.problem, (c.skip f.distance).pos⟩ := by
  obtain ⟨f, hf, rfl⟩ := List.mem_map.1 h
  exact ⟨f, by simpa using hf, rfl⟩

theorem Move.tokens_right {l m : Lexer} {ts ds} (h : Move l ts ds m) (hs : Stands text start l)
    {t : Token} (ht : t ∈ ts) :
    start.Right text t.pos ∧
      (t.kind = .indent ∨ t.kind = .dedent → FirstOnLine text t.pos.offset) := by
  have hm := h.stands hs
  cases h with
  | @line c hf hp hn =>
    have first : FirstOnLine text l.cursor.eatSpaces.2.pos.offset := by
      refine ⟨hs.eatSpaces hf, c, ?_, ?_, hn⟩
      · exact hm.placed.peek_eq.symm.trans hp
      · simpa using Cursor.peek_eatWhile hp
    rcases mem_layoutTokens ht with rfl | rfl
    · exact ⟨hm.right, fun _ => first⟩
    · exact ⟨hm.right, fun _ => first⟩
  | lexeme hf hp hb hn hr =>
    obtain rfl := List.mem_singleton.1 ht
    refine ⟨hs.right, fun hk => ?_⟩
    have synthetic := Lexeme.isSynthetic_of_read? hr
    change _ = TokenKind.indent ∨ _ = TokenKind.dedent at hk
    rcases hk with hk | hk <;> rw [Lexeme.token] at hk <;> simp_all [TokenKind.isSynthetic]
  | space => simp at ht
  | newline => simp at ht
  | margin => simp at ht
  | stray => simp at ht

theorem Move.diagnostics_right {l m : Lexer} {ts ds} (h : Move l ts ds m)
    (hs : Stands text start l) {d : Diagnostic} (hd : d ∈ ds) : start.Right text d.pos := by
  have hm := h.stands hs
  cases h with
  | line hf hp hn =>
    obtain ⟨_, _, rfl⟩ := mem_layoutReports hd
    exact hm.right
  | lexeme hf hp hb hn hr =>
    obtain ⟨f, hflaw, rfl⟩ := mem_diagnostics hd
    have hle := (Lexeme.flaw_of_read? hr hflaw).2.1.trans (Lexeme.covers_of_read? hr).1
    exact (hs.advance hle).1
  | stray hf hp hb hn hr =>
    obtain rfl := List.mem_singleton.1 hd
    exact hs.right
  | space => simp at hd
  | newline => simp at hd
  | margin => simp at hd

/-- All of a run is right, and the run ends at the end of the text. -/
theorem Reads.right {l m : Lexer} {ts ds} (h : Reads l ts ds m) (hs : Stands text start l) :
    (∀ t ∈ ts, start.Right text t.pos ∧
      (t.kind = .indent ∨ t.kind = .dedent → FirstOnLine text t.pos.offset)) ∧
    (∀ d ∈ ds, start.Right text d.pos) ∧ Stands text start m := by
  induction h with
  | refl l => exact ⟨by simp, by simp, hs⟩
  | move h _ ih =>
    obtain ⟨ht, hd, hm⟩ := ih (h.stands hs)
    refine ⟨fun t mem => ?_, fun d mem => ?_, hm⟩
    · rcases List.mem_append.1 mem with mem | mem
      · exact h.tokens_right hs mem
      · exact ht t mem
    · rcases List.mem_append.1 mem with mem | mem
      · exact h.diagnostics_right hs mem
      · exact hd d mem

theorem Reads.kind_ne_eof {l m : Lexer} {ts ds} (h : Reads l ts ds m) {t : Token} (ht : t ∈ ts) :
    t.kind ≠ .eof := by
  obtain ⟨n, o, _, _, vs, fs, -, move, ht⟩ := h.exists_move ht
  cases move with
  | line => rcases mem_layoutTokens ht with rfl | rfl <;> simp [Token.synthetic]
  | lexeme hf hp hb hn hr =>
    intro hk
    have synthetic := Lexeme.isSynthetic_of_read? hr
    rw [List.mem_singleton.1 ht, Lexeme.token] at hk
    simp_all [TokenKind.isSynthetic]
  | _ => simp at ht

theorem Move.offset_le {l m : Lexer} {ts ds} (h : Move l ts ds m) :
    l.cursor.pos.offset ≤ m.cursor.pos.offset := by
  obtain ⟨n, -, -, hp⟩ := h.skips
  rw [hp, Position.after_offset]
  omega

/-- Away from the beginning of a line every move gets on. -/
theorem Move.offset_lt {l m : Lexer} {ts ds} (h : Move l ts ds m)
    (hs : l.cursor.atLineStart = false) : l.cursor.pos.offset < m.cursor.pos.offset := by
  cases h with
  | space hf hp => simp [Cursor.next_offset hp]
  | newline hp => simp [Cursor.next_offset hp]
  | margin hf => simp [hs] at hf
  | line hf => simp [hs] at hf
  | lexeme hf hp hb hn hr =>
    simpa [Cursor.skip_offset (Lexeme.covers_of_read? hr).1] using Lexeme.read?_extent_pos hr
  | stray hf hp => simp [Cursor.next_offset hp]

/-- Only a lexeme is not synthetic, and it lies behind where the move begins. -/
theorem Move.token_offset {l m : Lexer} {ts ds} (h : Move l ts ds m) {t : Token} (ht : t ∈ ts) :
    l.cursor.pos.offset ≤ t.pos.offset ∧ t.pos.offset ≤ m.cursor.pos.offset ∧
      (t.isSynthetic = false → t.pos.offset < m.cursor.pos.offset) := by
  have hle := h.offset_le
  cases h with
  | line hf hp hn =>
    have synthetic := isSynthetic_of_layoutTokens ht
    have here : t.pos = l.cursor.eatSpaces.2.pos := by
      rcases mem_layoutTokens ht with rfl | rfl <;> rfl
    rw [here]
    exact ⟨hle, Nat.le_refl _, fun hs => by simp [synthetic] at hs⟩
  | lexeme hf hp hb hn hr =>
    obtain rfl := List.mem_singleton.1 ht
    have pos := Lexeme.read?_extent_pos hr
    refine ⟨Nat.le_refl _, hle, fun _ => ?_⟩
    simp only [Cursor.skip_offset (Lexeme.covers_of_read? hr).1, Lexeme.token]
    omega
  | space => simp at ht
  | newline => simp at ht
  | margin => simp at ht
  | stray => simp at ht

/-- Where a move reports something: at its end, when nothing is left to read, or a line's depth; and
at its beginning, away from a line's beginning, only a character that begins nothing. -/
theorem Move.diagnostic_offset {l m : Lexer} {ts ds} (h : Move l ts ds m) {d : Diagnostic}
    (hd : d ∈ ds) :
    l.cursor.pos.offset ≤ d.pos.offset ∧ d.pos.offset ≤ m.cursor.pos.offset ∧
      (d.pos.offset = m.cursor.pos.offset → m.cursor.rest = [] ∨ m.cursor.atLineStart = false ∧
        ∃ width landedOn, d.problem = .inconsistentDedent width landedOn) ∧
      (d.pos.offset = l.cursor.pos.offset → l.cursor.atLineStart = false →
        ∃ c, d.problem = .unrecognizedCharacter c) := by
  have hle := h.offset_le
  cases h with
  | line hf hp hn =>
    obtain ⟨width, landedOn, rfl⟩ := mem_layoutReports hd
    exact ⟨hle, Nat.le_refl _, fun _ => .inr ⟨rfl, width, landedOn, rfl⟩, fun _ hf' => by
      simp [hf] at hf'⟩
  | @lexeme c lexeme hf hp hb hn hr =>
    obtain ⟨f, hflaw, rfl⟩ := mem_diagnostics hd
    obtain ⟨pos, inside, last, -⟩ := Lexeme.flaw_of_read? hr hflaw
    have covered := (Lexeme.covers_of_read? hr).1
    simp only [Cursor.skip_offset covered, Cursor.skip_offset (inside.trans covered)]
    refine ⟨by omega, by omega, fun he => .inl ?_, fun he => by omega⟩
    rw [Cursor.skip_rest]
    exact last (by omega)
  | stray hf hp hb hn hr =>
    obtain rfl := List.mem_singleton.1 hd
    refine ⟨Nat.le_refl _, hle, fun he => ?_, fun _ _ => ⟨_, rfl⟩⟩
    simp [Cursor.next_offset hp] at he
  | space => simp at hd
  | newline => simp at hd
  | margin => simp at hd

theorem Move.tokens_ordered {l m : Lexer} {ts ds} (h : Move l ts ds m) :
    ts.Pairwise (fun t u => t.pos.offset ≤ u.pos.offset) ∧
      (Token.lexemes ts).Pairwise (fun t u => t.pos.offset < u.pos.offset) := by
  cases h with
  | line hf hp hn =>
    have here : ∀ t ∈ layoutTokens (l.blocks.measure l.cursor.eatSpaces.1).1
        l.cursor.eatSpaces.2.pos, t.pos = l.cursor.eatSpaces.2.pos := by
      intro t ht
      rcases mem_layoutTokens ht with rfl | rfl <;> rfl
    constructor
    · apply List.pairwise_of_forall_mem_list
      intro t ht u hu
      rw [here t ht, here u hu]
    · rw [lexemes_layoutTokens]
      exact .nil
  | lexeme hf hp hb hn hr =>
    exact ⟨List.pairwise_singleton _ _, (List.pairwise_singleton _ _).filter _⟩
  | space => exact ⟨.nil, .nil⟩
  | newline => exact ⟨.nil, .nil⟩
  | margin => exact ⟨.nil, .nil⟩
  | stray => exact ⟨.nil, .nil⟩

theorem Reads.token_offset {l m : Lexer} {ts ds} (h : Reads l ts ds m) {t : Token} (ht : t ∈ ts) :
    l.cursor.pos.offset ≤ t.pos.offset := by
  induction h with
  | refl => simp at ht
  | move h _ ih =>
    rcases List.mem_append.1 ht with ht | ht
    · exact (h.token_offset ht).1
    · exact h.offset_le.trans (ih ht)

theorem Reads.tokens_ordered {l m : Lexer} {ts ds} (h : Reads l ts ds m) :
    ts.Pairwise (fun t u => t.pos.offset ≤ u.pos.offset) ∧
      (Token.lexemes ts).Pairwise (fun t u => t.pos.offset < u.pos.offset) := by
  induction h with
  | refl => exact ⟨.nil, .nil⟩
  | move h hr ih =>
    obtain ⟨first, firstLexemes⟩ := h.tokens_ordered
    obtain ⟨later, laterLexemes⟩ := ih
    rw [Token.lexemes_append, List.pairwise_append, List.pairwise_append]
    refine ⟨⟨first, later, fun t ht u hu => ?_⟩, firstLexemes, laterLexemes, fun t ht u hu => ?_⟩
    · exact (h.token_offset ht).2.1.trans (hr.token_offset hu)
    · obtain ⟨ht, hs⟩ := List.mem_filter.1 ht
      have before := (h.token_offset ht).2.2 (by simpa using hs)
      exact before.trans_le (hr.token_offset (List.mem_filter.1 hu).1)

theorem Reads.diagnostic_offset {l m : Lexer} {ts ds} (h : Reads l ts ds m) {d : Diagnostic}
    (hd : d ∈ ds) :
    l.cursor.rest ≠ [] ∧ l.cursor.pos.offset ≤ d.pos.offset ∧
      (d.pos.offset = l.cursor.pos.offset → l.cursor.atLineStart = false →
        ∃ c, d.problem = .unrecognizedCharacter c) := by
  induction h with
  | refl => simp at hd
  | move h _ ih =>
    refine ⟨h.rest_ne_nil, ?_⟩
    rcases List.mem_append.1 hd with hd | hd
    · obtain ⟨hle, -, -, stray⟩ := h.diagnostic_offset hd
      exact ⟨hle, stray⟩
    · obtain ⟨-, hle, -⟩ := ih hd
      refine ⟨h.offset_le.trans hle, fun he hs => ?_⟩
      have := h.offset_lt hs
      omega

theorem Move.diagnostics_ordered {l m : Lexer} {ts ds} (h : Move l ts ds m) :
    ds.Pairwise Diagnostic.Precedes := by
  cases h with
  | line =>
    unfold layoutReports
    split
    · exact List.pairwise_singleton _ _
    · exact .nil
  | @lexeme c lexeme =>
    unfold Lexeme.diagnostics
    cases lexeme.flaw
    · exact .nil
    · exact List.pairwise_singleton _ _
  | stray => exact List.pairwise_singleton _ _
  | _ => exact .nil

/-- After a report at the end of a move only a character that begins nothing can share its place. -/
theorem Reads.diagnostics_ordered {l m : Lexer} {ts ds} (h : Reads l ts ds m) :
    ds.Pairwise Diagnostic.Precedes := by
  induction h with
  | refl => exact .nil
  | move h hr ih =>
    refine List.pairwise_append.2 ⟨h.diagnostics_ordered, ih, fun d hd e he => ?_⟩
    obtain ⟨-, hle, last, -⟩ := h.diagnostic_offset hd
    obtain ⟨more, hge, stray⟩ := hr.diagnostic_offset he
    rcases (hle.trans hge).lt_or_eq with hlt | heq
    · exact .inl hlt
    · rcases last (by omega) with done | ⟨hs, depth⟩
      · exact absurd done more
      · exact .inr ⟨heq, depth, stray (by omega) hs⟩

end Lexer

structure Located (text : List Char) (start : Position) (tokens : List Token)
    (diagnostics : List Diagnostic) : Prop where
  tokens_right : ∀ t ∈ tokens, start.Right text t.pos
  diagnostics_right : ∀ d ∈ diagnostics, start.Right text d.pos
  ends : ∃ read last, tokens = read ++ [last] ∧ (∀ t ∈ read, t.kind ≠ .eof) ∧ last.kind = .eof ∧
    last.pos.offset = text.length
  tokens_ordered : tokens.Pairwise fun t u => t.pos.offset ≤ u.pos.offset
  lexemes_ordered : (Token.lexemes tokens).Pairwise fun t u =>
    t.pos.offset < u.pos.offset
  diagnostics_ordered : diagnostics.Pairwise Diagnostic.Precedes
  layout_first : ∀ t ∈ tokens, t.kind = .indent ∨ t.kind = .dedent →
    FirstOnLine text t.pos.offset

theorem located_of_stands {l : Lexer} (hs : Stands text start l) :
    Located text start (l.run.tokens ++ [.synthetic .eof l.run.last.cursor.pos])
      l.run.diagnostics := by
  obtain ⟨reads, done⟩ := l.reads_run
  obtain ⟨tokens, diagnostics, last⟩ := reads.right hs
  obtain ⟨ordered, lexemes⟩ := reads.tokens_ordered
  have atEnd := last.offset_of_rest_nil done
  refine ⟨?_, diagnostics, ⟨_, _, rfl, ?_, rfl, atEnd⟩, ?_, ?_, reads.diagnostics_ordered, ?_⟩
  · intro t ht
    rcases List.mem_append.1 ht with ht | ht
    · exact (tokens t ht).1
    · rw [List.mem_singleton.1 ht]
      exact last.right
  · exact fun t ht => reads.kind_ne_eof ht
  · refine List.pairwise_append.2 ⟨ordered, List.pairwise_singleton _ _, fun t ht u hu => ?_⟩
    rw [List.mem_singleton.1 hu]
    exact (tokens t ht).1.within.trans_eq atEnd.symm
  · simpa using lexemes
  · intro t ht hk
    rcases List.mem_append.1 ht with ht | ht
    · exact (tokens t ht).2 hk
    · rw [List.mem_singleton.1 ht] at hk
      simp [Token.synthetic] at hk

theorem tokenize_located (source : String) :
    Located source.toList .zero (tokenize source).tokens (tokenize source).diagnostics := by
  rw [tokenize_eq]
  exact located_of_stands (stands_start source.toList)

/-- Wherever reading starts, every token and every diagnostic is where it says. -/
theorem startAt_located (source : String) (start : Position) (h : start.offset ≤ source.length) :
    ∃ s, TokenStream.startAt source start = .ok s ∧
      Located source.toList start s.tokens.1 s.tokens.2.diagnostics.toList := by
  have hle : start.offset ≤ source.toList.length := by rwa [String.length_toList]
  have hs : Cursor.startAt source.toList start = .ok ⟨source.toList.drop start.offset, start,
      start.offset = 0 || source.toList[start.offset - 1]? == some '\n'⟩ := by
    rw [Cursor.startAt, if_neg (by omega)]
  refine ⟨_, by rw [TokenStream.startAt, hs]; rfl, ?_⟩
  rw [TokenStream.tokens_eq rfl]
  simp only [TokenStream.ofCursor, TokenStream.drained, List.nil_append]
  have stands : Stands source.toList start (.start ⟨source.toList.drop start.offset, start,
      start.offset = 0 || source.toList[start.offset - 1]? == some '\n'⟩) := by
    refine ⟨Position.right_start hle, rfl, fun hflag => ?_⟩
    by_cases h0 : start.offset = 0
    · exact ⟨[], 0, by simp [Lexer.start, h0], .inl rfl⟩
    · refine ⟨source.toList.take start.offset, 0, by simp [Lexer.start], .inr ?_⟩
      have before : source.toList[start.offset - 1]? = some '\n' := by
        simpa [Lexer.start, h0] using hflag
      rw [List.getLast?_take, if_neg h0, before, Option.some_or]
  simpa using located_of_stands stands

theorem startAt_located_second_line :
    2 ≤ "a\n  b\n @".length ∧ ∃ s, TokenStream.startAt "a\n  b\n @" ⟨7, 2⟩ = .ok s ∧
      Located "a\n  b\n @".toList ⟨7, 2⟩ s.tokens.1 s.tokens.2.diagnostics.toList :=
  ⟨by decide, startAt_located "a\n  b\n @" ⟨7, 2⟩ (by decide)⟩

end Offside
