import Offside.Proofs.Highlighting
import Offside.Proofs.Places

/-! # Overruns

A character that begins nothing is shown in red, in a piece of its own, unless a string or a unit
value overruns it. How far these two reach is told from what comes behind them: they are shown as
long as something visible stands before the next lexeme, and what stands there begins nothing. Any
other lexeme is as long as its text. -/

namespace Offside.Interactive

def placed (start : ℕ) : List Piece → List (ℕ × Piece)
  | [] => []
  | p :: ps => (start, p) :: placed (start + p.source.length) ps

structure ShownRed (line : String) (k : ℕ) (c : Char) : Prop where
  written : ∃ before after, pieces line = before ++ .unrecognized c :: after ∧
    (before.flatMap Piece.source).length = k ∧
    highlightSource line = String.join (before.map Piece.render) ++
      ("\x1b[31m" ++ String.singleton c ++ "\x1b[39m") ++ String.join (after.map Piece.render)
  alone : ∀ i kind text, (i, .lexeme kind text) ∈ placed 0 (pieces line) →
    ¬ (i ≤ k ∧ k < i + text.length)

/-- Something visible that begins nothing stands at `k` or behind it, before any lexeme that begins
later than the token. -/
def Trailed (lexed : Lexed) (t : Token) (k : ℕ) : Prop :=
  ∃ c pos, ⟨.unrecognizedCharacter c, pos⟩ ∈ lexed.diagnostics ∧ Text.isBlank c = false ∧
    k ≤ pos.offset ∧
    ∀ u ∈ Token.lexemes lexed.tokens, t.pos.offset < u.pos.offset → pos.offset < u.pos.offset

def shown (text : List Char) (t : Token) (ts : List Token) : List Char :=
  let span := tokenSpan t (text.drop t.pos.offset) ts
  span.take (lexemeLength t span)

variable {bad : List ℕ} {text : List Char} {t : Token} {ts : List Token} {start i k : ℕ}
  {c : Char} {p q : Piece} {ps qs : List Piece} {ds : List Diagnostic} {l : Lexeme}

theorem placed_append (start : ℕ) (ps qs : List Piece) :
    placed start (ps ++ qs) =
      placed start ps ++ placed (start + (ps.flatMap Piece.source).length) qs := by
  induction ps generalizing start with
  | nil => rfl
  | cons p ps ih =>
    rw [List.cons_append, placed, placed, ih, List.flatMap_cons, List.length_append, Nat.add_assoc,
      List.cons_append]

theorem exists_split_of_mem_placed (h : (i, p) ∈ placed start ps) :
    ∃ before after, ps = before ++ p :: after ∧
      i = start + (before.flatMap Piece.source).length := by
  induction ps generalizing start with
  | nil => cases h
  | cons q ps ih =>
    rcases List.mem_cons.1 h with h | h
    · cases h
      exact ⟨[], ps, rfl, rfl⟩
    · obtain ⟨before, after, rfl, rfl⟩ := ih h
      refine ⟨q :: before, after, rfl, ?_⟩
      rw [List.flatMap_cons, List.length_append, Nat.add_assoc]

theorem exists_mem_placed (hle : start ≤ k) (hlt : k < start + (ps.flatMap Piece.source).length) :
    ∃ i p, (i, p) ∈ placed start ps ∧ i ≤ k ∧ k < i + p.source.length := by
  induction ps generalizing start with
  | nil => exact absurd hlt (Nat.not_lt_of_le hle)
  | cons p ps ih =>
    by_cases here : k < start + p.source.length
    · exact ⟨start, p, List.mem_cons_self, hle, here⟩
    · rw [List.flatMap_cons, List.length_append, ← Nat.add_assoc] at hlt
      obtain ⟨i, q, mem, inside⟩ := ih (Nat.le_of_not_lt here) hlt
      exact ⟨i, q, List.mem_cons_of_mem _ mem, inside⟩

theorem gapPieces_cons (bad : List ℕ) (start : ℕ) (c : Char) (gap : List Char) :
    gapPieces bad start (c :: gap) =
      (if bad.contains start then .unrecognized c else .plain c) ::
        gapPieces bad (start + 1) gap := by
  rw [gapPieces, List.zipIdx_cons, List.map_cons]
  rfl

theorem mem_placed_gapPieces {gap : List Char}
    (h : (i, p) ∈ placed start (gapPieces bad start gap)) :
    ∃ c, p = if bad.contains i then .unrecognized c else .plain c := by
  induction gap generalizing start with
  | nil => cases h
  | cons c gap ih =>
    rw [gapPieces_cons] at h
    rcases List.mem_cons.1 h with h | h
    · cases h
      exact ⟨c, rfl⟩
    · apply ih
      have one :
          (if bad.contains start then Piece.unrecognized c else .plain c).source.length = 1 := by
        split <;> rfl
      rwa [one] at h

theorem length_shown (text : List Char) (t : Token) (ts : List Token) :
    (shown text t ts).length = lexemeLength t (tokenSpan t (text.drop t.pos.offset) ts) := by
  rw [shown, List.length_take, Nat.min_eq_left (lexemeLength_le _ _)]

theorem placed_piecesFrom_cons (h : Ahead text start (t :: ts)) :
    placed start (piecesFrom bad start (text.drop start) (t :: ts)) =
      placed start (gapPieces bad start ((text.drop start).take (t.pos.offset - start))) ++
        (t.pos.offset, .lexeme t.kind (shown text t ts)) ::
          placed (t.pos.offset + (shown text t ts).length)
            (piecesFrom bad (t.pos.offset + (shown text t ts).length)
              (text.drop (t.pos.offset + (shown text t ts).length)) ts) := by
  obtain ⟨start_le, -⟩ := h.of_cons
  have within := h.within t List.mem_cons_self
  have dropped : (text.drop start).drop (t.pos.offset - start) = text.drop t.pos.offset := by
    rw [List.drop_drop, Nat.add_sub_cancel' start_le]
  have gap : start + ((text.drop start).take (t.pos.offset - start)).length = t.pos.offset := by
    rw [List.length_take, List.length_drop]
    omega
  have cut : piecesFrom bad start (text.drop start) (t :: ts) =
      gapPieces bad start ((text.drop start).take (t.pos.offset - start)) ++
        .lexeme t.kind (shown text t ts) ::
          piecesFrom bad (t.pos.offset + (shown text t ts).length)
            (text.drop (t.pos.offset + (shown text t ts).length)) ts := by
    rw [piecesFrom_cons, dropped, List.drop_drop, length_shown]
    rfl
  rw [cut, placed_append, gapPieces_source, gap, placed]
  rfl

/-- A piece is a lexeme as it is shown, or a character between lexemes. -/
theorem mem_placed_piecesFrom (ahead : Ahead text start ts)
    (h : (i, p) ∈ placed start (piecesFrom bad start (text.drop start) ts)) :
    (∃ c, p = if bad.contains i then .unrecognized c else .plain c) ∨
      ∃ before t after, ts = before ++ t :: after ∧ i = t.pos.offset ∧
        p = .lexeme t.kind (shown text t after) := by
  induction ts generalizing start with
  | nil => exact .inl (mem_placed_gapPieces h)
  | cons t ts ih =>
    rw [placed_piecesFrom_cons ahead] at h
    rcases List.mem_append.1 h with h | h
    · exact .inl (mem_placed_gapPieces h)
    · rcases List.mem_cons.1 h with h | h
      · cases h
        exact .inr ⟨[], t, ts, rfl, rfl, rfl⟩
      · rw [length_shown] at h
        rcases ih ahead.behind h with gap | ⟨before, u, after, rfl, lexeme⟩
        · exact .inl gap
        · exact .inr ⟨t :: before, u, after, rfl, lexeme⟩

theorem shown_mem_placed (bad : List ℕ) {before after : List Token}
    (ahead : Ahead text start (before ++ t :: after)) :
    (t.pos.offset, .lexeme t.kind (shown text t after)) ∈
      placed start (piecesFrom bad start (text.drop start) (before ++ t :: after)) := by
  induction before generalizing start with
  | nil =>
    rw [List.nil_append] at ahead ⊢
    rw [placed_piecesFrom_cons ahead]
    exact List.mem_append_right _ List.mem_cons_self
  | cons u before ih =>
    rw [List.cons_append] at ahead ⊢
    rw [placed_piecesFrom_cons ahead, length_shown]
    exact List.mem_append_right _ (List.mem_cons_of_mem _ (ih ahead.behind))

theorem mem_unrecognizedOffsets :
    k ∈ unrecognizedOffsets ds ↔
      ∃ c pos, ⟨.unrecognizedCharacter c, pos⟩ ∈ ds ∧ pos.offset = k := by
  rw [unrecognizedOffsets, List.mem_filterMap]
  constructor
  · rintro ⟨⟨problem, pos⟩, hd, found⟩
    cases problem with
    | unrecognizedCharacter c => exact ⟨c, pos, hd, Option.some.inj found⟩
    | _ => cases found
  · rintro ⟨c, pos, hd, rfl⟩
    exact ⟨_, hd, rfl⟩

theorem getElem?_tokenSpan {i : ℕ} :
    (tokenSpan t (text.drop t.pos.offset) ts)[i]? = some c ↔
      text[t.pos.offset + i]? = some c ∧ t.pos.offset + i < nextStart text ts := by
  cases ts with
  | nil =>
    rw [tokenSpan, List.getElem?_drop, nextStart]
    exact ⟨fun h => ⟨h, (List.getElem?_eq_some_iff.1 h).1⟩, And.left⟩
  | cons u ts =>
    rw [tokenSpan, nextStart, List.getElem?_take, List.getElem?_drop, Option.ite_none_right_eq_some]
    constructor
    · rintro ⟨hlt, there⟩
      exact ⟨there, by omega⟩
    · rintro ⟨there, hlt⟩
      exact ⟨by omega, there⟩

/-- A string or a unit value goes on as long as something visible is there before the next token. -/
theorem lt_length_shown_iff (loose : t.kind = .string ∨ t.kind = .unit) (hle : t.pos.offset ≤ k) :
    k < t.pos.offset + (shown text t ts).length ↔
      ∃ j c, k ≤ j ∧ j < nextStart text ts ∧ text[j]? = some c ∧ Text.isBlank c = false := by
  have length : (shown text t ts).length =
      (Text.dropBlanksEnd (tokenSpan t (text.drop t.pos.offset) ts)).length := by
    rw [length_shown]
    unfold lexemeLength
    rcases loose with kind | kind <;> rw [kind]
  obtain ⟨i, rfl⟩ := Nat.exists_eq_add_of_le hle
  rw [length, Nat.add_lt_add_iff_left, Text.lt_length_dropBlanksEnd_iff]
  constructor
  · rintro ⟨j, c, hij, there, notBlank⟩
    obtain ⟨there, before⟩ := getElem?_tokenSpan.1 there
    exact ⟨t.pos.offset + j, c, by omega, before, there, notBlank⟩
  · rintro ⟨j, c, hij, before, there, notBlank⟩
    obtain ⟨j, rfl⟩ := Nat.exists_eq_add_of_le ((Nat.le_add_right _ i).trans hij)
    exact ⟨j, c, by omega, getElem?_tokenSpan.2 ⟨there, before⟩, notBlank⟩

theorem length_shown_le (scanned : t.Scanned text l) (hs : t.kind ≠ .string) (hu : t.kind ≠ .unit) :
    (shown text t ts).length ≤ l.extent := by
  rw [length_shown, ← scanned.length hs hu]
  unfold lexemeLength
  split
  · contradiction
  · contradiction
  · exact Nat.min_le_left _ _

theorem nextStart_le_of_mem {u : Token}
    (ordered : ts.Pairwise fun t u => t.pos.offset < u.pos.offset) (hu : u ∈ ts) :
    nextStart text ts ≤ u.pos.offset := by
  cases ts with
  | nil => cases hu
  | cons following ts =>
    rcases List.mem_cons.1 hu with rfl | hu
    · exact Nat.le_refl _
    · exact ((List.pairwise_cons.1 ordered).1 u hu).le

section

variable {line : String} {before after : List Token}
  (split : Token.lexemes (tokenize line).tokens = before ++ t :: after)

include split

theorem mem_and_ordered :
    t ∈ Token.lexemes (tokenize line).tokens ∧ (∀ u ∈ before, u.pos.offset < t.pos.offset) ∧
      (∀ u ∈ after, t.pos.offset < u.pos.offset) ∧
      after.Pairwise fun t u => t.pos.offset < u.pos.offset := by
  have ordered := (ahead_lexemes line).ordered
  rw [split, List.pairwise_append, List.pairwise_cons] at ordered
  obtain ⟨-, ⟨later, ordered⟩, earlier⟩ := ordered
  exact ⟨by simp [split], fun u hu => earlier u hu t List.mem_cons_self, later, ordered⟩

/-- Something visible behind a token, before the next one, begins nothing. -/
theorem exists_stray_behind (scanned : t.Scanned line.toList l)
    (behind : t.pos.offset + l.extent ≤ k) (next : k < nextStart line.toList after)
    (there : line.toList[k]? = some c) (notBlank : Text.isBlank c = false) :
    ∃ row, ⟨.unrecognizedCharacter c, ⟨row, k⟩⟩ ∈ (tokenize line).diagnostics := by
  have laid := tokenize_laid line
  obtain ⟨ht, earlier, -, ordered⟩ := mem_and_ordered split
  have within : k < line.toList.length := (List.getElem?_eq_some_iff.1 there).1
  rcases laid.place k c there (Nat.zero_le k) within with
    blank | stray | ⟨u, hu, l', read, hle, hlt⟩
  · rcases blank with rfl | rfl <;> cases notBlank
  · exact stray
  · have mem := hu
    rw [split] at mem
    rcases List.mem_append.1 mem with mem | mem
    · have := laid.stop_le hu ht (earlier u mem) read
      omega
    · rcases List.mem_cons.1 mem with rfl | mem
      · obtain rfl := scanned.unique read
        omega
      · have first : nextStart line.toList after ≤ u.pos.offset := nextStart_le_of_mem ordered mem
        omega

/-- What is shown of a string or a unit value behind its end is there because of something visible
that begins nothing. -/
theorem lt_length_shown_iff_trailed (loose : t.kind = .string ∨ t.kind = .unit)
    (scanned : t.Scanned line.toList l) (behind : t.pos.offset + l.extent ≤ k) :
    k < t.pos.offset + (shown line.toList t after).length ↔ Trailed (tokenize line) t k := by
  obtain ⟨-, earlier, later, ordered⟩ := mem_and_ordered split
  rw [lt_length_shown_iff loose (by omega)]
  constructor
  · rintro ⟨j, c, hkj, next, there, notBlank⟩
    obtain ⟨row, stray⟩ := exists_stray_behind split scanned (behind.trans hkj) next there notBlank
    refine ⟨c, ⟨row, j⟩, stray, notBlank, hkj, ?_⟩
    intro u hu hlt
    rw [split] at hu
    rcases List.mem_append.1 hu with hu | hu
    · exact absurd (earlier u hu) (Nat.lt_asymm hlt)
    · rcases List.mem_cons.1 hu with rfl | hu
      · exact absurd hlt (Nat.lt_irrefl _)
      · exact next.trans_le (nextStart_le_of_mem ordered hu)
  · rintro ⟨c, pos, stray, notBlank, hle, apart⟩
    obtain ⟨there, -⟩ := (tokenize_laid line).stray c pos stray
    refine ⟨pos.offset, c, hle, ?_, there, notBlank⟩
    cases after with
    | nil => exact (List.getElem?_eq_some_iff.1 there).1
    | cons following after =>
      exact apart following (by simp [split]) (later following List.mem_cons_self)

end

/-- A token of a line is shown at its place. -/
theorem shown_mem_pieces {line : String} {before after : List Token}
    (split : Token.lexemes (tokenize line).tokens = before ++ t :: after) :
    (t.pos.offset, .lexeme t.kind (shown line.toList t after)) ∈ placed 0 (pieces line) := by
  have ahead := ahead_lexemes line
  rw [split] at ahead
  have mem := shown_mem_placed (unrecognizedOffsets (tokenize line).diagnostics) ahead
  rwa [← split] at mem

/-- Whatever is shown as a token is one, at its place. -/
theorem exists_shown {line : String} {kind : TokenKind} {cs : List Char}
    (h : (i, .lexeme kind cs) ∈ placed 0 (pieces line)) :
    ∃ before t after, Token.lexemes (tokenize line).tokens = before ++ t :: after ∧
      i = t.pos.offset ∧ cs = shown line.toList t after := by
  rcases mem_placed_piecesFrom (ahead_lexemes line) h with
    ⟨c, gap⟩ | ⟨before, t, after, split, at_, same⟩
  · split at gap <;> cases gap
  · cases same
    exact ⟨before, t, after, split, at_, rfl⟩

/-- A piece is written where it stands. -/
theorem exists_written {line : String} (h : (k, .unrecognized c) ∈ placed 0 (pieces line)) :
    line.toList[k]? = some c ∧ ∃ before after, pieces line = before ++ .unrecognized c :: after ∧
      (before.flatMap Piece.source).length = k ∧
      highlightSource line = String.join (before.map Piece.render) ++
        ("\x1b[31m" ++ String.singleton c ++ "\x1b[39m") ++
        String.join (after.map Piece.render) := by
  obtain ⟨before, after, split, at_⟩ := exists_split_of_mem_placed h
  rw [Nat.zero_add] at at_
  have red : (Piece.unrecognized c).render = "\x1b[31m" ++ String.singleton c ++ "\x1b[39m" := rfl
  refine ⟨?_, before, after, split, at_.symm, ?_⟩
  · rw [← pieces_source line, split, at_, List.flatMap_append,
      List.getElem?_append_right (Nat.le_refl _), Nat.sub_self]
    rfl
  · rw [highlightSource, split, List.map_append, List.map_cons, String.join_append,
      String.join_cons, red]
    exact String.append_assoc.symm

/-- A character that begins nothing is shown red or in a token. -/
theorem shownRed_iff {line : String} {pos : Position}
    (h : ⟨.unrecognizedCharacter c, pos⟩ ∈ (tokenize line).diagnostics) :
    ShownRed line pos.offset c ↔
      ∀ i kind cs, (i, .lexeme kind cs) ∈ placed 0 (pieces line) →
        ¬ (i ≤ pos.offset ∧ pos.offset < i + cs.length) := by
  refine ⟨ShownRed.alone, fun alone => ⟨?_, alone⟩⟩
  obtain ⟨there, -⟩ := (tokenize_laid line).stray c pos h
  have within : pos.offset < 0 + ((pieces line).flatMap Piece.source).length := by
    rw [pieces_source, Nat.zero_add]
    exact (List.getElem?_eq_some_iff.1 there).1
  obtain ⟨i, p, mem, hle, hlt⟩ := exists_mem_placed (Nat.zero_le _) within
  rcases mem_placed_piecesFrom (ahead_lexemes line) mem with
    ⟨d, gap⟩ | ⟨before, t, after, split, at_, rfl⟩
  · have one : p.source.length = 1 := by
      rw [gap]
      split <;> rfl
    obtain rfl : i = pos.offset := by omega
    have reported := mem_unrecognizedOffsets.2 ⟨c, pos, h, rfl⟩
    rw [if_pos (List.contains_iff_mem.2 reported)] at gap
    subst gap
    obtain ⟨there', written⟩ := exists_written mem
    obtain rfl := Option.some.inj (there.symm.trans there')
    exact written
  · exact absurd ⟨hle, hlt⟩ (alone _ _ _ mem)

end Offside.Interactive

namespace Offside

open Interactive (placed pieces shown Trailed ShownRed highlightSource)

/-- A character that begins nothing is shown in red, by itself, unless it comes behind a string or a
unit value and something visible that begins nothing stands there or behind it, before the next
lexeme: that is just how far strings and unit values are shown beyond their ends. -/
theorem shownRed_iff_not_trailed (line : String) :
    let lexed := tokenize line
    (∀ c pos, ⟨.unrecognizedCharacter c, pos⟩ ∈ lexed.diagnostics →
      (ShownRed line pos.offset c ↔ ∀ t ∈ Token.lexemes lexed.tokens,
        t.kind = .string ∨ t.kind = .unit → t.pos.offset < pos.offset →
          ¬ Trailed lexed t pos.offset)) ∧
    ∀ t ∈ Token.lexemes lexed.tokens, t.kind = .string ∨ t.kind = .unit →
      ∃ l cs, t.Scanned line.toList l ∧ (t.pos.offset, .lexeme t.kind cs) ∈ placed 0 (pieces line) ∧
        ∀ k, t.pos.offset + l.extent ≤ k → (k < t.pos.offset + cs.length ↔ Trailed lexed t k) := by
  intro lexed
  have laid := tokenize_laid line
  constructor
  · intro c pos h
    obtain ⟨-, -, -, -, free⟩ := laid.stray c pos h
    have behind {t : Token} {l : Lexeme} (ht : t ∈ Token.lexemes lexed.tokens)
        (scanned : t.Scanned line.toList l) (hle : t.pos.offset ≤ pos.offset) :
        t.pos.offset + l.extent ≤ pos.offset := by
      by_contra inside
      exact free t ht ⟨l, scanned, hle, Nat.lt_of_not_le inside⟩
    rw [Interactive.shownRed_iff h]
    constructor
    · intro alone t ht loose hlt trailed
      obtain ⟨before, after, split⟩ := List.append_of_mem ht
      obtain ⟨l, scanned, -⟩ := laid.scanned t ht
      have overrun := Interactive.lt_length_shown_iff_trailed split loose scanned
        (behind ht scanned hlt.le)
      exact alone _ _ _ (Interactive.shown_mem_pieces split) ⟨hlt.le, overrun.2 trailed⟩
    · rintro untrailed i kind cs mem ⟨hle, hlt⟩
      obtain ⟨before, t, after, split, rfl, rfl⟩ := Interactive.exists_shown mem
      have ht : t ∈ Token.lexemes lexed.tokens := by simp [lexed, split]
      obtain ⟨l, scanned, -⟩ := laid.scanned t ht
      have stop := behind ht scanned hle
      have pos_extent := scanned.extent_pos
      by_cases loose : t.kind = .string ∨ t.kind = .unit
      · have overrun := Interactive.lt_length_shown_iff_trailed split loose scanned stop
        exact untrailed t ht loose (by omega) (overrun.1 hlt)
      · rw [not_or] at loose
        have within : (shown line.toList t after).length ≤ l.extent :=
          Interactive.length_shown_le scanned loose.1 loose.2
        omega
  · intro t ht loose
    obtain ⟨before, after, split⟩ := List.append_of_mem ht
    obtain ⟨l, scanned, -⟩ := laid.scanned t ht
    exact ⟨l, shown line.toList t after, scanned, Interactive.shown_mem_pieces split,
      fun k => Interactive.lt_length_shown_iff_trailed split loose scanned⟩

/-- The same kind of character stands before a string and behind it. -/
theorem shownRed_iff_not_trailed_string :
    let line := "é \"a\" ;"
    let lexed := tokenize line
    ⟨.unrecognizedCharacter 'é', ⟨0, 0⟩⟩ ∈ lexed.diagnostics ∧
      ⟨.unrecognizedCharacter ';', ⟨0, 6⟩⟩ ∈ lexed.diagnostics ∧
      ShownRed line 0 'é' ∧ ¬ ShownRed line 6 ';' := by
  intro line lexed
  obtain ⟨reds, -⟩ := shownRed_iff_not_trailed line
  have front : ⟨.unrecognizedCharacter 'é', ⟨0, 0⟩⟩ ∈ lexed.diagnostics := by decide +kernel
  have behind : ⟨.unrecognizedCharacter ';', ⟨0, 6⟩⟩ ∈ lexed.diagnostics := by decide +kernel
  have string : ⟨.string, "a", ⟨0, 2⟩⟩ ∈ Token.lexemes lexed.tokens := by decide +kernel
  have last : ∀ u ∈ Token.lexemes lexed.tokens, 2 < u.pos.offset → 6 < u.pos.offset := by
    decide +kernel
  refine ⟨front, behind, (reds _ _ front).2 ?_, ?_⟩
  · intro t ht loose hlt
    exact absurd hlt (Nat.not_lt_zero _)
  · intro red
    have trailed : Trailed lexed ⟨.string, "a", ⟨0, 2⟩⟩ 6 :=
      ⟨';', ⟨0, 6⟩, behind, by decide, Nat.le_refl 6, last⟩
    exact (reds _ _ behind).1 red _ string (.inl rfl) (by decide) trailed

/-- The semicolon behind the string is reported, but the string is shown with it. -/
theorem not_shownRed_behind_string :
    ¬ ∀ line,
      (∀ c pos, ⟨.unrecognizedCharacter c, pos⟩ ∈ (tokenize line).diagnostics →
        ShownRed line pos.offset c) ∧
      ∀ t ∈ Token.lexemes (tokenize line).tokens, t.kind = .string ∨ t.kind = .unit →
        ∀ l cs, t.Scanned line.toList l →
          (t.pos.offset, .lexeme t.kind cs) ∈ placed 0 (pieces line) → cs.length ≤ l.extent := by
  intro h
  obtain ⟨reds, -⟩ := h "\"a\" ;"
  have one : pieces "\"a\" ;" = [.lexeme .string "\"a\" ;".toList] := by decide +kernel
  obtain ⟨before, after, split, -⟩ := (reds ';' ⟨0, 4⟩ (by decide +kernel)).written
  have mem : Interactive.Piece.unrecognized ';' ∈ pieces "\"a\" ;" := by simp [split]
  rw [one] at mem
  simp at mem

end Offside
