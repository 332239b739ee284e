import Mathlib.Data.List.DropRight
import Offside.Proofs.Characters
import Offside.Proofs.Positions
import Offside.Proofs.Tiling
import Offside.Text.Blank

/-! # Places

What becomes of each character of a text. The characters that a token was read from are those that a
scan covers at its place; they lie before those of the next token. Any other character is a space, a
newline or one that is reported, and what is reported is in no token. This holds of each move, and
of moves that follow each other. -/

namespace Offside

/-- What a scan finds at the place of the token is the token. -/
structure Token.Scanned (text : List Char) (t : Token) (l : Lexeme) : Prop where
  read : Lexeme.read? (text.drop t.pos.offset) = some l
  token : l.token t.pos = t

def Token.Spans (text : List Char) (t : Token) (k : ℕ) : Prop :=
  ∃ l, t.Scanned text l ∧ t.pos.offset ≤ k ∧ k < t.pos.offset + l.extent

structure Laid (text : List Char) (a b : ℕ) (ts : List Token) (ds : List Diagnostic) : Prop where
  le : a ≤ b
  scanned : ∀ t ∈ ts, ∃ l, t.Scanned text l ∧ a ≤ t.pos.offset ∧ t.pos.offset + l.extent ≤ b
  apart : ts.Pairwise fun t u =>
    ∀ l, t.Scanned text l → t.pos.offset + l.extent ≤ u.pos.offset
  stray : ∀ c pos, ⟨.unrecognizedCharacter c, pos⟩ ∈ ds →
    text[pos.offset]? = some c ∧ Lexeme.read? (text.drop pos.offset) = none ∧
      a ≤ pos.offset ∧ pos.offset < b ∧ ∀ t ∈ ts, ¬ t.Spans text pos.offset
  place : ∀ k c, text[k]? = some c → a ≤ k → k < b → (c = ' ' ∨ c = '\n') ∨
    (∃ line, ⟨.unrecognizedCharacter c, ⟨line, k⟩⟩ ∈ ds) ∨ ∃ t ∈ ts, t.Spans text k

variable {text : List Char} {start : Position} {a b c k : ℕ} {t u : Token}
  {ts us : List Token} {ds es : List Diagnostic} {lexeme lexeme' : Lexeme}

theorem mem_take_drop {ch : Char} {i n : ℕ} (hk : text[k]? = some ch) (hle : i ≤ k)
    (hlt : k < i + n) : ch ∈ (text.drop i).take n := by
  refine List.mem_of_getElem? (i := k - i) ?_
  rw [List.getElem?_take_of_lt (by omega), List.getElem?_drop, Nat.add_sub_cancel' hle, hk]

theorem Token.Scanned.unique (h : t.Scanned text lexeme) (h' : t.Scanned text lexeme') :
    lexeme = lexeme' :=
  Option.some.inj (h.read.symm.trans h'.read)

theorem Token.Scanned.kind (h : t.Scanned text lexeme) : t.kind = lexeme.kind := by
  rw [← h.token]
  rfl

theorem Token.Scanned.front (h : t.Scanned text lexeme) :
    ∃ c cs, text.drop t.pos.offset = c :: cs ∧ Lexeme.Front c cs lexeme :=
  Lexeme.exists_front h.read

theorem Token.Scanned.extent_pos (h : t.Scanned text lexeme) : 0 < lexeme.extent :=
  Lexeme.read?_extent_pos h.read

theorem Token.Scanned.length (h : t.Scanned text lexeme) (hs : t.kind ≠ .string)
    (hu : t.kind ≠ .unit) : t.length = lexeme.extent := by
  obtain ⟨within, covers⟩ := Lexeme.covers_of_read? h.read
  rw [h.kind] at hs hu
  have text := congrArg List.length (covers.eq_text_of_ne hs hu)
  rw [List.length_take, Nat.min_eq_left within] at text
  rw [text, Token.length, ← h.token, Lexeme.token, String.length_ofList]

namespace Laid

/-- Only spaces and newlines stand here. -/
theorem of_blank (le : a ≤ b)
    (blank : ∀ k c, text[k]? = some c → a ≤ k → k < b → c = ' ' ∨ c = '\n')
    (noStrays : Diagnostic.strays ds = []) : Laid text a b [] ds where
  le := le
  scanned _ ht := absurd ht List.not_mem_nil
  apart := .nil
  stray _ _ hd := absurd rfl (List.filter_eq_nil_iff.1 noStrays _ hd)
  place k c hk hle hlt := .inl (blank k c hk hle hlt)

theorem append (h : Laid text a b ts ds) (h' : Laid text b c us es) :
    Laid text a c (ts ++ us) (ds ++ es) where
  le := h.le.trans h'.le
  scanned t ht := by
    rcases List.mem_append.1 ht with ht | ht
    · obtain ⟨l, scanned, from_, upto⟩ := h.scanned t ht
      exact ⟨l, scanned, from_, upto.trans h'.le⟩
    · obtain ⟨l, scanned, from_, upto⟩ := h'.scanned t ht
      exact ⟨l, scanned, h.le.trans from_, upto⟩
  apart := by
    refine List.pairwise_append.2 ⟨h.apart, h'.apart, ?_⟩
    intro t ht u hu l scanned
    obtain ⟨l', scanned', -, upto⟩ := h.scanned t ht
    obtain ⟨-, -, from_, -⟩ := h'.scanned u hu
    obtain rfl := scanned.unique scanned'
    exact upto.trans from_
  stray ch pos hd := by
    rcases List.mem_append.1 hd with hd | hd
    · obtain ⟨there, nothing, hle, hlt, free⟩ := h.stray ch pos hd
      refine ⟨there, nothing, hle, hlt.trans_le h'.le, ?_⟩
      intro t ht
      rcases List.mem_append.1 ht with ht | ht
      · exact free t ht
      · rintro ⟨l, -, from_, -⟩
        obtain ⟨-, -, behind, -⟩ := h'.scanned t ht
        omega
    · obtain ⟨there, nothing, hle, hlt, free⟩ := h'.stray ch pos hd
      refine ⟨there, nothing, h.le.trans hle, hlt, ?_⟩
      intro t ht
      rcases List.mem_append.1 ht with ht | ht
      · rintro ⟨l, scanned, -, upto⟩
        obtain ⟨l', scanned', -, before⟩ := h.scanned t ht
        obtain rfl := scanned.unique scanned'
        omega
      · exact free t ht
  place k ch hk hle hlt := by
    by_cases hb : k < b
    · rcases h.place k ch hk hle hb with blank | ⟨line, hd⟩ | ⟨t, ht, spans⟩
      · exact .inl blank
      · exact .inr (.inl ⟨line, List.mem_append_left _ hd⟩)
      · exact .inr (.inr ⟨t, List.mem_append_left _ ht, spans⟩)
    · rcases h'.place k ch hk (Nat.le_of_not_lt hb) hlt with blank | ⟨line, hd⟩ | ⟨t, ht, spans⟩
      · exact .inl blank
      · exact .inr (.inl ⟨line, List.mem_append_right _ hd⟩)
      · exact .inr (.inr ⟨t, List.mem_append_right _ ht, spans⟩)

/-- Of two tokens the one that begins later begins behind the other. -/
theorem stop_le (h : Laid text a b ts ds) (ht : t ∈ ts) (hu : u ∈ ts)
    (later : t.pos.offset < u.pos.offset) (scanned : t.Scanned text lexeme) :
    t.pos.offset + lexeme.extent ≤ u.pos.offset := by
  by_contra overlap
  have apart := h.apart
  obtain ⟨before, after, rfl⟩ := List.append_of_mem ht
  rw [List.pairwise_append, List.pairwise_cons] at apart
  obtain ⟨-, ⟨behind, -⟩, front⟩ := apart
  rcases List.mem_append.1 hu with hu | hu
  · obtain ⟨l, scanned', -, -⟩ := h.scanned u (List.mem_append_left _ hu)
    have := front u hu t List.mem_cons_self l scanned'
    omega
  · rcases List.mem_cons.1 hu with rfl | hu
    · exact absurd later (Nat.lt_irrefl _)
    · exact overlap (behind u hu lexeme scanned)

end Laid

theorem Stands.laid_lexeme {l : Lexer} (hs : Stands text start l)
    (hr : Lexeme.read? l.cursor.rest = some lexeme) :
    Laid text l.cursor.pos.offset (l.cursor.skip lexeme.extent).pos.offset
      [lexeme.token l.cursor.pos] (lexeme.diagnostics l.cursor) := by
  have scanned : (lexeme.token l.cursor.pos).Scanned text lexeme := ⟨hs.rest ▸ hr, rfl⟩
  have stop : (l.cursor.skip lexeme.extent).pos.offset = l.cursor.pos.offset + lexeme.extent :=
    Cursor.skip_offset (Lexeme.covers_of_read? hr).1
  rw [stop]
  refine ⟨Nat.le_add_right _ _, ?_, List.pairwise_singleton _ _, ?_, ?_⟩
  · intro t ht
    obtain rfl := List.mem_singleton.1 ht
    exact ⟨lexeme, scanned, Nat.le_refl _, Nat.le_refl _⟩
  · intro c pos hd
    exact absurd rfl (List.filter_eq_nil_iff.1 (Lexer.strays_of_read? hr) _ hd)
  · intro k c hk hle hlt
    exact .inr (.inr ⟨_, List.mem_cons_self, lexeme, scanned, hle, hlt⟩)

theorem Stands.laid_stray {l : Lexer} (hs : Stands text start l) {c : Char}
    (hp : l.cursor.peek = some c) (hr : Lexeme.read? l.cursor.rest = none) :
    Laid text l.cursor.pos.offset (l.cursor.pos.offset + 1) []
      [⟨.unrecognizedCharacter c, l.cursor.pos⟩] := by
  have there := hs.placed.peek_eq.symm.trans hp
  refine ⟨Nat.le_succ _, by simp, .nil, ?_, ?_⟩
  · intro ch pos hd
    cases List.mem_singleton.1 hd
    exact ⟨there, hs.rest ▸ hr, Nat.le_refl _, Nat.lt_succ_self _, by simp⟩
  · intro k ch hk hle hlt
    obtain rfl : k = l.cursor.pos.offset := by omega
    obtain rfl : c = ch := Option.some.inj (there.symm.trans hk)
    exact .inr (.inl ⟨_, List.mem_cons_self⟩)

/-- The spaces at the cursor, none of which need be there. -/
theorem Stands.spaces {l : Lexer} (hs : Stands text start l) {k : ℕ} {c : Char}
    (hk : text[k]? = some c) (hle : l.cursor.pos.offset ≤ k)
    (hlt : k < l.cursor.eatSpaces.2.pos.offset) : c = ' ' := by
  have length : (l.cursor.rest.takeWhile (· == ' ')).length ≤ l.cursor.rest.length :=
    (List.takeWhile_prefix _).length_le
  have mem := mem_take_drop hk hle (hlt.trans_eq (Cursor.skip_offset length))
  rw [← hs.rest, ← List.prefix_iff_eq_take.1 (List.takeWhile_prefix _)] at mem
  exact Lexeme.eq_space_of_mem_takeWhile mem

namespace Lexer

theorem Move.laid {l m : Lexer} (h : Move l ts ds m) (hs : Stands text start l) :
    Laid text l.cursor.pos.offset m.cursor.pos.offset (Token.lexemes ts) ds := by
  have one {ch c : Char} {k : ℕ} (hp : l.cursor.peek = some ch) (hk : text[k]? = some c)
      (hle : l.cursor.pos.offset ≤ k) (hlt : k < l.cursor.next.pos.offset) : c = ch := by
    rw [Cursor.next_offset hp] at hlt
    obtain rfl : k = l.cursor.pos.offset := by omega
    exact Option.some.inj (hk.symm.trans (hs.placed.peek_eq.symm.trans hp))
  have le := h.offset_le
  cases h with
  | space hf hp => exact .of_blank le (fun k c hk hle hlt => .inl (one hp hk hle hlt)) rfl
  | newline hp => exact .of_blank le (fun k c hk hle hlt => .inr (one hp hk hle hlt)) rfl
  | margin => exact .of_blank le (fun k c hk hle hlt => .inl (hs.spaces hk hle hlt)) rfl
  | line =>
    rw [lexemes_layoutTokens]
    exact .of_blank le (fun k c hk hle hlt => .inl (hs.spaces hk hle hlt)) (strays_layoutReports _ _)
  | @lexeme c lexeme hf hp hb hn hr =>
    have real : Token.lexemes [lexeme.token l.cursor.pos] = [lexeme.token l.cursor.pos] :=
      Token.lexemes_eq_self (by simpa using Lexeme.isSynthetic_of_read? hr)
    rw [real]
    exact hs.laid_lexeme hr
  | stray hf hp hb hn hr =>
    have next := Cursor.next_offset hp
    simp only [next]
    exact hs.laid_stray hp hr

theorem Reads.laid {l m : Lexer} (h : Reads l ts ds m) (hs : Stands text start l) :
    Laid text l.cursor.pos.offset m.cursor.pos.offset (Token.lexemes ts) ds := by
  induction h with
  | refl l => exact .of_blank (Nat.le_refl _) (fun k c hk hle hlt => by omega) rfl
  | move h _ ih =>
    rw [Token.lexemes_append]
    exact (h.laid hs).append (ih (h.stands hs))

end Lexer

theorem tokenize_laid (source : String) :
    Laid source.toList 0 source.toList.length (Token.lexemes (tokenize source).tokens)
      (tokenize source).diagnostics := by
  obtain ⟨reads, done⟩ := (Lexer.start (.ofList source.toList)).reads_run
  have stands := stands_start source.toList
  have ended := (reads.right stands).2.2.offset_of_rest_nil done
  have laid := reads.laid stands
  rw [ended] at laid
  simpa [tokenize_eq, Lexer.start, Cursor.ofList, Position.zero] using laid

namespace Text

theorem dropBlanksEnd_append (cs : List Char) :
    ∃ blanks, cs = dropBlanksEnd cs ++ blanks ∧ ∀ c ∈ blanks, isBlank c = true :=
  ⟨cs.rtakeWhile isBlank, List.rdropWhile_append_rtakeWhile.symm, fun _ => List.mem_rtakeWhile_imp⟩

theorem getElem?_dropBlanksEnd {cs : List Char} {k : ℕ} (h : k < (dropBlanksEnd cs).length) :
    (dropBlanksEnd cs)[k]? = cs[k]? := by
  obtain ⟨blanks, split, -⟩ := dropBlanksEnd_append cs
  exact ((congrArg (·[k]?) split).trans (List.getElem?_append_left h)).symm

/-- What is kept goes on as long as something visible is still to come. -/
theorem lt_length_dropBlanksEnd_iff {cs : List Char} {k : ℕ} :
    k < (dropBlanksEnd cs).length ↔ ∃ j c, k ≤ j ∧ cs[j]? = some c ∧ isBlank c = false := by
  constructor
  · intro h
    have nonempty : dropBlanksEnd cs ≠ [] := List.ne_nil_of_length_pos (by omega)
    have last : (dropBlanksEnd cs)[(dropBlanksEnd cs).length - 1]? =
        some ((dropBlanksEnd cs).getLast nonempty) := by
      rw [← List.getLast?_eq_getElem?, List.getLast?_eq_some_getLast]
    rw [getElem?_dropBlanksEnd (by omega)] at last
    have notBlank := List.rdropWhile_last_not isBlank cs nonempty
    exact ⟨_, _, Nat.le_sub_one_of_lt h, last, Bool.eq_false_iff.2 notBlank⟩
  · rintro ⟨j, c, hle, there, notBlank⟩
    obtain ⟨blanks, split, all⟩ := dropBlanksEnd_append cs
    by_contra behind
    rw [split, List.getElem?_append_right (by omega)] at there
    rw [all c (List.mem_of_getElem? there)] at notBlank
    cases notBlank

end Text

end Offside
