import Offside.Proofs.Run

/-! # Tilings

A reading accounts for every character of a text once. The text falls into blanks, characters that
begin nothing, and the extents of lexemes; each lexeme and each report of a character that begins
nothing has one piece of the text, and has it where it says. -/

namespace Offside

open Lexeme (Covers isSolid)

def Problem.isUnrecognized : Problem → Bool
  | unrecognizedCharacter _ => true
  | _ => false

def Diagnostic.strays (ds : List Diagnostic) : List Diagnostic :=
  ds.filter fun d => d.problem.isUnrecognized

/-- A text from `p` on, piece by piece, with the lexemes and the reports that the pieces make up. -/
inductive Tiling : Position → List Char → List Token → List Diagnostic → Prop where
  | nil (p) : Tiling p [] [] []
  | blank {p blank text ts ds} (hb : blank ≠ []) (ha : ∀ c ∈ blank, c = ' ' ∨ c = '\n')
      (h : Tiling (p.after blank) text ts ds) : Tiling p (blank ++ text) ts ds
  | stray {p c text ts ds} (h : Tiling (p.next c) text ts ds) :
      Tiling p (c :: text) ts (⟨.unrecognizedCharacter c, p⟩ :: ds)
  | lexeme {p extent text t ts ds} (hp : t.pos = p) (hc : Covers t.kind t.text.toList extent)
      (h : Tiling (p.after extent) text ts ds) : Tiling p (extent ++ text) (t :: ts) ds

theorem Diagnostic.strays_append (ds es : List Diagnostic) :
    strays (ds ++ es) = strays ds ++ strays es :=
  List.filter_append ds es

namespace Lexer

theorem strays_layoutReports (measured : Except Indentation.Fault Indentation.Change)
    (pos : Position) : Diagnostic.strays (layoutReports measured pos) = [] := by
  refine List.filter_eq_nil_iff.2 fun d hd => ?_
  obtain ⟨_, _, rfl⟩ := mem_layoutReports hd
  simp [Problem.isUnrecognized]

theorem strays_of_read? {c : Cursor} {lexeme : Lexeme} (h : Lexeme.read? c.rest = some lexeme) :
    Diagnostic.strays (lexeme.diagnostics c) = [] := by
  refine List.filter_eq_nil_iff.2 fun d hd => ?_
  obtain ⟨f, hf, rfl⟩ := List.mem_map.1 hd
  obtain ⟨-, -, -, hp | hp⟩ := Lexeme.flaw_of_read? h (Option.mem_toList.1 hf)
  · simp [hp, Problem.isUnrecognized]
  · simp [hp, Problem.isUnrecognized]

/-- A move lays at most one piece before those that follow. -/
theorem Move.tiling {l m : Lexer} {ts us : List Token} {ds es : List Diagnostic}
    (h : Move l ts ds m) (ht : Tiling m.cursor.pos m.cursor.rest us es) :
    Tiling l.cursor.pos l.cursor.rest (Token.lexemes ts ++ us) (Diagnostic.strays ds ++ es) := by
  have one {c : Char} (hp : l.cursor.peek = some c)
      (ht : Tiling l.cursor.next.pos l.cursor.next.rest us es) :
      ∃ rest, l.cursor.rest = c :: rest ∧ Tiling (l.cursor.pos.next c) rest us es := by
    obtain ⟨rest, hr⟩ := List.head?_eq_some_iff.1 hp
    exact ⟨rest, hr, by simpa [Cursor.next, hr] using ht⟩
  have spaces (ht : Tiling l.cursor.eatSpaces.2.pos l.cursor.eatSpaces.2.rest us es) :
      Tiling l.cursor.pos l.cursor.rest us es := by
    have blank : ∀ c ∈ l.cursor.rest.takeWhile (· == ' '), c = ' ' ∨ c = '\n' := fun c hc =>
      .inl (Lexeme.eq_space_of_mem_takeWhile hc)
    rw [Cursor.eatSpaces, Cursor.eatWhile_rest, Cursor.eatWhile_pos] at ht
    rw [← List.takeWhile_append_dropWhile (p := (· == ' ')) (l := l.cursor.rest)]
    by_cases hn : l.cursor.rest.takeWhile (· == ' ') = []
    · rw [hn] at ht ⊢
      exact ht
    · exact .blank hn blank ht
  cases h with
  | space hs hp =>
    obtain ⟨rest, hr, ht⟩ := one hp ht
    rw [hr, ← List.singleton_append]
    exact .blank (by simp) (by simp) ht
  | newline hp =>
    obtain ⟨rest, hr, ht⟩ := one hp ht
    rw [hr, ← List.singleton_append]
    exact .blank (by simp) (by simp) ht
  | margin => exact spaces ht
  | line =>
    rw [lexemes_layoutTokens, strays_layoutReports]
    exact spaces ht
  | @lexeme c lexeme hs hp hb hn hr =>
    have covers := (Lexeme.covers_of_read? hr).2
    have real : Token.lexemes [lexeme.token l.cursor.pos] = [lexeme.token l.cursor.pos] :=
      Token.lexemes_eq_self (by simpa using Lexeme.isSynthetic_of_read? hr)
    simp only [Cursor.skip_rest, Cursor.skip_pos] at ht
    rw [strays_of_read? hr, real, ← List.take_append_drop lexeme.extent l.cursor.rest]
    exact .lexeme rfl (by simpa [Lexeme.token] using covers) ht
  | stray hs hp =>
    obtain ⟨rest, hr, ht⟩ := one hp ht
    rw [hr]
    exact .stray ht

theorem Reads.tiling {l m : Lexer} {ts : List Token} {ds : List Diagnostic} (h : Reads l ts ds m)
    (hm : m.cursor.rest = []) :
    Tiling l.cursor.pos l.cursor.rest (Token.lexemes ts) (Diagnostic.strays ds) := by
  induction h with
  | refl l =>
    rw [hm]
    exact .nil _
  | move h _ ih =>
    rw [Token.lexemes_append, Diagnostic.strays_append]
    exact h.tiling (ih hm)

end Lexer

def visible (offset : Nat) (text : List Char) (strays : List Diagnostic) : List Char :=
  ((text.zipIdx offset).filter fun (c, i) =>
    isSolid c && strays.all fun d => d.pos.offset != i).map Prod.fst

variable {text more : List Char} {ds : List Diagnostic}

theorem visible_append (offset : Nat) (text more : List Char) (ds : List Diagnostic) :
    visible offset (text ++ more) ds =
      visible offset text ds ++ visible (offset + text.length) more ds := by
  simp [visible, List.zipIdx_append]

theorem visible_of_before {offset : Nat} (h : ∀ d ∈ ds, offset + text.length ≤ d.pos.offset) :
    visible offset text ds = text.filter isSolid := by
  induction text generalizing offset with
  | nil => rfl
  | cons c text ih =>
    have ahead : ds.all (fun d => d.pos.offset != offset) = true := by
      refine List.all_eq_true.2 fun d hd => ?_
      have := h d hd
      simp only [List.length_cons] at this
      exact bne_iff_ne.2 (by omega)
    have ih : visible (offset + 1) text ds = text.filter isSolid := ih fun d hd => by
      have := h d hd
      simp only [List.length_cons] at this
      omega
    cases hc : isSolid c <;> simp_all [visible]

theorem visible_cons_of_behind {offset : Nat} {d : Diagnostic} (h : d.pos.offset < offset) :
    visible offset text (d :: ds) = visible offset text ds := by
  unfold visible
  congr 1
  refine List.filter_congr fun ⟨c, i⟩ hi => ?_
  have := List.le_snd_of_mem_zipIdx hi
  have away : (d.pos.offset != i) = true := bne_iff_ne.2 (by simp only at this; omega)
  simp [away]

theorem Lexeme.Covers.filter_isSolid {kind : TokenKind} {text extent : List Char}
    (h : Covers kind text extent) (hq : '"' ∉ extent) : extent.filter isSolid = text := by
  cases kind with
  | string =>
    obtain ⟨body, rfl, -⟩ := h
    simp at hq
  | unit =>
    obtain ⟨rfl, n, rfl⟩ := h
    simp [isSolid]
  | _ =>
    obtain ⟨rfl, solid⟩ := h
    exact List.filter_eq_self.2 solid

namespace Tiling

theorem offset_le {p : Position} {ts : List Token} (h : Tiling p text ts ds) {d : Diagnostic}
    (hd : d ∈ ds) : p.offset ≤ d.pos.offset := by
  induction h with
  | nil => simp at hd
  | blank hb ha h ih =>
    have := ih hd
    rw [Position.after_offset] at this
    omega
  | @stray p c text ts ds h ih =>
    rcases List.mem_cons.1 hd with rfl | hd
    · exact Nat.le_refl _
    · exact (Nat.le_succ p.offset).trans (ih hd)
  | lexeme hp hc h ih =>
    have := ih hd
    rw [Position.after_offset] at this
    omega

theorem text_eq_visible {p : Position} {ts : List Token} (h : Tiling p text ts ds)
    (hq : '"' ∉ text) : ts.flatMap (fun t => t.text.toList) = visible p.offset text ds := by
  induction h with
  | nil => rfl
  | @blank p blank text ts ds hb ha h ih =>
    have ahead : ∀ d ∈ ds, p.offset + blank.length ≤ d.pos.offset := fun d hd => by
      simpa [Position.after_offset] using h.offset_le hd
    have unseen : blank.filter isSolid = [] :=
      List.filter_eq_nil_iff.2 fun c hc => by rcases ha c hc with rfl | rfl <;> decide
    rw [visible_append, visible_of_before ahead, unseen, ih fun hm => hq (by simp [hm]),
      Position.after_offset, List.nil_append]
  | @stray p c text ts ds h ih =>
    have behind : visible (p.offset + 1) text (⟨.unrecognizedCharacter c, p⟩ :: ds) =
        visible (p.offset + 1) text ds := visible_cons_of_behind (Nat.lt_succ_self _)
    have here : visible p.offset [c] (⟨.unrecognizedCharacter c, p⟩ :: ds) = [] := by
      simp [visible]
    rw [← List.singleton_append, visible_append, here, List.length_singleton, behind,
      ih fun hm => hq (by simp [hm])]
    rfl
  | @lexeme p extent text t ts ds hp hc h ih =>
    have ahead : ∀ d ∈ ds, p.offset + extent.length ≤ d.pos.offset := fun d hd => by
      simpa [Position.after_offset] using h.offset_le hd
    rw [visible_append, visible_of_before ahead, hc.filter_isSolid fun hm => hq (by simp [hm]),
      List.flatMap_cons, ih fun hm => hq (by simp [hm]), Position.after_offset]

end Tiling

/-- Every character of a text has one place in what is read from it; and unless there are strings,
what is read is the text without its blanks and the characters that begin nothing. -/
theorem tokenize_tiling (source : String) :
    Tiling .zero source.toList (Token.lexemes (tokenize source).tokens)
        (Diagnostic.strays (tokenize source).diagnostics) ∧
      ('"' ∉ source.toList →
        (Token.lexemes (tokenize source).tokens).flatMap (fun t => t.text.toList) =
          visible 0 source.toList (Diagnostic.strays (tokenize source).diagnostics)) := by
  have tiling : Tiling .zero source.toList (Token.lexemes (tokenize source).tokens)
      (Diagnostic.strays (tokenize source).diagnostics) := by
    obtain ⟨reads, done⟩ := (Lexer.start (.ofList source.toList)).reads_run
    have tiling := reads.tiling done
    simp only [tokenize_eq, Token.lexemes_append, Token.lexemes_eof, List.append_nil]
    exact tiling
  exact ⟨tiling, tiling.text_eq_visible⟩

theorem tokenize_tiling_unit :
    '"' ∉ "f ( ) @ %\n  é".toList ∧
      (Token.lexemes (tokenize "f ( ) @ %\n  é").tokens).flatMap (fun t => t.text.toList) =
        visible 0 "f ( ) @ %\n  é".toList
          (Diagnostic.strays (tokenize "f ( ) @ %\n  é").diagnostics) :=
  ⟨by decide, (tokenize_tiling _).2 (by decide)⟩

end Offside
