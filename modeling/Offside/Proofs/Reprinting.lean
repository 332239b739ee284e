import Offside.Proofs.Run
import Offside.Proofs.Strings

/-! # Reprinting

The lexemes of a text can be written down again, each on a line of its own, and read back. The text
of a string is what its characters mean, so a string is written with quotation marks and escapes;
every other lexeme is written as it shows. -/

namespace Offside

namespace Lexeme

def escaped (c : Char) : List Char :=
  match escapes.lookup c with
  | some name => ['\\', name]
  | none => [c]

def quoted (text : List Char) : List Char := '"' :: (text.flatMap escaped ++ ['"'])

variable {c : Char} {cs more : List Char} {l : Lexeme}

theorem escape?_of_lookup {name : Char} (h : escapes.lookup c = some name) :
    escape? name = some c ∧ name ≠ '\n' := by
  have all : ∀ e ∈ escapes, escape? e.2 = some e.1 ∧ e.2 ≠ '\n' := by decide
  obtain ⟨before, after, split, -⟩ := List.lookup_eq_some_iff.1 h
  exact all (c, name) (by simp [split])

theorem plain_of_lookup (h : escapes.lookup c = none) : c ≠ '\n' ∧ c ≠ '"' ∧ c ≠ '\\' := by
  have listed : escapes.lookup '\n' ≠ none ∧ escapes.lookup '"' ≠ none ∧
      escapes.lookup '\\' ≠ none := by decide
  exact ⟨fun hc => listed.1 (hc ▸ h), fun hc => listed.2.1 (hc ▸ h), fun hc => listed.2.2 (hc ▸ h)⟩

theorem readBody_escaped (c : Char) (meant : List Char) (length : Nat) (cs : List Char) :
    readBody meant length false (escaped c ++ cs) =
      readBody (c :: meant) (length + (escaped c).length) false cs := by
  unfold escaped
  cases h : escapes.lookup c with
  | some name =>
    obtain ⟨means, hn⟩ := escape?_of_lookup h
    simp [readBody, means, hn]
  | none =>
    obtain ⟨hn, hq, hb⟩ := plain_of_lookup h
    simp [readBody, hn, hq, hb]

theorem readBody_flatMap_escaped (text meant : List Char) (length : Nat) (cs : List Char) :
    readBody meant length false (text.flatMap escaped ++ '"' :: cs) =
      ⟨meant.reverse ++ text, length + (text.flatMap escaped).length, .quote⟩ := by
  induction text generalizing meant length with
  | nil => simp [readBody]
  | cons c text ih =>
    rw [List.flatMap_cons, List.append_assoc, readBody_escaped, ih, List.length_append]
    simp [Nat.add_assoc]

theorem stringLiteral_quoted (text more : List Char) :
    stringLiteral (quoted text ++ more) = ⟨.string, text, (quoted text).length, none⟩ := by
  have body : stringBody (text.flatMap escaped ++ '"' :: more) =
      ⟨text, (text.flatMap escaped).length, .quote⟩ := by
    rw [stringBody, readBody_flatMap_escaped, List.reverse_nil, List.nil_append, Nat.zero_add]
  rw [quoted, List.cons_append, List.append_assoc, List.singleton_append, stringLiteral_cons, body]
  simp [StringEnd.mark?, StringEnd.flaw?, Nat.add_comm]

def written (kind : TokenKind) (text : List Char) : List Char :=
  if kind = .string then quoted text else text

/-- A scan that shows what it covers, stops at gaps and reads its own text as it stands reads that
text again. -/
theorem read?_written_verbatim {f : List Char → Lexeme}
    (hf : ∀ cs, read? (c :: cs) = some (f (c :: cs))) (hp : ∀ cs, (f cs).text <+: cs)
    (ha : ∀ {more}, Gap more → ∀ c cs, f (c :: cs ++ more) = f (c :: cs))
    (hs : ∀ c cs, f (f (c :: cs)).text = f (c :: cs))
    (hv : ∃ kind text, kind ≠ .string ∧ f (c :: cs) = verbatim kind text) (hm : LineEnd more) :
    let l := f (c :: cs)
    read? (written l.kind l.text ++ more) =
      some ⟨l.kind, l.text, (written l.kind l.text).length, none⟩ := by
  obtain ⟨kind, text, hk, hv⟩ := hv
  have hne : text ≠ [] := by
    have pos := read?_extent_pos (hf cs)
    rw [hv] at pos
    exact List.length_pos_iff.1 pos
  obtain ⟨first, rest, rfl⟩ := List.exists_cons_of_ne_nil hne
  obtain rfl : first = c := by
    obtain ⟨tail, split⟩ := hp (c :: cs)
    rw [hv, verbatim, List.cons_append] at split
    exact (List.cons.inj split).1
  have again : f (first :: rest ++ more) = verbatim kind (first :: rest) := by
    have own := hs first cs
    rw [hv] at own
    rw [ha hm.gap]
    exact own
  simp only [hv, verbatim, written, hk, if_false]
  rw [List.cons_append, hf, ← List.cons_append, again]
  rfl

/-- A lexeme that has been written down is read as it was, and without a flaw. -/
theorem read?_written (h : read? cs = some l) (hm : LineEnd more) :
    read? (written l.kind l.text ++ more) =
      some ⟨l.kind, l.text, (written l.kind l.text).length, none⟩ := by
  obtain ⟨c, rest, rfl, front⟩ := exists_front h
  cases front with
  | number hd =>
    refine read?_written_verbatim (fun _ => read?_eq_some_iff.2 (.number hd)) number_isPrefix
      number_append number_number ?_ hm
    obtain hn | ⟨kind, hk, hn⟩ := number_cases (c :: rest)
    · exact ⟨_, _, by simp, hn⟩
    · exact ⟨_, _, by grind, hn⟩
  | word hw =>
    exact read?_written_verbatim (fun _ => read?_eq_some_iff.2 (.word hw)) word_isPrefix
      word_append word_word ⟨_, _, (wordKind_ne _).1, rfl⟩ hm
  | operator ho =>
    exact read?_written_verbatim (fun _ => read?_eq_some_iff.2 (.operator ho)) operator_isPrefix
      (fun hg c cs => operator_append hg (c :: cs)) (fun c cs => operator_operator (c :: cs))
      ⟨_, _, by simp, rfl⟩ hm
  | unit =>
    exact read?_eq_some_iff.2 (.unit rfl (unitExtent?_eq_some_iff.2 ⟨0, more, rfl, rfl⟩))
  | @bracket kind hk =>
    have alone : unitExtent? (c :: more) = none := by
      rw [← List.nil_append more, ← List.cons_append, unitExtent?_append hm]
      by_cases hc : c = '(' <;> simp [unitExtent?, hc]
    have plain : kind ≠ .string := by
      obtain ⟨b, rfl | rfl⟩ := kind_of_bracketKind? hk <;> simp
    have read := read?_eq_some_iff.2 (.bracket hk alone)
    simpa [verbatim, written, plain] using read
  | string hs =>
    have read : read? (quoted (stringBody rest).text ++ more) =
        some (stringLiteral (quoted (stringBody rest).text ++ more)) :=
      read?_eq_some_iff.2 (.string rfl)
    rw [stringLiteral_quoted] at read
    rw [stringLiteral_cons]
    exact read

end Lexeme

open Lexeme (LineEnd written)

namespace Token

def written (t : Token) : List Char := Lexeme.written t.kind t.text.toList

def page (ts : List Token) : List Char := ['\n'].intercalate (ts.map written)

theorem page_singleton (t : Token) : page [t] = t.written := by
  simp [page]

theorem page_cons_cons (t u : Token) (ts : List Token) :
    page (t :: u :: ts) = t.written ++ '\n' :: page (u :: ts) := by
  simp [page, List.intercalate_cons_cons]

def content (t : Token) : TokenKind × String := (t.kind, t.text)

/-- However its line goes on to end, the token is read as it was. -/
def Rereads (t : Token) : Prop :=
  ∀ more, LineEnd more →
    Lexeme.read? (t.written ++ more) = some ⟨t.kind, t.text.toList, t.written.length, none⟩

end Token

namespace Lexer

theorem Move.rereads {l m : Lexer} {ts ds} (h : Move l ts ds m) {t : Token}
    (ht : t ∈ Token.lexemes ts) : t.Rereads := by
  cases h with
  | line => simp at ht
  | @lexeme c lexeme hs hp hb hn hr =>
    obtain rfl : t = lexeme.token l.cursor.pos := by
      simpa using (List.mem_filter.1 ht).1
    intro more hm
    simpa [Token.written, Lexeme.token] using Lexeme.read?_written hr hm
  | _ => simp [Token.lexemes] at ht

theorem Reads.rereads {l m : Lexer} {ts ds} (h : Reads l ts ds m) {t : Token}
    (ht : t ∈ Token.lexemes ts) : t.Rereads := by
  obtain ⟨mem, real⟩ := List.mem_filter.1 ht
  obtain ⟨_, _, _, _, _, _, -, move, mem⟩ := h.exists_move mem
  exact move.rereads (List.mem_filter.2 ⟨mem, real⟩)

/-- A line with one written token on it, at the base level. -/
theorem reads_written {t : Token} (h : t.Rereads) {more : List Char} (hm : LineEnd more)
    (pos : Position) :
    ∃ c, c.rest = more ∧
      Reads ⟨⟨t.written ++ more, pos, true⟩, .base⟩ [⟨t.kind, t.text, pos⟩] [] ⟨c, .base⟩ := by
  have read := h more hm
  obtain ⟨first, rest, hw⟩ : ∃ first rest, t.written ++ more = first :: rest := by
    cases hw : t.written ++ more with
    | nil => simp [hw, Lexeme.read?] at read
    | cons first rest => exact ⟨_, _, rfl⟩
  have solid := Lexeme.solid_of_read? (hw ▸ read)
  have hb : first ≠ ' ' := by rintro rfl; simp [Lexeme.isSolid] at solid
  have hn : first ≠ '\n' := by rintro rfl; simp [Lexeme.isSolid] at solid
  let c : Cursor := ⟨t.written ++ more, pos, false⟩
  have front : c.peek = some first := by simp [c, Cursor.peek, hw]
  have begin : Move ⟨{ c with atLineStart := true }, .base⟩ [] [] ⟨c, .base⟩ :=
    move_leaveLineStart rfl front hb hn rfl
  have lexeme := Move.lexeme (l := ⟨c, .base⟩) rfl front hb hn read
  refine ⟨c.skip t.written.length, by simp [c], ?_⟩
  simpa [Lexeme.token, Lexeme.diagnostics, c] using begin.reads.trans lexeme.reads

theorem reads_page {ts : List Token} (h : ∀ t ∈ ts, t.Rereads) (pos : Position) :
    ∃ us m, Reads ⟨⟨Token.page ts, pos, true⟩, .base⟩ us [] m ∧ m.cursor.rest = [] ∧
      us.map Token.content = ts.map Token.content := by
  induction ts generalizing pos with
  | nil => exact ⟨[], _, .refl _, rfl, rfl⟩
  | cons t ts ih =>
    have first := h t (by simp)
    cases ts with
    | nil =>
      have ends : LineEnd [] := by simp [LineEnd]
      obtain ⟨c, hc, reads⟩ := reads_written first ends pos
      rw [List.append_nil] at reads
      rw [Token.page_singleton]
      exact ⟨[⟨t.kind, t.text, pos⟩], ⟨c, .base⟩, reads, hc, rfl⟩
    | cons u ts =>
      have ends : LineEnd ('\n' :: Token.page (u :: ts)) := by simp [LineEnd]
      obtain ⟨c, hc, reads⟩ := reads_written first ends pos
      have newline := Move.newline (l := ⟨c, .base⟩) (by simp [Cursor.peek, hc])
      have next : c.next = ⟨Token.page (u :: ts), c.pos.next '\n', true⟩ := by
        simp [Cursor.next, hc]
      obtain ⟨us, m, rest, done, same⟩ := ih (fun t ht => h t (by simp [ht])) (c.pos.next '\n')
      rw [← next] at rest
      rw [Token.page_cons_cons]
      refine ⟨⟨t.kind, t.text, pos⟩ :: us, m, reads.trans (newline.reads.trans rest), done, ?_⟩
      rw [List.map_cons, same]
      rfl

end Lexer

/-- The lexemes of any text, written on lines of their own, are read again just as they were. -/
theorem tokenize_written (source : String) :
    let ts := Token.lexemes (tokenize source).tokens
    let again := tokenize (String.ofList (Token.page ts))
    again.tokens.map Token.content = ts.map Token.content ++ [(.eof, "")] ∧
      again.diagnostics = [] := by
  have rereads : ∀ t ∈ Token.lexemes (tokenize source).tokens, t.Rereads := by
    intro t ht
    rw [tokenize_eq] at ht
    simp only [Token.lexemes_append, Token.lexemes_eof, List.append_nil] at ht
    exact (Lexer.reads_run _).1.rereads ht
  obtain ⟨us, m, reads, done, same⟩ := Lexer.reads_page rereads .zero
  have run := reads.run_eq_of_rest_nil done
  have again : tokenize (String.ofList (Token.page (Token.lexemes (tokenize source).tokens))) =
      ⟨us ++ [.synthetic .eof m.cursor.pos], []⟩ := by
    rw [tokenize_eq, String.toList_ofList, Cursor.ofList, Lexer.start, run]
  dsimp only
  rw [again]
  refine ⟨?_, rfl⟩
  rw [List.map_append, same]
  rfl

end Offside
