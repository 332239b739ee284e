import Offside.Interactive.Balance
import Offside.Proofs.Languages

/-! # Continuations

An entry whose brackets are closed goes on with another line if the last character to be seen is an
operator character. Such a character is in the last token of the entry, since there is nothing to be
read behind it; and it ends that token, an operator, unless the token is a string that its line or
the entry breaks off. There the question and the tokens part. -/

namespace Offside

open Interactive (endsInOperator isBalanced isIncomplete looksLikeCommand)

structure LastVisible (text : List Char) (k : ℕ) (c : Char) : Prop where
  there : text[k]? = some c
  visible : Text.isBlank c = false
  behind : ∀ j d, k < j → text[j]? = some d → Text.isBlank d = true

/-- The place `k` is inside a string that begins at `i` and that its line or the text breaks off. -/
def InOpenString (text : List Char) (i k : ℕ) : Prop :=
  ∃ j, IsLeast {j | EndsString text i j} j ∧ i < k ∧ k < j ∧ text[j]? ≠ some '"'

theorem lastVisible_iff {cs : List Char} {k : ℕ} {c : Char} :
    LastVisible cs k c ↔
      k + 1 = (Text.dropBlanksEnd cs).length ∧ (Text.dropBlanksEnd cs).getLast? = some c := by
  rw [List.getLast?_eq_getElem?]
  constructor
  · rintro ⟨there, notBlank, behind⟩
    have kept : k < (Text.dropBlanksEnd cs).length :=
      Text.lt_length_dropBlanksEnd_iff.2 ⟨k, c, Nat.le_refl k, there, notBlank⟩
    have last : ¬ k + 1 < (Text.dropBlanksEnd cs).length := by
      intro later
      obtain ⟨j, d, hle, hj, hd⟩ := Text.lt_length_dropBlanksEnd_iff.1 later
      rw [behind j d hle hj] at hd
      cases hd
    have length : k + 1 = (Text.dropBlanksEnd cs).length := by omega
    refine ⟨length, ?_⟩
    rw [← length, Nat.add_sub_cancel, Text.getElem?_dropBlanksEnd kept, there]
  · rintro ⟨length, last⟩
    rw [← length, Nat.add_sub_cancel, Text.getElem?_dropBlanksEnd (by omega)] at last
    have behind (j : ℕ) (d : Char) (hj : cs[j]? = some d) (notBlank : Text.isBlank d = false) :
        j ≤ k := by
      have := Text.lt_length_dropBlanksEnd_iff.2 ⟨j, d, Nat.le_refl j, hj, notBlank⟩
      omega
    have kept : k < (Text.dropBlanksEnd cs).length := by omega
    obtain ⟨j, d, hle, hj, notBlank⟩ := Text.lt_length_dropBlanksEnd_iff.1 kept
    obtain rfl : k = j := Nat.le_antisymm hle (behind j d hj notBlank)
    obtain rfl : c = d := Option.some.inj (last.symm.trans hj)
    refine ⟨last, notBlank, ?_⟩
    intro i e hlt hi
    by_contra seen
    exact absurd (behind i e hi (Bool.eq_false_iff.2 seen)) (Nat.not_le_of_lt hlt)

theorem endsInOperator_iff {entry : String} :
    endsInOperator entry = true ↔
      ∃ k c, LastVisible entry.toList k c ∧ Lexeme.isOperator c = true := by
  rw [endsInOperator, Option.any_eq_true]
  constructor
  · rintro ⟨c, last, isOp⟩
    have nonempty : 0 < (Text.dropBlanksEnd entry.toList).length :=
      List.length_pos_of_mem (List.mem_of_getLast? last)
    exact ⟨(Text.dropBlanksEnd entry.toList).length - 1, c,
      lastVisible_iff.2 ⟨by omega, last⟩, isOp⟩
  · rintro ⟨k, c, last, isOp⟩
    exact ⟨c, (lastVisible_iff.1 last).2, isOp⟩

namespace Lexeme

variable {c d : Char} {cs : List Char} {i : ℕ} {l : Lexeme}

theorem visible_of_ascii (low : 0x20 < c.toNat) (high : c.toNat < 0x7f) :
    Text.isBlank c = false := by
  simp [Text.isBlank]
  omega

theorem visible_of_isInner (h : isInner c = true) : Text.isBlank c = false :=
  visible_of_ascii (ascii_of_isInner h).1 (ascii_of_isInner h).2

theorem visible_of_read? (h : read? (c :: cs) = some l) : Text.isBlank c = false := by
  by_cases quote : c = '"'
  · subst quote
    rfl
  · obtain ⟨n, taken⟩ := Nat.exists_eq_succ_of_ne_zero (read?_extent_pos h).ne'
    have mem : c ∈ (c :: cs).take l.extent := by simp [taken]
    obtain ⟨low, high⟩ := ascii_of_front (read?_eq_some_iff.1 h) quote c mem
    have solid := solid_of_read? h
    apply visible_of_ascii (Nat.lt_of_le_of_ne low _) high
    intro space
    obtain rfl : ' ' = c := Char.toNat_inj.1 space
    cases solid

theorem not_isWordContinue_of_isOperator (h : isOperator c = true) : isWordContinue c = false := by
  have all : ∀ c ∈ operatorCharacters, isWordContinue c = false := by
    simp [operatorCharacters, isWordContinue, Char.isAlphanum]
  exact all c (List.contains_iff_mem.1 h)

namespace Number

def EndsInDigit (text : List Char) : Prop := ∀ c, text.getLast? = some c → isHexDigit c = true

theorem EndsInDigit.append {a b : List Char} (ha : EndsInDigit a) (hb : EndsInDigit b) :
    EndsInDigit (a ++ b) := by
  intro c hc
  rw [List.getLast?_append, Option.or_eq_some_iff] at hc
  rcases hc with hc | ⟨-, hc⟩
  · exact hb c hc
  · exact ha c hc

theorem endsInDigit_run {p : Char → Bool} (hp : ∀ c, p c = true → isHexDigit c = true)
    (front : List Char) (hd : p d = true) (cs : List Char) :
    EndsInDigit (front ++ d :: cs.takeWhile p) := by
  intro c hc
  rw [List.getLast?_append_of_ne_nil _ (List.cons_ne_nil _ _)] at hc
  rcases List.mem_cons.1 (List.mem_of_getLast? hc) with rfl | mem
  · exact hp c hd
  · exact hp c (List.mem_takeWhile_imp mem)

theorem isHexDigit_of_isDigit (h : c.isDigit = true) : isHexDigit c = true := by
  simp [isHexDigit, h]

theorem endsInDigit_hexadecimal (cs : List Char) : EndsInDigit (hexadecimal cs) := by
  obtain h | ⟨x, d, ds, -, -, hd, h⟩ := hexadecimal_cases cs <;> rw [h]
  · intro c hc
    cases hc
  · exact endsInDigit_run (fun _ => id) ['0', x] hd ds

theorem endsInDigit_whole (h : c.isDigit = true) (cs : List Char) :
    EndsInDigit (whole (c :: cs)) := by
  by_cases zero : c = '0'
  · rw [whole, if_pos zero]
    intro d hd
    obtain rfl : '0' = d := Option.some.inj hd
    rfl
  · rw [whole, if_neg zero]
    exact endsInDigit_run (fun _ => isHexDigit_of_isDigit) [] h cs

theorem endsInDigit_fraction (cs : List Char) : EndsInDigit (fraction cs) := by
  obtain h | ⟨d, ds, -, hd, h⟩ := fraction_cases cs <;> rw [h]
  · intro c hc
    cases hc
  · exact endsInDigit_run (fun _ => isHexDigit_of_isDigit) ['.'] hd ds

theorem endsInDigit_exponent (cs : List Char) : EndsInDigit (exponent cs) := by
  obtain h | ⟨e, s, d, ds, -, -, -, hd, h⟩ := exponent_cases cs <;> rw [h]
  · intro c hc
    cases hc
  · exact endsInDigit_run (fun _ => isHexDigit_of_isDigit) [e, s] hd ds

end Number

theorem endsInDigit_number (h : c.isDigit = true) (cs : List Char) :
    Number.EndsInDigit (number (c :: cs)).text := by
  obtain hn | ⟨kind, -, hn⟩ := number_cases (c :: cs) <;> rw [hn]
  · exact Number.endsInDigit_hexadecimal _
  · exact (Number.endsInDigit_whole h cs).append
      ((Number.endsInDigit_fraction _).append (Number.endsInDigit_exponent _))

theorem not_isOperator_of_isHexDigit (h : Number.isHexDigit c = true) : isOperator c = false := by
  have all : ∀ c ∈ operatorCharacters, Number.isHexDigit c = false := by
    simp [operatorCharacters, Number.isHexDigit]
  apply Bool.eq_false_iff.2
  intro isOp
  rw [all c (List.contains_iff_mem.1 isOp)] at h
  cases h

/-- A lexeme with an operator character in it that only blanks follow is an operator that ends with
it, or a string. -/
theorem operator_or_string_of_front (h : Front c cs l) (hlt : i < l.extent)
    (last : LastVisible (c :: cs) i d) (isOp : isOperator d = true) :
    l.kind = .operator ∧ i + 1 = l.extent ∨ c = '"' ∧ l = stringLiteral (c :: cs) := by
  have ⟨within, covers⟩ := covers_of_front h
  have here : ((c :: cs).take l.extent)[i]? = some d := by
    rw [List.getElem?_take_of_lt hlt, last.there]
  have mem : d ∈ (c :: cs).take l.extent := List.mem_of_getElem? here
  -- All characters of these lexemes are visible, so that none stands behind.
  have ends (plain : l.kind.isPlain = true) : i + 1 = l.extent ∧ l.text.getLast? = some d := by
    have spelled := covers.eq_text plain
    have length : l.text.length = l.extent := by
      rw [← spelled, List.length_take, Nat.min_eq_left within]
    have stop : i + 1 = l.extent := by
      by_contra more
      have behind : i + 1 < l.text.length := by omega
      have there : (c :: cs)[i + 1]? = some l.text[i + 1] := by
        rw [← List.getElem?_eq_getElem behind, ← spelled, List.getElem?_take_of_lt (by omega)]
      have blank := last.behind _ _ (Nat.lt_succ_self i) there
      rw [visible_of_isInner (inner_of_front h plain _ (List.getElem_mem behind))] at blank
      cases blank
    refine ⟨stop, ?_⟩
    rw [List.getLast?_eq_getElem?, length, ← stop, Nat.add_sub_cancel, ← spelled, here]
  cases h with
  | number isDigit =>
    have ended := endsInDigit_number isDigit cs d (ends (isPlain_number _)).2
    rw [not_isOperator_of_isHexDigit ended] at isOp
    cases isOp
  | word start =>
    rw [covers.eq_text (isPlain_word _)] at mem
    have inWord : isWordContinue d = true := by
      rcases List.mem_cons.1 mem with rfl | mem
      · exact isWordContinue_of_isWordStart start
      · exact List.mem_takeWhile_imp mem
    rw [not_isWordContinue_of_isOperator isOp] at inWord
    cases inWord
  | operator ho => exact .inl ⟨rfl, (ends rfl).1⟩
  | unit hk hu =>
    obtain ⟨-, n, spelled⟩ := covers
    rw [spelled] at mem
    simp only [List.mem_cons, List.mem_append, List.mem_replicate, List.not_mem_nil,
      or_false] at mem
    rcases mem with rfl | ⟨-, rfl⟩ | rfl <;> cases isOp
  | bracket hk hu =>
    obtain rfl : d = c := by simpa [verbatim] using mem
    rw [(other_of_bracketKind? hk).2.2] at isOp
    cases isOp
  | string quote => exact .inr ⟨quote, rfl⟩

end Lexeme

variable {text : List Char} {i k : ℕ} {c : Char} {t : Token} {ts : List Token}
  {ds : List Diagnostic}

/-- A string that, as far as it can be seen, ends in an operator character is not closed. -/
theorem InString.open (h : InString text i k) (opening : text[i]? = some '"')
    (last : LastVisible text k c) (operator : Lexeme.isOperator c = true) :
    InOpenString text i k := by
  obtain ⟨j, least, hle, hj⟩ := h
  have behind_opening : i ≠ k := by
    rintro rfl
    obtain rfl : '"' = c := Option.some.inj (opening.symm.trans last.there)
    cases operator
  have before_end : k ≠ j := by
    rintro rfl
    have within : k < text.length := (List.getElem?_eq_some_iff.1 last.there).1
    obtain ⟨-, ended | newline | ⟨quote, -⟩⟩ := least.1
    · omega
    · obtain rfl : c = '\n' := Option.some.inj (last.there.symm.trans newline)
      cases operator
    · obtain rfl : c = '"' := Option.some.inj (last.there.symm.trans quote)
      cases operator
  refine ⟨j, least, by omega, by omega, ?_⟩
  intro closing
  exact absurd (last.behind j '"' (by omega) closing) (by decide)

/-- Where only blanks follow there is nothing more to read. -/
theorem Laid.getLast?_of_spans (laid : Laid text 0 text.length ts ds) (ht : t ∈ ts)
    (spans : t.Spans text k) (last : LastVisible text k c) : ts.getLast? = some t := by
  obtain ⟨l, scanned, -, hlt⟩ := spans
  have apart := laid.apart
  obtain ⟨before, after, rfl⟩ := List.append_of_mem ht
  cases after with
  | nil => exact List.getLast?_concat
  | cons u after =>
    obtain ⟨later, read, -⟩ := laid.scanned u (by simp)
    have behind : t.pos.offset + l.extent ≤ u.pos.offset :=
      (List.pairwise_cons.1 (List.pairwise_append.1 apart).2.1).1 u List.mem_cons_self l scanned
    obtain ⟨d, cs, hr, front⟩ := read.front
    have there : text[u.pos.offset]? = some d := by rw [← List.head?_drop, hr, List.head?_cons]
    have blank := last.behind _ d (by omega) there
    rw [Lexeme.visible_of_read? (Lexeme.read?_eq_some_iff.2 front)] at blank
    cases blank

/-- The last character to be seen, when it is an operator character, is in the last token. -/
theorem Laid.lastVisible (laid : Laid text 0 text.length ts ds) (last : LastVisible text k c)
    (operator : Lexeme.isOperator c = true) :
    ∃ t, ts.getLast? = some t ∧ (t.kind = .operator ∧ k + 1 = t.pos.offset + t.length ∨
      t.kind = .string ∧ InOpenString text t.pos.offset k) := by
  have within : k < text.length := (List.getElem?_eq_some_iff.1 last.there).1
  rcases laid.place k c last.there (Nat.zero_le k) within with
    blank | ⟨line, stray⟩ | ⟨t, ht, spans⟩
  · rcases blank with rfl | rfl <;> cases operator
  · obtain ⟨there, nothing, -⟩ := laid.stray _ _ stray
    obtain ⟨cs, hr⟩ := List.head?_eq_some_iff.1 (List.head?_drop.trans there)
    rw [hr, Lexeme.read?_eq_some_iff.2 (.operator operator)] at nothing
    cases nothing
  · refine ⟨t, laid.getLast?_of_spans ht spans last, ?_⟩
    obtain ⟨l, scanned, hle, hlt⟩ := spans
    obtain ⟨i, rfl⟩ := Nat.exists_eq_add_of_le hle
    obtain ⟨d, cs, hr, front⟩ := scanned.front
    have ahead : LastVisible (d :: cs) i c := by
      rw [← hr]
      refine ⟨by rw [List.getElem?_drop, last.there], last.visible, ?_⟩
      intro j e hj he
      rw [List.getElem?_drop] at he
      exact last.behind _ e (by omega) he
    rcases Lexeme.operator_or_string_of_front front (by omega) ahead operator with
      ⟨kind, stop⟩ | ⟨rfl, string⟩
    · rw [← scanned.kind] at kind
      have length := scanned.length (by simp [kind]) (by simp [kind])
      exact .inl ⟨kind, by omega⟩
    · right
      subst string
      have opening : text[t.pos.offset]? = some '"' := by
        rw [← List.head?_drop, hr, List.head?_cons]
      refine ⟨?_, (inString_of_drop hr hle hlt).open opening last operator⟩
      rw [scanned.kind, Lexeme.stringLiteral_cons]

/-- For an entry whose brackets are closed another line is asked for exactly if the last character
to be seen is an operator character: it ends the last token, which is an operator, or that token is
a string that is not closed, and it stands in there. -/
theorem isIncomplete_iff (entry : String) (command : looksLikeCommand entry = false)
    (balanced : isBalanced entry = true) :
    isIncomplete entry = true ↔
      ∃ t k c, (Token.lexemes (tokenize entry).tokens).getLast? = some t ∧
        LastVisible entry.toList k c ∧ Lexeme.isOperator c = true ∧
        (t.kind = .operator ∧ k + 1 = t.pos.offset + t.length ∨
          t.kind = .string ∧ InOpenString entry.toList t.pos.offset k) := by
  have asked : isIncomplete entry = endsInOperator entry := by
    simp [isIncomplete, command, balanced]
  rw [asked, endsInOperator_iff]
  constructor
  · rintro ⟨k, c, last, operator⟩
    obtain ⟨t, final, within⟩ := (tokenize_laid entry).lastVisible last operator
    exact ⟨t, k, c, final, last, operator, within⟩
  · rintro ⟨-, k, c, -, last, operator, -⟩
    exact ⟨k, c, last, operator⟩

/-- A wide blank and an empty line follow the operator; the points of the number and of the string
before it ask for nothing. -/
theorem isIncomplete_iff_operator :
    let entry := "f \"a.\" 1.5 .+\u2003\n "
    looksLikeCommand entry = false ∧ isBalanced entry = true ∧ isIncomplete entry = true ∧
      ∃ t k c, (Token.lexemes (tokenize entry).tokens).getLast? = some t ∧
        LastVisible entry.toList k c ∧ Lexeme.isOperator c = true ∧
        (t.kind = .operator ∧ k + 1 = t.pos.offset + t.length ∨
          t.kind = .string ∧ InOpenString entry.toList t.pos.offset k) := by
  intro entry
  have command : looksLikeCommand entry = false := by decide
  have balanced : isBalanced entry = true := by decide
  have incomplete : isIncomplete entry = true := by decide
  exact ⟨command, balanced, incomplete, (isIncomplete_iff entry command balanced).1 incomplete⟩

/-- Nothing closes the string, and what it ends in asks for another line. -/
theorem isIncomplete_string :
    ¬ ∀ entry, looksLikeCommand entry = false → isBalanced entry = true →
      isIncomplete entry = true →
        ∃ t, (Token.lexemes (tokenize entry).tokens).getLast? = some t ∧ t.kind = .operator := by
  intro h
  obtain ⟨t, final, kind⟩ := h "\"a +" (by decide) (by decide) (by decide)
  have string : (Token.lexemes (tokenize "\"a +").tokens).getLast? =
      some ⟨.string, "a +", ⟨0, 0⟩⟩ := by decide +kernel
  obtain rfl := Option.some.inj (string.symm.trans final)
  cases kind

end Offside
