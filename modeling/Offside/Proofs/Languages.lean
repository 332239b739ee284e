import Offside.Proofs.Grammar
import Offside.Proofs.Places
import Offside.Proofs.Strings

/-! # Words, operators and what is foreign

A word and an operator belong to the language of their kind and go on as far as they can. Tokens may
touch all the same, where a character that cannot go on with one begins another: `0x`, `15.abs`.
What no token is written with is reported, once for each character, unless it stands in a string. -/

namespace Offside

namespace Lexeme

namespace Grammar

open Pattern

def small : String := "abcdefghijklmnopqrstuvwxyz"

def capital : String := "ABCDEFGHIJKLMNOPQRSTUVWXYZ"

def wordStart : String := small ++ "_"

def wordCharacters : String := capital ++ small ++ "0123456789_"

def word : Pattern := oneOf wordStart * (oneOf wordCharacters).star

def operatorCharacters : String := "+-=*!\\/|@#$~%&?<>^.:"

def operator : Pattern := repeated (oneOf operatorCharacters)

end Grammar

def StopsBefore (characters : String) (text cs : List Char) : Prop :=
  ∃ rest, cs = text ++ rest ∧ ∀ c, rest.head? = some c → c ∉ characters.toList

/-- What a token of a kind shows is what it should be, and is all of it that stands in front. -/
structure Belongs (kind : TokenKind) (text cs : List Char) : Prop where
  word : kind = .identifier ∨ kind = .keyword .var ∨ kind = .keyword .val →
    text ∈ Grammar.word.matches' ∧ (kind = .keyword .var ↔ text = "var".toList) ∧
      (kind = .keyword .val ↔ text = "val".toList) ∧ StopsBefore Grammar.wordCharacters text cs
  operator : kind = .operator →
    text ∈ Grammar.operator.matches' ∧ StopsBefore Grammar.operatorCharacters text cs
  paren : kind = .opening .paren →
    ∃ rest, cs = '(' :: rest ∧ ∀ n, ¬ List.replicate n ' ' ++ [')'] <+: rest

variable {c : Char} {cs text : List Char} {l : Lexeme}

theorem isOperator_iff_mem : isOperator c = true ↔ c ∈ Grammar.operatorCharacters.toList := by
  rw [isOperator, List.contains_iff_mem]
  rfl

theorem isLower_iff_mem : c.isLower = true ↔ c ∈ Grammar.small.toList := by
  rw [isLower_iff]
  simp [Grammar.small, Char.ext_iff, ← UInt32.toNat_inj]
  omega

theorem isUpper_iff_mem : c.isUpper = true ↔ c ∈ Grammar.capital.toList := by
  rw [isUpper_iff]
  simp [Grammar.capital, Char.ext_iff, ← UInt32.toNat_inj]
  omega

theorem isWordStart_iff_mem : isWordStart c = true ↔ c ∈ Grammar.wordStart.toList := by
  rw [isWordStart, Bool.or_eq_true, isLower_iff_mem, Grammar.wordStart, String.toList_append,
    List.mem_append]
  simp

theorem isWordContinue_iff_mem :
    isWordContinue c = true ↔ c ∈ Grammar.wordCharacters.toList := by
  have letter : c.isAlpha = (c.isUpper || c.isLower) := rfl
  rw [isWordContinue, Char.isAlphanum, letter]
  simp only [Bool.or_eq_true, isLower_iff_mem, isUpper_iff_mem, isDigit_iff_mem,
    Grammar.wordCharacters, String.toList_append, List.mem_append]
  simp [or_assoc]

theorem stopsBefore_takeWhile {p : Char → Bool} {characters : String}
    (h : ∀ c, p c = true ↔ c ∈ characters.toList) (front cs : List Char) :
    StopsBefore characters (front ++ cs.takeWhile p) (front ++ cs) := by
  refine ⟨cs.dropWhile p, by simp, fun c hc => ?_⟩
  rw [← h, Bool.not_eq_true]
  simpa [hc] using List.head?_dropWhile_not p cs

theorem wordKind_eq_keyword_iff (k : Keyword) :
    wordKind text = .keyword k ↔ text = k.spelling.toList := by
  constructor
  · intro h
    unfold wordKind at h
    split at h
    · next found =>
      obtain rfl := TokenKind.keyword.inj h
      have spelled := List.find?_some found
      rw [beq_iff_eq] at spelled
      rw [spelled, String.toList_ofList]
    · cases h
  · rintro rfl
    rw [wordKind, String.ofList_toList, Keyword.ofSpelling?_spelling]

theorem wordKind_cases (text : List Char) :
    wordKind text = .identifier ∨ ∃ k, wordKind text = .keyword k := by
  unfold wordKind
  split
  · exact .inr ⟨_, rfl⟩
  · exact .inl rfl

theorem belongs_word (h : isWordStart c = true) (cs : List Char) :
    Belongs (word (c :: cs)).kind (word (c :: cs)).text (c :: cs) := by
  have other (kind : TokenKind) (hi : kind ≠ .identifier) (hk : ∀ k, kind ≠ .keyword k) :
      wordKind (c :: cs.takeWhile isWordContinue) ≠ kind := by
    rintro rfl
    obtain h | ⟨k, h⟩ := wordKind_cases (c :: cs.takeWhile isWordContinue)
    · exact hi h
    · exact hk k h
  refine ⟨fun _ => ⟨?_, wordKind_eq_keyword_iff .var, wordKind_eq_keyword_iff .val, ?_⟩, ?_, ?_⟩
  · have later : cs.takeWhile isWordContinue ∈
        (Pattern.oneOf Grammar.wordCharacters).star.matches' :=
      Pattern.mem_star_oneOf.2 fun d hd =>
        isWordContinue_iff_mem.1 (List.mem_takeWhile_imp hd)
    exact Pattern.mem_oneOf_mul.2 ⟨c, _, isWordStart_iff_mem.1 h, later, rfl⟩
  · exact stopsBefore_takeWhile (fun _ => isWordContinue_iff_mem) [c] cs
  · exact fun hk => absurd hk (other _ (by simp) (by simp))
  · exact fun hk => absurd hk (other _ (by simp) (by simp))

theorem belongs_operator (h : isOperator c = true) (cs : List Char) :
    Belongs .operator (operator (c :: cs)).text (c :: cs) := by
  refine ⟨by simp, fun _ => ⟨?_, ?_⟩, by simp⟩
  · refine Pattern.mem_repeated_oneOf.2 ⟨c, cs.takeWhile isOperator, isOperator_iff_mem.1 h, ?_, ?_⟩
    · exact fun d hd => isOperator_iff_mem.1 (List.mem_takeWhile_imp hd)
    · exact List.takeWhile_cons_of_pos h
  · exact stopsBefore_takeWhile (fun _ => isOperator_iff_mem) [] (c :: cs)

theorem belongs_bracket {kind : TokenKind} (hk : bracketKind? c = some kind)
    (hu : unitExtent? (c :: cs) = none) (text : List Char) : Belongs kind text (c :: cs) := by
  obtain ⟨b, hb⟩ := kind_of_bracketKind? hk
  refine ⟨by rcases hb with rfl | rfl <;> simp, by rcases hb with rfl | rfl <;> simp, ?_⟩
  rintro rfl
  obtain rfl : c = '(' := by
    by_contra paren
    simp only [bracketKind?, paren, if_false] at hk
    repeat' split at hk
    all_goals cases hk
  refine ⟨cs, rfl, fun n ⟨rest, closed⟩ => ?_⟩
  rw [List.append_assoc, List.singleton_append] at closed
  rw [unitExtent?_eq_some_iff.2 ⟨n, rest, by rw [closed], rfl⟩] at hu
  cases hu

theorem belongs_of_front (h : Front c cs l) : Belongs l.kind l.text (c :: cs) := by
  cases h with
  | number hd =>
    obtain hn | ⟨kind, rfl | rfl, hn⟩ := number_cases (c :: cs) <;> rw [hn]
    all_goals constructor <;> simp [verbatim]
  | word hw => exact belongs_word hw cs
  | operator ho => exact belongs_operator ho cs
  | unit => constructor <;> simp
  | bracket hk hu => exact belongs_bracket hk hu _
  | string hs =>
    rw [stringLiteral_cons]
    constructor <;> simp

theorem belongs_of_isSynthetic {kind : TokenKind} (h : kind.isSynthetic = true)
    (text cs : List Char) : Belongs kind text cs := by
  constructor
  · rintro (rfl | rfl | rfl) <;> cases h
  · rintro rfl
    cases h
  · rintro rfl
    cases h

end Lexeme

def Foreign (c : Char) : Prop := (127 < c.toNat ∨ Text.isControl c = true) ∧ c ≠ '\n'

/-- The place `k` is in the string that begins at `i`, its mark at the end included. -/
def InString (text : List Char) (i k : ℕ) : Prop :=
  ∃ j, IsLeast {j | EndsString text i j} j ∧ i ≤ k ∧ k ≤ j

def Diagnostic.straysAt (ds : List Diagnostic) (offset : ℕ) : List Diagnostic :=
  (strays ds).filter fun d => d.pos.offset == offset

variable {text : List Char} {c : Char} {k : ℕ} {t : Token} {ts : List Token}
  {d : Diagnostic} {ds : List Diagnostic} {l : Lexeme}

/-- Of two reports that follow each other at one place, only the second one is of a character. -/
theorem Diagnostic.straysAt_eq_singleton (ordered : ds.Pairwise Precedes)
    (stray : d.problem.isUnrecognized = true) (hd : d ∈ ds) (here : d.pos.offset = k) :
    straysAt ds k = [d] := by
  have mem : d ∈ straysAt ds k :=
    List.mem_filter.2 ⟨List.mem_filter.2 ⟨hd, stray⟩, beq_iff_eq.2 here⟩
  have pairs : (straysAt ds k).Pairwise Precedes := (ordered.filter _).filter _
  have other {e : Diagnostic} (he : e ∈ straysAt ds k) :
      e.problem.isUnrecognized = true ∧ e.pos.offset = k := by
    obtain ⟨he, at_⟩ := List.mem_filter.1 he
    exact ⟨(List.mem_filter.1 he).2, beq_iff_eq.1 at_⟩
  cases hs : straysAt ds k with
  | nil =>
    rw [hs] at mem
    cases mem
  | cons e es =>
    rw [hs] at mem pairs other
    cases es with
    | nil => rw [List.mem_singleton.1 mem]
    | cons f es =>
      obtain ⟨first, -⟩ := List.pairwise_cons.1 pairs
      obtain ⟨stray_e, at_e⟩ := other List.mem_cons_self
      obtain ⟨-, at_f⟩ := other (List.mem_cons_of_mem e List.mem_cons_self)
      rcases first f List.mem_cons_self with before | ⟨-, ⟨width, landedOn, depth⟩, -⟩
      · omega
      · rw [depth] at stray_e
        cases stray_e

theorem Foreign.not_ascii (h : Foreign c) : ¬ (0x20 ≤ c.toNat ∧ c.toNat < 0x7f) := by
  have outside := h.1
  simp [Text.isControl] at outside
  omega

/-- A string reaches as far as it can be read. -/
theorem inString_of_drop {i : ℕ} {cs : List Char} (hr : text.drop i = '"' :: cs) (hle : i ≤ k)
    (hlt : k < i + (Lexeme.stringLiteral ('"' :: cs)).extent) : InString text i k := by
  obtain ⟨body, rest, ending, rfl, cut, read⟩ := Lexeme.stringBody_cut cs
  obtain ⟨before, rfl, offset⟩ := Lexeme.exists_before hr
  rw [Lexeme.stringLiteral_cons, read, offset] at hlt
  rw [offset] at hle ⊢
  have mark : ending.mark?.toList.length ≤ 1 := by cases ending <;> simp [Lexeme.StringEnd.mark?]
  exact ⟨_, cut.isLeast before, hle, by simp only at hlt; omega⟩

theorem Token.Scanned.belongs (h : t.Scanned text l) :
    Lexeme.Belongs t.kind t.text.toList (text.drop t.pos.offset) := by
  obtain ⟨c, cs, hr, front⟩ := h.front
  have shown : t.text.toList = l.text := by
    rw [← h.token, Lexeme.token, String.toList_ofList]
  rw [hr, h.kind, shown]
  exact Lexeme.belongs_of_front front

/-- A foreign character that is in no string is in no token. -/
theorem Laid.foreign (laid : Laid text 0 text.length ts ds) (hk : text[k]? = some c)
    (foreign : Foreign c) (outside : ∀ t ∈ ts, t.kind = .string → ¬ InString text t.pos.offset k) :
    ∃ line, ⟨.unrecognizedCharacter c, ⟨line, k⟩⟩ ∈ ds := by
  have within : k < text.length := (List.getElem?_eq_some_iff.1 hk).1
  rcases laid.place k c hk (Nat.zero_le k) within with blank | stray | ⟨t, ht, spans⟩
  · rcases blank with rfl | rfl
    · exact absurd (by decide) foreign.not_ascii
    · exact absurd rfl foreign.2
  · exact stray
  · obtain ⟨l, scanned, hle, hlt⟩ := spans
    obtain ⟨first, cs, hr, front⟩ := scanned.front
    by_cases quote : first = '"'
    · subst quote
      obtain rfl : Lexeme.stringLiteral ('"' :: cs) = l :=
        Option.some.inj (Lexeme.read?_eq_some_iff.2 front)
      have string : t.kind = .string := by rw [scanned.kind, Lexeme.stringLiteral_cons]
      exact absurd (inString_of_drop hr hle hlt) (outside t ht string)
    · have mem := mem_take_drop hk hle hlt
      rw [hr] at mem
      exact absurd (Lexeme.ascii_of_front front quote c mem) foreign.not_ascii

/-- Every token belongs to the language of its kind and is not cut short, and every foreign
character outside of strings is reported where it is, once. -/
theorem tokens_belong (source : String) :
    let text := source.toList
    let lexed := tokenize source
    (∀ t ∈ lexed.tokens, Lexeme.Belongs t.kind t.text.toList (text.drop t.pos.offset)) ∧
      ∀ k c, text[k]? = some c → Foreign c →
        (∀ t ∈ lexed.tokens, t.kind = .string → ¬ InString text t.pos.offset k) →
        ∃ line, Diagnostic.straysAt lexed.diagnostics k =
          [⟨.unrecognizedCharacter c, ⟨line, k⟩⟩] := by
  intro text lexed
  have laid := tokenize_laid source
  constructor
  · intro t ht
    by_cases synthetic : t.isSynthetic = true
    · exact Lexeme.belongs_of_isSynthetic synthetic _ _
    · obtain ⟨l, scanned, -⟩ := laid.scanned t (List.mem_filter.2 ⟨ht, by simpa using synthetic⟩)
      exact scanned.belongs
  · intro k c hk foreign outside
    obtain ⟨line, stray⟩ := laid.foreign hk foreign fun t ht =>
      outside t (List.mem_filter.1 ht).1
    have ordered := (tokenize_located source).diagnostics_ordered
    exact ⟨line, Diagnostic.straysAt_eq_singleton ordered rfl stray rfl⟩

/-- The same character stands in a string and outside of it, and a word stands behind a number. -/
theorem tokens_belong_touching :
    let source := "f \"é\" +é 0xval"
    let text := source.toList
    let lexed := tokenize source
    ⟨.identifier, "xval", ⟨0, 10⟩⟩ ∈ lexed.tokens ∧
      Lexeme.Belongs .identifier "xval".toList (text.drop 10) ∧
      text[7]? = some 'é' ∧ Foreign 'é' ∧
      (∀ t ∈ lexed.tokens, t.kind = .string → ¬ InString text t.pos.offset 7) ∧
      ∃ line, Diagnostic.straysAt lexed.diagnostics 7 =
        [⟨.unrecognizedCharacter 'é', ⟨line, 7⟩⟩] := by
  intro source text lexed
  obtain ⟨tokens, strays⟩ := tokens_belong source
  have read : ⟨.identifier, "xval", ⟨0, 10⟩⟩ ∈ lexed.tokens := by decide +kernel
  have there : text[7]? = some 'é' := by decide
  have foreign : Foreign 'é' := ⟨.inl (by decide), by decide⟩
  have outside : ∀ t ∈ lexed.tokens, t.kind = .string → ¬ InString text t.pos.offset 7 := by
    have one : ∀ t ∈ lexed.tokens, t.kind = .string → t.pos.offset = 2 := by decide +kernel
    rintro t ht string ⟨j, least, -, inside⟩
    have ends : EndsString text 2 4 := ⟨by decide, .inr (.inr ⟨by decide, by decide⟩)⟩
    rw [one t ht string] at least
    have := least.2 ends
    omega
  exact ⟨read, tokens _ read, there, foreign, outside, strays 7 'é' there foreign outside⟩

end Offside
