import Offside.Proofs.Lexemes

/-! # The characters of a lexeme

A string can hold any character, and a unit value is what it is. Numbers, words and operators have
nothing but letters, digits, underscores and operator characters, none of which is a quotation mark
or a bracket. -/

namespace Offside

def TokenKind.isPlain : TokenKind → Bool
  | string | unit | opening _ | closing _ => false
  | _ => true

namespace Lexeme

variable {c : Char} {cs : List Char} {l : Lexeme}

def isInner (c : Char) : Bool := isWordContinue c || isOperator c

theorem isUpper_iff : c.isUpper = true ↔ 65 ≤ c.toNat ∧ c.toNat ≤ 90 := decide_eq_true_iff

theorem isLower_iff : c.isLower = true ↔ 97 ≤ c.toNat ∧ c.toNat ≤ 122 := by
  change (decide ('a'.val ≤ c.val) && decide (c.val ≤ 'z'.val)) = true ↔ _
  rw [Bool.and_eq_true, decide_eq_true_iff, decide_eq_true_iff]
  rfl

theorem isAlphanum_iff : c.isAlphanum = true ↔ 65 ≤ c.toNat ∧ c.toNat ≤ 90 ∨
    97 ≤ c.toNat ∧ c.toNat ≤ 122 ∨ 48 ≤ c.toNat ∧ c.toNat ≤ 57 := by
  have letter : c.isAlpha = (c.isUpper || c.isLower) := rfl
  rw [Char.isAlphanum, letter, Bool.or_eq_true, Bool.or_eq_true, isUpper_iff, isLower_iff,
    Char.isDigit_iff_toNat, or_assoc]
  rfl

theorem isInner_of_isAlphanum (h : c.isAlphanum = true) : isInner c = true := by
  simp [isInner, isWordContinue, h]

theorem isInner_of_isDigit (h : c.isDigit = true) : isInner c = true :=
  isInner_of_isAlphanum (by simp [Char.isAlphanum, h])

theorem isInner_of_isHexDigit (h : Number.isHexDigit c = true) : isInner c = true := by
  apply isInner_of_isAlphanum
  rw [isAlphanum_iff]
  simp [Number.isHexDigit, Char.isDigit_iff_toNat, Char.le_def, UInt32.le_iff_toNat_le] at h
  omega

theorem isWordContinue_of_isWordStart (h : isWordStart c = true) : isWordContinue c = true := by
  obtain h | rfl : c.isLower = true ∨ c = '_' := by simpa [isWordStart] using h
  · have letter : c.isAlpha = true := (Bool.or_eq_true c.isUpper c.isLower).mpr (.inr h)
    simp [isWordContinue, Char.isAlphanum, letter]
  · rfl

theorem isInner_of_isWordStart (h : isWordStart c = true) : isInner c = true := by
  rw [isInner, isWordContinue_of_isWordStart h, Bool.true_or]

namespace Number

theorem inner_hexadecimal : ∀ x ∈ hexadecimal cs, isInner x = true := by
  obtain h | ⟨b, d, ds, -, hb, hd, h⟩ := hexadecimal_cases cs <;> rw [h]
  · simp
  · intro x hx
    simp only [List.mem_cons] at hx
    rcases hx with rfl | rfl | rfl | hx
    · rfl
    · rcases hb with rfl | rfl <;> rfl
    · exact isInner_of_isHexDigit hd
    · exact isInner_of_isHexDigit (List.mem_takeWhile_imp hx)

theorem inner_whole (hc : c.isDigit = true) : ∀ x ∈ whole (c :: cs), isInner x = true := by
  intro x hx
  by_cases h0 : c = '0'
  · obtain rfl : x = '0' := by simpa [whole, h0] using hx
    rfl
  · simp only [whole, h0, if_false, List.mem_cons] at hx
    rcases hx with rfl | hx
    · exact isInner_of_isDigit hc
    · exact isInner_of_isDigit (List.mem_takeWhile_imp hx)

theorem inner_fraction : ∀ x ∈ fraction cs, isInner x = true := by
  obtain h | ⟨d, ds, -, hd, h⟩ := fraction_cases cs <;> rw [h]
  · simp
  · intro x hx
    simp only [List.mem_cons] at hx
    rcases hx with rfl | rfl | hx
    · rfl
    · exact isInner_of_isDigit hd
    · exact isInner_of_isDigit (List.mem_takeWhile_imp hx)

theorem inner_exponent : ∀ x ∈ exponent cs, isInner x = true := by
  obtain h | ⟨e, s, d, ds, -, he, hs, hd, h⟩ := exponent_cases cs <;> rw [h]
  · simp
  · intro x hx
    simp only [List.mem_cons] at hx
    rcases hx with rfl | rfl | rfl | hx
    · rcases he with rfl | rfl <;> rfl
    · rcases hs with rfl | rfl <;> rfl
    · exact isInner_of_isDigit hd
    · exact isInner_of_isDigit (List.mem_takeWhile_imp hx)

theorem inner_decimal (hc : c.isDigit = true) : ∀ x ∈ decimal (c :: cs), isInner x = true := by
  intro x hx
  rw [decimal, tail, List.mem_append, List.mem_append] at hx
  rcases hx with hx | hx | hx
  · exact inner_whole hc x hx
  · exact inner_fraction x hx
  · exact inner_exponent x hx

end Number

theorem isPlain_number (cs : List Char) : (number cs).kind.isPlain = true := by
  obtain hn | ⟨kind, rfl | rfl, hn⟩ := number_cases cs <;> rw [hn] <;> rfl

theorem isPlain_word (cs : List Char) : (word cs).kind.isPlain = true := by
  cases cs with
  | nil => rfl
  | cons c cs =>
    simp only [word, verbatim, wordKind]
    split <;> rfl

/-- Only strings and unit values show something other than what they were read from. -/
theorem Covers.eq_text_of_ne {kind : TokenKind} {text extent : List Char}
    (h : Covers kind text extent) (hs : kind ≠ .string) (hu : kind ≠ .unit) : extent = text := by
  cases kind <;> first | exact h.1 | contradiction

theorem Covers.eq_text {kind : TokenKind} {text extent : List Char} (h : Covers kind text extent)
    (hk : kind.isPlain = true) : extent = text := by
  apply h.eq_text_of_ne
  · rintro rfl
    cases hk
  · rintro rfl
    cases hk

/-- All that a token shows was read, unless it is a string. -/
theorem Covers.text_subset {kind : TokenKind} {text extent : List Char}
    (h : Covers kind text extent) (hk : kind ≠ .string) : text ⊆ extent := by
  cases kind with
  | string => exact absurd rfl hk
  | unit =>
    obtain ⟨rfl, n, rfl⟩ := h
    simp
  | _ =>
    rw [h.1]
    exact List.Subset.refl text

theorem inner_of_front (h : Front c cs l) (hk : l.kind.isPlain = true) :
    ∀ x ∈ l.text, isInner x = true := by
  cases h with
  | number hd =>
    obtain hn | ⟨kind, -, hn⟩ := number_cases (c :: cs) <;> rw [hn]
    · exact Number.inner_hexadecimal
    · exact Number.inner_decimal hd
  | word hw =>
    intro x hx
    rcases List.mem_cons.1 hx with rfl | hx
    · exact isInner_of_isWordStart hw
    · simp [isInner, List.mem_takeWhile_imp hx]
  | operator ho =>
    intro x hx
    simp [isInner, List.mem_takeWhile_imp hx]
  | unit => cases hk
  | bracket hb =>
    obtain ⟨b, rfl | rfl⟩ := kind_of_bracketKind? hb <;> cases hk
  | string =>
    rw [stringLiteral_cons] at hk
    cases hk

theorem ascii_of_isInner (h : isInner c = true) : 0x20 < c.toNat ∧ c.toNat < 0x7f := by
  have ascii : ∀ c ∈ operatorCharacters, 0x20 < c.toNat ∧ c.toNat < 0x7f := by
    simp [operatorCharacters]
  obtain (h | rfl) | h : (c.isAlphanum = true ∨ c = '_') ∨ c ∈ operatorCharacters := by
    simpa [isInner, isWordContinue, isOperator] using h
  · rw [isAlphanum_iff] at h
    omega
  · decide
  · exact ascii c h

/-- Only strings hold characters that no token is written with. -/
theorem ascii_of_front (h : Front c cs l) (hq : c ≠ '"') :
    ∀ x ∈ (c :: cs).take l.extent, 0x20 ≤ x.toNat ∧ x.toNat < 0x7f := by
  have covers := (covers_of_front h).2
  have plain (hk : l.kind.isPlain = true) :
      ∀ x ∈ (c :: cs).take l.extent, 0x20 ≤ x.toNat ∧ x.toNat < 0x7f := by
    rw [covers.eq_text hk]
    intro x hx
    obtain ⟨low, high⟩ := ascii_of_isInner (inner_of_front h hk x hx)
    exact ⟨low.le, high⟩
  cases h with
  | number => exact plain (isPlain_number _)
  | word => exact plain (isPlain_word _)
  | operator => exact plain rfl
  | unit =>
    obtain ⟨-, n, spelled⟩ := covers
    rw [spelled]
    intro x hx
    simp only [List.mem_cons, List.mem_append, List.mem_replicate, List.not_mem_nil, or_false] at hx
    rcases hx with rfl | ⟨-, rfl⟩ | rfl <;> decide
  | bracket hk =>
    have all : ∀ x ∈ brackets, 0x20 ≤ x.toNat ∧ x.toNat < 0x7f := by simp [brackets]
    intro x hx
    obtain rfl : x = c := by simpa [verbatim] using hx
    exact all x (mem_brackets hk)
  | string quote => exact absurd quote hq

theorem other_of_isInner (h : isInner c = true) : c ≠ '"' ∧ bracketKind? c = none := by
  constructor
  · rintro rfl
    cases h
  · apply Option.eq_none_iff_forall_ne_some.2
    intro kind hk
    have all : ∀ c ∈ brackets, isInner c = false := by
      simp [brackets, isInner, isWordContinue, isOperator, operatorCharacters, Char.isAlphanum]
    rw [all c (mem_brackets hk)] at h
    cases h

/-- A character that begins nothing opens no string and is no bracket. -/
theorem other_of_read?_eq_none (h : read? (c :: cs) = none) : c ≠ '"' ∧ bracketKind? c = none := by
  have unread (l : Lexeme) : ¬ Front c cs l := by
    intro front
    rw [read?_eq_some_iff.2 front] at h
    cases h
  constructor
  · intro quote
    exact unread _ (.string quote)
  · apply Option.eq_none_iff_forall_ne_some.2
    intro kind hk
    cases hu : unitExtent? (c :: cs) with
    | none => exact unread _ (.bracket hk hu)
    | some extent => exact unread _ (.unit hk hu)

end Lexeme

end Offside
