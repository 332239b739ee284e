import Offside.Proofs.Longest
import Offside.Proofs.Moves

/-! # Numbers and their grammar

The scan of a number commits itself after looking at no more than three characters, and never goes
back. It still takes the longest number of the grammar that stands at the front of the text. No part
of a number can go on with what begins the next part, so each part is taken whole if it is taken at
all. The two alternatives do begin alike: what follows a leading zero decides between them. -/

namespace Offside.Lexeme

namespace Grammar

open Pattern

def digit : Pattern := oneOf "0123456789"

def hexadecimal : Pattern := oneOf "0" * (oneOf "xX" * repeated (oneOf "0123456789abcdefABCDEF"))

def whole : Pattern := oneOf "123456789" * digit.star + oneOf "0"

def fraction : Pattern := oneOf "." * repeated digit

def exponent : Pattern := oneOf "eE" * (oneOf "+-" * repeated digit)

def tail : Pattern := optional fraction * optional exponent

def decimal : Pattern := whole * tail

def number : Pattern := hexadecimal + decimal

def floating : Pattern := whole * (fraction * optional exponent + exponent)

end Grammar

variable {c d : Char} {cs t u v w : List Char}

theorem isDigit_iff_mem : c.isDigit = true ↔ c ∈ "0123456789".toList := by
  simp [Char.isDigit, Char.ext_iff, UInt32.le_iff_toNat_le, ← UInt32.toNat_inj]
  omega

theorem isHexDigit_iff_mem :
    Number.isHexDigit c = true ↔ c ∈ "0123456789abcdefABCDEF".toList := by
  simp [Number.isHexDigit, Char.isDigit, Char.ext_iff, Char.le_def, UInt32.le_iff_toNat_le,
    ← UInt32.toNat_inj]
  omega

namespace Grammar

open Pattern

theorem mem_hexadecimal : w ∈ hexadecimal.matches' ↔ ∃ x d ds, w = '0' :: x :: d :: ds ∧
    (x = 'x' ∨ x = 'X') ∧ Number.isHexDigit d = true ∧
      ∀ c ∈ ds, Number.isHexDigit c = true := by
  simp only [hexadecimal, mem_oneOf_mul, mem_repeated_oneOf, isHexDigit_iff_mem]
  constructor
  · rintro ⟨z, v, hz, ⟨x, v', hx, ⟨d, ds, hd, hds, rfl⟩, rfl⟩, rfl⟩
    obtain rfl : z = '0' := by simpa using hz
    exact ⟨x, d, ds, rfl, by simpa using hx, hd, hds⟩
  · rintro ⟨x, d, ds, rfl, hx, hd, hds⟩
    exact ⟨'0', _, by simp, ⟨x, _, by simpa using hx, ⟨d, ds, hd, hds, rfl⟩, rfl⟩, rfl⟩

theorem mem_whole : w ∈ whole.matches' ↔ ∃ d ds, w = d :: ds ∧ d.isDigit = true ∧
    (d = '0' → ds = []) ∧ ∀ c ∈ ds, c.isDigit = true := by
  rw [whole, RegularExpression.matches'_add, Language.mem_add, mem_oneOf_mul, mem_oneOf]
  simp only [digit, mem_star_oneOf, isDigit_iff_mem]
  constructor
  · rintro (⟨d, ds, hd, hds, rfl⟩ | ⟨d, hd, rfl⟩)
    · have either : d = '0' ∨ d ∈ "123456789".toList := .inr hd
      refine ⟨d, ds, rfl, by simpa using either, ?_, hds⟩
      rintro rfl
      simp at hd
    · obtain rfl : d = '0' := by simpa using hd
      exact ⟨'0', [], rfl, by simp, fun _ => rfl, by simp⟩
  · rintro ⟨d, ds, rfl, hd, zero, hds⟩
    by_cases h0 : d = '0'
    · rw [h0, zero h0]
      exact .inr ⟨'0', by simp, rfl⟩
    · refine .inl ⟨d, ds, ?_, hds, rfl⟩
      simpa [h0] using hd

theorem mem_fraction : w ∈ fraction.matches' ↔ ∃ d ds, w = '.' :: d :: ds ∧ d.isDigit = true ∧
    ∀ c ∈ ds, c.isDigit = true := by
  simp only [fraction, digit, mem_oneOf_mul, mem_repeated_oneOf, isDigit_iff_mem]
  constructor
  · rintro ⟨p, v, hp, ⟨d, ds, hd, hds, rfl⟩, rfl⟩
    obtain rfl : p = '.' := by simpa using hp
    exact ⟨d, ds, rfl, hd, hds⟩
  · rintro ⟨d, ds, rfl, hd, hds⟩
    exact ⟨'.', _, by simp, ⟨d, ds, hd, hds, rfl⟩, rfl⟩

theorem mem_exponent : w ∈ exponent.matches' ↔ ∃ e s d ds, w = e :: s :: d :: ds ∧
    (e = 'e' ∨ e = 'E') ∧ (s = '+' ∨ s = '-') ∧ d.isDigit = true ∧
      ∀ c ∈ ds, c.isDigit = true := by
  simp only [exponent, digit, mem_oneOf_mul, mem_repeated_oneOf, isDigit_iff_mem]
  constructor
  · rintro ⟨e, v, he, ⟨s, v', hs, ⟨d, ds, hd, hds, rfl⟩, rfl⟩, rfl⟩
    exact ⟨e, s, d, ds, rfl, by simpa using he, by simpa using hs, hd, hds⟩
  · rintro ⟨e, s, d, ds, rfl, he, hs, hd, hds⟩
    exact ⟨e, _, by simpa using he, ⟨s, _, by simpa using hs, ⟨d, ds, hd, hds, rfl⟩, rfl⟩, rfl⟩

theorem head?_optional_exponent (hv : v ∈ (optional exponent).matches') (hc : v.head? = some c) :
    c = 'e' ∨ c = 'E' := by
  rcases mem_optional.1 hv with rfl | hv
  · cases hc
  · obtain ⟨e, s, d, ds, rfl, he, -⟩ := mem_exponent.1 hv
    obtain rfl : e = c := Option.some.inj hc
    exact he

theorem head?_tail (hv : v ∈ tail.matches') (hc : v.head? = some c) :
    c = '.' ∨ c = 'e' ∨ c = 'E' := by
  obtain ⟨f, hf, e, he, rfl⟩ := Language.mem_mul.1 hv
  rcases mem_optional.1 hf with rfl | hf
  · exact .inr (head?_optional_exponent he hc)
  · obtain ⟨d, ds, rfl, -⟩ := mem_fraction.1 hf
    obtain rfl : '.' = c := Option.some.inj hc
    exact .inl rfl

theorem not_isDigit_of_head?_tail (hv : v ∈ tail.matches') (hc : v.head? = some c) :
    c.isDigit = false := by
  rcases head?_tail hv hc with rfl | rfl | rfl <;> rfl

theorem mem_tail_of_nonempty :
    v ∈ (fraction * optional exponent + exponent).matches' ↔ v ∈ tail.matches' ∧ v ≠ [] := by
  rw [RegularExpression.matches'_add, Language.mem_add, tail, RegularExpression.matches'_mul,
    RegularExpression.matches'_mul, Language.mem_mul, Language.mem_mul]
  constructor
  · rintro (⟨f, hf, e, he, rfl⟩ | hv)
    · refine ⟨⟨f, mem_optional.2 (.inr hf), e, he, rfl⟩, ?_⟩
      obtain ⟨d, ds, rfl, -⟩ := mem_fraction.1 hf
      exact List.cons_ne_nil _ _
    · refine ⟨⟨[], mem_optional.2 (.inl rfl), v, mem_optional.2 (.inr hv), rfl⟩, ?_⟩
      obtain ⟨e, s, d, ds, rfl, -⟩ := mem_exponent.1 hv
      exact List.cons_ne_nil _ _
  · rintro ⟨⟨f, hf, e, he, rfl⟩, nonempty⟩
    rcases mem_optional.1 hf with rfl | hf
    · exact .inr ((mem_optional.1 he).resolve_left nonempty)
    · exact .inl ⟨f, hf, e, he, rfl⟩

/-- Behind a leading zero no decimal number goes on with what a hexadecimal one goes on with. -/
theorem decimal_behind_zero (hu : u ∈ decimal.matches') (front : u <+: '0' :: d :: cs)
    (hd : d = 'x' ∨ d = 'X') : u = ['0'] := by
  obtain ⟨w, hw, v, hv, rfl⟩ := Language.mem_mul.1 hu
  obtain ⟨z, zs, rfl, -, zero, -⟩ := mem_whole.1 hw
  obtain ⟨rfl, behind⟩ := List.cons_prefix_cons.1 front
  rw [zero rfl] at behind ⊢
  cases v with
  | nil => rfl
  | cons x v =>
    obtain ⟨rfl, -⟩ := List.cons_prefix_cons.1 behind
    rcases head?_tail hv rfl with rfl | rfl | rfl <;> simp at hd

theorem decimal_of_floating (h : w ∈ floating.matches') : w ∈ decimal.matches' := by
  obtain ⟨u, hu, v, hv, rfl⟩ := Language.mem_mul.1 h
  exact Language.append_mem_mul hu (mem_tail_of_nonempty.1 hv).1

theorem not_floating_of_digits (digits : ∀ c ∈ w, c.isDigit = true) :
    w ∉ floating.matches' := by
  intro h
  obtain ⟨u, -, v, hv, rfl⟩ := Language.mem_mul.1 h
  obtain ⟨hv, nonempty⟩ := mem_tail_of_nonempty.1 hv
  obtain ⟨x, v, rfl⟩ := List.exists_cons_of_ne_nil nonempty
  have isDigit := digits x (List.mem_append_right u List.mem_cons_self)
  rw [not_isDigit_of_head?_tail hv rfl] at isDigit
  cases isDigit

theorem longest_hexadecimal (cs : List Char) :
    Longest (optional hexadecimal).matches' cs (Number.hexadecimal cs) := by
  apply Longest.optional _ (Number.hexadecimal_isPrefix cs)
  · intro u hu front
    obtain ⟨x, d, ds, rfl, hx, hd, hds⟩ := mem_hexadecimal.1 hu
    obtain ⟨rest, rfl⟩ := front
    simp [Number.hexadecimal_cons, hx, hd, List.takeWhile_append_of_pos hds]
  · obtain h | ⟨x, d, ds, -, hx, hd, h⟩ := Number.hexadecimal_cases cs
    · exact .inl h
    · exact .inr (mem_hexadecimal.2 ⟨x, d, _, h, hx, hd, fun _ => List.mem_takeWhile_imp⟩)

theorem longest_fraction (cs : List Char) :
    Longest (optional fraction).matches' cs (Number.fraction cs) := by
  apply Longest.optional _ (Number.fraction_isPrefix cs)
  · intro u hu front
    obtain ⟨d, ds, rfl, hd, hds⟩ := mem_fraction.1 hu
    obtain ⟨rest, rfl⟩ := front
    simp [Number.fraction_cons, hd, List.takeWhile_append_of_pos hds]
  · obtain h | ⟨d, ds, -, hd, h⟩ := Number.fraction_cases cs
    · exact .inl h
    · exact .inr (mem_fraction.2 ⟨d, _, h, hd, fun _ => List.mem_takeWhile_imp⟩)

theorem longest_exponent (cs : List Char) :
    Longest (optional exponent).matches' cs (Number.exponent cs) := by
  apply Longest.optional _ (Number.exponent_isPrefix cs)
  · intro u hu front
    obtain ⟨e, s, d, ds, rfl, he, hs, hd, hds⟩ := mem_exponent.1 hu
    obtain ⟨rest, rfl⟩ := front
    simp [Number.exponent_cons, he, hs, hd, List.takeWhile_append_of_pos hds]
  · obtain h | ⟨e, s, d, ds, -, he, hs, hd, h⟩ := Number.exponent_cases cs
    · exact .inl h
    · exact .inr (mem_exponent.2 ⟨e, s, d, _, h, he, hs, hd, fun _ => List.mem_takeWhile_imp⟩)

theorem longest_whole (hc : c.isDigit = true) (cs : List Char) :
    Longest whole.matches' (c :: cs) (Number.whole (c :: cs)) := by
  refine ⟨?_, Number.whole_isPrefix _, ?_⟩
  · rw [mem_whole]
    by_cases h0 : c = '0'
    · exact ⟨c, [], by simp [Number.whole, h0], hc, fun _ => rfl, by simp⟩
    · refine ⟨c, cs.takeWhile Char.isDigit, by simp [Number.whole, h0], hc, ?_, ?_⟩
      · intro h
        exact absurd h h0
      · exact fun _ => List.mem_takeWhile_imp
  · intro u hu front
    obtain ⟨d, ds, rfl, -, zero, hds⟩ := mem_whole.1 hu
    obtain ⟨rest, he⟩ := front
    rw [List.cons_append] at he
    obtain ⟨rfl, rfl⟩ := List.cons.inj he
    by_cases h0 : d = '0'
    · simp [Number.whole, h0, zero h0]
    · simp [Number.whole, h0, List.takeWhile_append_of_pos hds]

theorem longest_tail (cs : List Char) : Longest tail.matches' cs (Number.tail cs) := by
  apply (longest_fraction cs).mul (longest_exponent _)
  intro v hv c hc mem
  have he := head?_optional_exponent hv hc
  rcases mem_optional.1 (longest_fraction cs).mem with absent | present
  · rw [absent] at mem
    cases mem
  · obtain ⟨d, ds, hf, hd, hds⟩ := mem_fraction.1 present
    rw [hf] at mem
    rcases List.mem_cons.1 mem with rfl | mem
    · simp at he
    · have digits : ∀ x ∈ d :: ds, x.isDigit = true := List.forall_mem_cons.2 ⟨hd, hds⟩
      have isDigit := digits c mem
      rcases he with rfl | rfl <;> cases isDigit

theorem longest_decimal (hc : c.isDigit = true) (cs : List Char) :
    Longest decimal.matches' (c :: cs) (Number.decimal (c :: cs)) := by
  apply (longest_whole hc cs).mul (longest_tail _)
  intro v hv x hx mem
  obtain ⟨d, ds, hw, hd, -, hds⟩ := mem_whole.1 (longest_whole hc cs).mem
  rw [hw] at mem
  have digits : ∀ x ∈ d :: ds, x.isDigit = true := List.forall_mem_cons.2 ⟨hd, hds⟩
  have isDigit := digits x mem
  rw [not_isDigit_of_head?_tail hv hx] at isDigit
  cases isDigit

theorem longest_number (hc : c.isDigit = true) (cs : List Char) :
    Longest number.matches' (c :: cs) (Lexeme.number (c :: cs)).text := by
  have longestHex := longest_hexadecimal (c :: cs)
  by_cases noHex : Number.hexadecimal (c :: cs) = []
  · rw [number_of_decimal noHex]
    apply (longest_decimal hc cs).add_right
    intro u hu front
    have short := longestHex.longest u (mem_optional.2 (.inr hu)) front
    rw [noHex] at short
    exact short.trans (Nat.zero_le _)
  · rw [number_of_hexadecimal noHex]
    apply (longestHex.of_optional noHex).add_left
    intro u hu front
    obtain ⟨x, d, ds, hs, hx, -⟩ := mem_hexadecimal.1 (longestHex.of_optional noHex).mem
    obtain ⟨rest, he⟩ := longestHex.isPrefix
    rw [hs] at he ⊢
    rw [← he] at front
    rw [decimal_behind_zero hu front hx]
    exact Nat.succ_le_succ (Nat.zero_le _)

theorem kind_number (hc : c.isDigit = true) (cs : List Char) :
    let lexeme := Lexeme.number (c :: cs)
    (lexeme.kind = .floating ↔ lexeme.text ∈ floating.matches') ∧
      (lexeme.kind = .integer ↔ lexeme.text ∉ floating.matches') := by
  have longestWhole := longest_whole hc cs
  have longestTail := longest_tail ((c :: cs).drop (Number.whole (c :: cs)).length)
  by_cases noHex : Number.hexadecimal (c :: cs) = []
  · rw [number_of_decimal noHex, Number.decimal]
    generalize Number.tail ((c :: cs).drop (Number.whole (c :: cs)).length) = behind
      at longestTail ⊢
    by_cases empty : behind = []
    · obtain ⟨d, ds, hw, hd, -, hds⟩ := mem_whole.1 longestWhole.mem
      have notFloating := not_floating_of_digits (List.forall_mem_cons.2 ⟨hd, hds⟩)
      simp [verbatim, empty, hw, notFloating]
    · have mem : Number.whole (c :: cs) ++ behind ∈ floating.matches' :=
        Language.append_mem_mul longestWhole.mem (mem_tail_of_nonempty.2 ⟨longestTail.mem, empty⟩)
      simp [verbatim, empty, mem]
  · have longestHex := (longest_hexadecimal (c :: cs)).of_optional noHex
    obtain ⟨x, d, ds, hs, hx, -⟩ := mem_hexadecimal.1 longestHex.mem
    have notFloating : Number.hexadecimal (c :: cs) ∉ floating.matches' := by
      rw [hs]
      intro h
      have one := decimal_behind_zero (decimal_of_floating h) List.prefix_rfl hx
      cases one
    rw [number_of_hexadecimal noHex]
    simp [verbatim, notFloating]

end Grammar

end Offside.Lexeme

namespace Offside

/-- Wherever a digit is next, what is taken is the longest number that stands there, and nothing else
changes: the token is where the cursor was, and the cursor is behind the number on the same line. -/
theorem number_longest (c : Cursor) (digit : Char) (hp : c.peek = some digit)
    (hd : digit.isDigit = true) :
    let scanned := c.take (Lexeme.number c.rest)
    let text := scanned.1.text.toList
    Longest Lexeme.Grammar.number.matches' c.rest text ∧
    scanned.1.pos = c.pos ∧
    (scanned.1.kind = .floating ↔ text ∈ Lexeme.Grammar.floating.matches') ∧
    (scanned.1.kind = .integer ↔ text ∉ Lexeme.Grammar.floating.matches') ∧
    scanned.2.1 = [] ∧
    scanned.2.2 = ⟨c.rest.drop text.length, ⟨c.pos.line, c.pos.offset + text.length⟩,
      c.atLineStart⟩ := by
  obtain ⟨cs, hr⟩ : ∃ cs, c.rest = digit :: cs := List.head?_eq_some_iff.1 hp
  have longest := Lexeme.Grammar.longest_number hd cs
  obtain ⟨floating, integer⟩ := Lexeme.Grammar.kind_number hd cs
  have line : '\n' ∉ (Lexeme.number (digit :: cs)).text := by
    intro mem
    have solid := Lexeme.solid_of_number hd cs _ mem
    cases solid
  have taken := Cursor.take_verbatim (c := c) (hr ▸ longest.isPrefix) line
    (Lexeme.number (digit :: cs)).kind
  rw [← Lexeme.number_verbatim, ← hr] at taken
  rw [← hr] at longest floating integer
  simp only [taken, String.toList_ofList]
  exact ⟨longest, trivial, floating, integer, trivial, trivial⟩

/-- An exponent without a digit is left, together with its sign. -/
theorem number_longest_incomplete :
    let c : Cursor := ⟨"1.5e+ x".toList, ⟨2, 30⟩, false⟩
    c.peek = some '1' ∧ '1'.isDigit = true ∧
      Longest Lexeme.Grammar.number.matches' c.rest "1.5".toList ∧
      (c.take (Lexeme.number c.rest)).2.2.pos = ⟨2, 33⟩ := by
  have one : '1'.isDigit = true := rfl
  have scanned := number_longest ⟨"1.5e+ x".toList, ⟨2, 30⟩, false⟩ '1' rfl one
  refine ⟨rfl, one, ?_, ?_⟩
  · exact scanned.1
  · exact congrArg Cursor.pos scanned.2.2.2.2.2

example : (Lexeme.number "0x1e+5".toList).text = "0x1e".toList := by decide

end Offside
