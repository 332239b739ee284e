import Mathlib.Data.List.TakeWhile
import Offside.Lexeme.Number
import Offside.Lexeme.Sign
import Offside.Lexeme.Word

/-! # Gaps and numbers

No number looks past a space or a newline: what is read is settled by the text up to there. And what
is read is a number whole: reading its text again gives it back. Each part of a number is shown to
behave so, and then the number they make up. -/

namespace Offside.Lexeme

variable {c : Char} {cs more v : List Char} {p : Char → Bool}

def isSolid (c : Char) : Bool := c ≠ ' ' && c ≠ '\n'

def Gap (more : List Char) : Prop := ∀ c, more.head? = some c → isSolid c = false

def LineEnd (more : List Char) : Prop := ∀ c, more.head? = some c → c = '\n'

theorem LineEnd.gap (h : LineEnd more) : Gap more := by
  intro c hc
  simp [isSolid, h c hc]

theorem eq_of_not_solid (h : isSolid c = false) : c = ' ' ∨ c = '\n' := by
  by_cases hb : c = ' '
  · exact .inl hb
  · exact .inr (by simpa [isSolid, hb] using h)

theorem takeWhile_append_stop (h : ∀ c, more.head? = some c → p c = false) (cs : List Char) :
    (cs ++ more).takeWhile p = cs.takeWhile p := by
  induction cs with
  | nil =>
    cases more with
    | nil => rfl
    | cons c rest => simp [h c rfl]
  | cons c cs ih => by_cases hc : p c = true <;> simp [hc, ih]

theorem drop_length_takeWhile {α : Type} (p : α → Bool) (xs : List α) :
    xs.drop (xs.takeWhile p).length = xs.dropWhile p := by
  have h : (xs.takeWhile p ++ xs.dropWhile p).drop (xs.takeWhile p).length = xs.dropWhile p :=
    List.drop_left
  rwa [List.takeWhile_append_dropWhile] at h

theorem eq_space_of_mem_takeWhile (h : c ∈ cs.takeWhile (· == ' ')) : c = ' ' := by
  simpa using List.mem_takeWhile_imp h

theorem takeWhile_spaces (cs : List Char) :
    cs.takeWhile (· == ' ') = List.replicate (cs.takeWhile (· == ' ')).length ' ' :=
  List.eq_replicate_iff.2 ⟨rfl, fun _ => eq_space_of_mem_takeWhile⟩

theorem drop_append_of_isPrefix (h : v <+: cs) (more : List Char) :
    (cs ++ more).drop v.length = cs.drop v.length ++ more :=
  List.drop_append_of_le_length h.length_le

/-- Neither a space nor a newline goes on with anything. -/
theorem not_solid_stops (h : isSolid c = false) :
    c.isDigit = false ∧ Number.isHexDigit c = false ∧ isWordContinue c = false ∧
      isOperator c = false := by
  rcases eq_of_not_solid h with rfl | rfl <;> decide

namespace Number

theorem hexadecimal_cons (a x d : Char) (cs : List Char) :
    hexadecimal (a :: x :: d :: cs) =
      if a = '0' ∧ (x = 'x' ∨ x = 'X') ∧ isHexDigit d = true then
        a :: x :: d :: cs.takeWhile isHexDigit
      else [] := by
  unfold hexadecimal
  split
  · next h =>
    cases h
    simp
  · next h =>
    have ha : a ≠ '0' := fun ha => h x d cs (by rw [ha])
    simp [ha]

theorem hexadecimal_of_short (h : cs.length < 3) : hexadecimal cs = [] := by
  unfold hexadecimal
  split
  · simp at h
    omega
  · rfl

theorem fraction_cons (a d : Char) (cs : List Char) :
    fraction (a :: d :: cs) =
      if a = '.' ∧ d.isDigit = true then a :: d :: cs.takeWhile Char.isDigit else [] := by
  unfold fraction
  split
  · next h =>
    cases h
    simp
  · next h =>
    have ha : a ≠ '.' := fun ha => h d cs (by rw [ha])
    simp [ha]

theorem fraction_of_short (h : cs.length < 2) : fraction cs = [] := by
  unfold fraction
  split
  · simp only [List.length_cons] at h
    omega
  · rfl

theorem exponent_cons (a s d : Char) (cs : List Char) :
    exponent (a :: s :: d :: cs) =
      if (a = 'e' ∨ a = 'E') ∧ (s = '+' ∨ s = '-') ∧ d.isDigit = true then
        a :: s :: d :: cs.takeWhile Char.isDigit
      else [] := by
  simp [exponent, and_assoc]

theorem exponent_of_short (h : cs.length < 3) : exponent cs = [] := by
  unfold exponent
  split
  · simp at h
    omega
  · rfl

theorem hexadecimal_append (h : Gap more) (cs : List Char) :
    hexadecimal (cs ++ more) = hexadecimal cs := by
  have stop := takeWhile_append_stop fun c hc => (not_solid_stops (h c hc)).2.1
  cases more with
  | nil => simp
  | cons g rest =>
    have hg := h g rfl
    have hx := (not_solid_stops hg).2.1
    have hn : g ≠ '0' ∧ g ≠ 'x' ∧ g ≠ 'X' := by rcases eq_of_not_solid hg with rfl | rfl <;> decide
    rcases cs with _ | ⟨a, _ | ⟨b, _ | ⟨d, ds⟩⟩⟩
    · rcases rest with _ | ⟨r, _ | ⟨r', rs⟩⟩ <;> simp [hexadecimal_cons, hexadecimal_of_short, hn]
    · rcases rest with _ | ⟨r, rs⟩ <;> simp [hexadecimal_cons, hexadecimal_of_short, hn]
    · simp [hexadecimal_cons, hexadecimal_of_short, hx]
    · simp [hexadecimal_cons, stop]

theorem fraction_append (h : Gap more) (cs : List Char) : fraction (cs ++ more) = fraction cs := by
  have stop := takeWhile_append_stop fun c hc => (not_solid_stops (h c hc)).1
  cases more with
  | nil => simp
  | cons g rest =>
    have hg := h g rfl
    have hd := (not_solid_stops hg).1
    have hn : g ≠ '.' := by rcases eq_of_not_solid hg with rfl | rfl <;> decide
    rcases cs with _ | ⟨a, _ | ⟨d, ds⟩⟩
    · cases rest <;> simp [fraction_cons, fraction_of_short, hn]
    · simp [fraction_cons, fraction_of_short, hd]
    · simp [fraction_cons, stop]

theorem exponent_append (h : Gap more) (cs : List Char) : exponent (cs ++ more) = exponent cs := by
  have stop := takeWhile_append_stop fun c hc => (not_solid_stops (h c hc)).1
  cases more with
  | nil => simp
  | cons g rest =>
    have hg := h g rfl
    have hd := (not_solid_stops hg).1
    have hn : g ≠ 'e' ∧ g ≠ 'E' ∧ g ≠ '+' ∧ g ≠ '-' := by
      rcases eq_of_not_solid hg with rfl | rfl <;> decide
    rcases cs with _ | ⟨a, _ | ⟨b, _ | ⟨d, ds⟩⟩⟩
    · rcases rest with _ | ⟨r, _ | ⟨r', rs⟩⟩ <;> simp [exponent_cons, exponent_of_short, hn]
    · rcases rest with _ | ⟨r, rs⟩ <;> simp [exponent_cons, exponent_of_short, hn]
    · simp [exponent_cons, exponent_of_short, hd]
    · simp [exponent_cons, stop]

theorem whole_append (h : Gap more) (c : Char) (cs : List Char) :
    whole (c :: cs ++ more) = whole (c :: cs) := by
  have stop := takeWhile_append_stop fun c hc => (not_solid_stops (h c hc)).1
  simp [whole, stop]

theorem hexadecimal_cases (cs : List Char) : hexadecimal cs = [] ∨
    ∃ x d ds, cs = '0' :: x :: d :: ds ∧ (x = 'x' ∨ x = 'X') ∧ isHexDigit d = true ∧
      hexadecimal cs = '0' :: x :: d :: ds.takeWhile isHexDigit := by
  fun_cases hexadecimal cs with
  | case1 x d ds h => exact .inr ⟨x, d, ds, rfl, by simpa using h⟩
  | case2 => exact .inl rfl
  | case3 => exact .inl rfl

theorem fraction_cases (cs : List Char) : fraction cs = [] ∨
    ∃ d ds, cs = '.' :: d :: ds ∧ d.isDigit = true ∧
      fraction cs = '.' :: d :: ds.takeWhile Char.isDigit := by
  fun_cases fraction cs with
  | case1 d ds h => exact .inr ⟨d, ds, rfl, h, rfl⟩
  | case2 => exact .inl rfl
  | case3 => exact .inl rfl

theorem exponent_cases (cs : List Char) : exponent cs = [] ∨
    ∃ e s d ds, cs = e :: s :: d :: ds ∧ (e = 'e' ∨ e = 'E') ∧ (s = '+' ∨ s = '-') ∧
      d.isDigit = true ∧ exponent cs = e :: s :: d :: ds.takeWhile Char.isDigit := by
  fun_cases exponent cs with
  | case1 e s d ds h => exact .inr ⟨e, s, d, ds, rfl, by simpa [and_assoc] using h⟩
  | case2 => exact .inl rfl
  | case3 => exact .inl rfl

theorem hexadecimal_isPrefix (cs : List Char) : hexadecimal cs <+: cs := by
  obtain h | ⟨x, d, ds, rfl, -, -, h⟩ := hexadecimal_cases cs <;> rw [h]
  · exact List.nil_prefix
  · simp [List.takeWhile_prefix]

theorem fraction_isPrefix (cs : List Char) : fraction cs <+: cs := by
  obtain h | ⟨d, ds, rfl, -, h⟩ := fraction_cases cs <;> rw [h]
  · exact List.nil_prefix
  · simp [List.takeWhile_prefix]

theorem exponent_isPrefix (cs : List Char) : exponent cs <+: cs := by
  obtain h | ⟨e, s, d, ds, rfl, -, -, -, h⟩ := exponent_cases cs <;> rw [h]
  · exact List.nil_prefix
  · simp [List.takeWhile_prefix]

theorem whole_isPrefix (cs : List Char) : whole cs <+: cs := by
  cases cs with
  | nil => exact List.nil_prefix
  | cons c cs => by_cases hc : c = '0' <;> simp [whole, hc, List.takeWhile_prefix]

def tail (cs : List Char) : List Char := fraction cs ++ exponent (cs.drop (fraction cs).length)

def decimal (cs : List Char) : List Char := whole cs ++ tail (cs.drop (whole cs).length)

theorem prefix_append_drop {xs ys : List Char} (hx : xs <+: cs) (hy : ys <+: cs.drop xs.length) :
    xs ++ ys <+: cs := by
  obtain ⟨rest, rfl⟩ := hx
  simpa using hy

theorem tail_isPrefix (cs : List Char) : tail cs <+: cs :=
  prefix_append_drop (fraction_isPrefix cs) (exponent_isPrefix _)

theorem decimal_isPrefix (cs : List Char) : decimal cs <+: cs :=
  prefix_append_drop (whole_isPrefix cs) (tail_isPrefix _)

theorem tail_append (h : Gap more) (cs : List Char) : tail (cs ++ more) = tail cs := by
  have hd := drop_append_of_isPrefix (fraction_isPrefix cs) more
  rw [tail, fraction_append h, hd, exponent_append h, ← tail]

theorem head?_fraction (h : (fraction cs).head? = some c) : c = '.' := by
  obtain absent | ⟨d, ds, -, -, present⟩ := fraction_cases cs
  · rw [absent] at h
    cases h
  · rw [present] at h
    exact (Option.some.inj h).symm

theorem head?_exponent (h : (exponent cs).head? = some c) : c = 'e' ∨ c = 'E' := by
  obtain absent | ⟨e, s, d, ds, -, he, -, -, present⟩ := exponent_cases cs
  · rw [absent] at h
    cases h
  · rw [present] at h
    rwa [← Option.some.inj h]

theorem head?_tail (h : (tail cs).head? = some c) : c = '.' ∨ c = 'e' ∨ c = 'E' := by
  rw [tail] at h
  cases hf : fraction cs with
  | nil => exact .inr (head?_exponent (by simpa [hf] using h))
  | cons d ds =>
    have hd : (fraction cs).head? = some c := by simpa [hf] using h
    exact .inl (head?_fraction hd)

theorem exponent_exponent (cs : List Char) : exponent (exponent cs) = exponent cs := by
  obtain h | ⟨e, s, d, ds, -, he, hs, hd, h⟩ := exponent_cases cs <;> rw [h]
  · rfl
  · rw [exponent_cons, if_pos ⟨he, hs, hd⟩, List.takeWhile_idem]

theorem fraction_fraction_append (hv : ∀ c, v.head? = some c → c = 'e' ∨ c = 'E') (cs : List Char) :
    fraction (fraction cs ++ v) = fraction cs := by
  have absent : fraction v = [] := by
    rcases v with _ | ⟨e, _ | ⟨d, ds⟩⟩
    · rfl
    · simp [fraction_of_short]
    · rcases hv e rfl with rfl | rfl <;> simp [fraction_cons]
  have stop : ∀ c, v.head? = some c → c.isDigit = false := by
    intro c hc
    rcases hv c hc with rfl | rfl <;> decide
  obtain h | ⟨d, ds, -, hd, h⟩ := fraction_cases cs <;> rw [h]
  · exact absent
  · simp [fraction_cons, hd, takeWhile_append_stop stop, List.takeWhile_idem]

theorem tail_tail (cs : List Char) : tail (tail cs) = tail cs := by
  have hf : fraction (tail cs) = fraction cs := fraction_fraction_append (fun _ => head?_exponent) cs
  rw [tail, hf]
  conv in (tail cs).drop _ => rw [tail, List.drop_left]
  rw [exponent_exponent, ← tail]

theorem whole_whole_append (hv : ∀ c, v.head? = some c → c.isDigit = false) (cs : List Char) :
    whole (whole (c :: cs) ++ v) = whole (c :: cs) := by
  by_cases hc : c = '0'
  · simp [whole, hc]
  · simp [whole, hc, takeWhile_append_stop hv, List.takeWhile_idem]

theorem tail_stops : ∀ c, (tail cs).head? = some c → c.isDigit = false := by
  intro c hc
  rcases head?_tail hc with rfl | rfl | rfl <;> decide

theorem whole_decimal (c : Char) (cs : List Char) : whole (decimal (c :: cs)) = whole (c :: cs) :=
  whole_whole_append tail_stops cs

theorem drop_decimal (cs : List Char) :
    (decimal cs).drop (whole cs).length = tail (cs.drop (whole cs).length) :=
  List.drop_left

theorem decimal_decimal (c : Char) (cs : List Char) :
    decimal (decimal (c :: cs)) = decimal (c :: cs) := by
  rw [decimal, whole_decimal, drop_decimal, tail_tail, ← decimal]

/-- Behind a leading zero no decimal number goes on with an x. -/
theorem hexadecimal_decimal (c : Char) (cs : List Char) : hexadecimal (decimal (c :: cs)) = [] := by
  rw [decimal]
  by_cases hc : c = '0'
  · subst hc
    have hw : whole ('0' :: cs) = ['0'] := rfl
    rw [hw]
    have head : ∀ c, (tail (('0' :: cs).drop ['0'].length)).head? = some c →
      c = '.' ∨ c = 'e' ∨ c = 'E' := fun _ => head?_tail
    generalize tail (('0' :: cs).drop ['0'].length) = t at head ⊢
    rcases t with _ | ⟨x, _ | ⟨d, ds⟩⟩
    · rfl
    · simp [hexadecimal_of_short]
    · rcases head x rfl with rfl | rfl | rfl <;> simp [hexadecimal_cons]
  · simp only [whole, hc, if_false, List.cons_append]
    rcases cs.takeWhile Char.isDigit ++ tail _ with _ | ⟨x, _ | ⟨d, ds⟩⟩
    · simp [hexadecimal_of_short]
    · simp [hexadecimal_of_short]
    · simp [hexadecimal_cons, hc]

theorem hexadecimal_hexadecimal (cs : List Char) :
    hexadecimal (hexadecimal cs) = hexadecimal cs := by
  obtain h | ⟨x, d, ds, -, hx, hd, h⟩ := hexadecimal_cases cs <;> rw [h]
  · rfl
  · rw [hexadecimal_cons, if_pos ⟨rfl, hx, hd⟩, List.takeWhile_idem]

end Number

theorem number_of_hexadecimal (h : Number.hexadecimal cs ≠ []) :
    number cs = verbatim .integer (Number.hexadecimal cs) := by
  unfold number
  split
  · next h' => exact absurd h' h
  · rfl

theorem number_of_decimal (h : Number.hexadecimal cs = []) :
    number cs = verbatim
      (if (Number.tail (cs.drop (Number.whole cs).length)).isEmpty then .integer else .floating)
      (Number.decimal cs) := by
  simp [number, h, Number.decimal, Number.tail]

theorem number_cases (cs : List Char) :
    number cs = verbatim .integer (Number.hexadecimal cs) ∨
      ∃ kind, (kind = .integer ∨ kind = .floating) ∧
        number cs = verbatim kind (Number.decimal cs) := by
  by_cases h : Number.hexadecimal cs = []
  · refine .inr ⟨_, ?_, number_of_decimal h⟩
    split
    · exact .inl rfl
    · exact .inr rfl
  · exact .inl (number_of_hexadecimal h)

theorem number_verbatim (cs : List Char) :
    number cs = verbatim (number cs).kind (number cs).text := by
  obtain h | ⟨kind, -, h⟩ := number_cases cs
  · rw [h]
    rfl
  · rw [h]
    rfl

theorem number_isPrefix (cs : List Char) : (number cs).text <+: cs := by
  obtain h | ⟨kind, -, h⟩ := number_cases cs <;> rw [h]
  · exact Number.hexadecimal_isPrefix cs
  · exact Number.decimal_isPrefix cs

theorem number_append (h : Gap more) (c : Char) (cs : List Char) :
    number (c :: cs ++ more) = number (c :: cs) := by
  have hx := Number.hexadecimal_append h (c :: cs)
  by_cases hn : Number.hexadecimal (c :: cs) = []
  · have hd := drop_append_of_isPrefix (Number.whole_isPrefix (c :: cs)) more
    rw [number_of_decimal (hx.trans hn), number_of_decimal hn, Number.decimal,
      Number.whole_append h, hd, Number.tail_append h, ← Number.decimal]
  · rw [number_of_hexadecimal (hx ▸ hn), number_of_hexadecimal hn, hx]

theorem number_number (c : Char) (cs : List Char) :
    number (number (c :: cs)).text = number (c :: cs) := by
  by_cases hn : Number.hexadecimal (c :: cs) = []
  · rw [number_of_decimal hn, verbatim, number_of_decimal (Number.hexadecimal_decimal c cs),
      Number.whole_decimal, Number.drop_decimal, Number.tail_tail, Number.decimal_decimal, verbatim]
  · have hx := Number.hexadecimal_hexadecimal (c :: cs)
    rw [number_of_hexadecimal hn, verbatim, number_of_hexadecimal (hx.symm ▸ hn), hx, verbatim]

end Offside.Lexeme
