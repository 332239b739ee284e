import Offside.Lexeme.Reading
import Offside.Proofs.Escapes
import Offside.Proofs.Numbers

/-! # Reading a lexeme

What `read?` finds is settled by the first character and by the line it stands in; what lies behind
the end of the line plays no part. The front of a text is described by cases, one for each way a
lexeme can begin, and the facts about lexemes are taken from the cases. -/

namespace Offside.Lexeme

variable {c : Char} {cs more : List Char} {l : Lexeme}

theorem word_isPrefix (cs : List Char) : (word cs).text <+: cs := by
  cases cs with
  | nil => exact List.nil_prefix
  | cons c cs => simp [word, verbatim, List.takeWhile_prefix]

theorem word_append (h : Gap more) (c : Char) (cs : List Char) :
    word (c :: cs ++ more) = word (c :: cs) := by
  have stop := takeWhile_append_stop fun c hc => (not_solid_stops (h c hc)).2.2.1
  simp [word, stop]

theorem word_word (c : Char) (cs : List Char) : word (word (c :: cs)).text = word (c :: cs) := by
  simp [word, verbatim, List.takeWhile_idem]

theorem operator_isPrefix (cs : List Char) : (operator cs).text <+: cs := List.takeWhile_prefix _

theorem operator_append (h : Gap more) (cs : List Char) : operator (cs ++ more) = operator cs := by
  have stop := takeWhile_append_stop fun c hc => (not_solid_stops (h c hc)).2.2.2
  simp [operator, stop]

theorem operator_operator (cs : List Char) : operator (operator cs).text = operator cs := by
  simp [operator, verbatim, List.takeWhile_idem]

theorem unitExtent?_eq_some_iff {extent : Nat} :
    unitExtent? cs = some extent ↔
      ∃ n rest, cs = '(' :: (List.replicate n ' ' ++ ')' :: rest) ∧ extent = n + 2 := by
  constructor
  · intro h
    unfold unitExtent? at h
    split at h
    · next rest =>
      simp only [Option.ite_none_right_eq_some, Option.some.injEq] at h
      obtain ⟨tail, ht⟩ := List.head?_eq_some_iff.1 h.1
      rw [drop_length_takeWhile] at ht
      exact ⟨_, tail, by rw [← takeWhile_spaces, ← ht, List.takeWhile_append_dropWhile], h.2.symm⟩
    · simp at h
  · rintro ⟨n, rest, rfl, rfl⟩
    have spaces : (List.replicate n ' ' ++ ')' :: rest).takeWhile (· == ' ') =
        List.replicate n ' ' := by
      rw [List.takeWhile_append_of_pos (by simp)]
      simp
    simp [unitExtent?, spaces]

theorem unitExtent?_append (h : LineEnd more) (c : Char) (cs : List Char) :
    unitExtent? (c :: cs ++ more) = unitExtent? (c :: cs) := by
  have stop : (cs ++ more).takeWhile (· == ' ') = cs.takeWhile (· == ' ') :=
    takeWhile_append_stop (fun c hc => by simp [h c hc]) cs
  have last : more.head? ≠ some ')' := fun hc => by simpa using h ')' hc
  by_cases hc : c = '('
  · subst hc
    have hle : (cs.takeWhile (· == ' ')).length ≤ cs.length := (List.takeWhile_prefix _).length_le
    simp only [unitExtent?, List.cons_append, stop, List.drop_append_of_le_length hle,
      List.head?_append]
    cases (cs.drop (cs.takeWhile (· == ' ')).length).head? <;> simp [last]
  · simp [unitExtent?, hc]

def StringEnd.flaw? (reached : Nat) : StringEnd → Option Flaw
  | quote => none
  | newline => some ⟨.unterminatedString, reached⟩
  | endOfText => some ⟨.unterminatedStringAtEnd, reached⟩

theorem stringLiteral_cons (c : Char) (cs : List Char) :
    let body := stringBody cs
    stringLiteral (c :: cs) = ⟨.string, body.text, 1 + body.length + body.ending.mark?.toList.length,
      body.ending.flaw? (1 + body.length)⟩ := by
  simp only [stringLiteral, List.drop_succ_cons, List.drop_zero, List.take_succ_cons,
    List.take_zero, List.length_singleton]
  cases (stringBody cs).ending <;> rfl

theorem readBody_line {w : List Char} (hw : '\n' ∉ w) (x y meant : List Char) (length : Nat)
    (escaped : Bool) :
    readBody meant length escaped (w ++ '\n' :: x) = readBody meant length escaped (w ++ '\n' :: y) := by
  induction w generalizing meant length escaped with
  | nil => simp [readBody]
  | cons c w ih =>
    have ih := fun m n e => ih (List.not_mem_of_not_mem_cons hw) m n e
    simp only [List.cons_append, readBody, ih]

inductive Front (c : Char) (cs : List Char) : Lexeme → Prop where
  | number (h : c.isDigit = true) : Front c cs (number (c :: cs))
  | word (h : isWordStart c = true) : Front c cs (word (c :: cs))
  | operator (h : isOperator c = true) : Front c cs (operator (c :: cs))
  | unit {kind extent} (hk : bracketKind? c = some kind)
      (hu : unitExtent? (c :: cs) = some extent) : Front c cs ⟨.unit, ['(', ')'], extent, none⟩
  | bracket {kind} (hk : bracketKind? c = some kind) (hu : unitExtent? (c :: cs) = none) :
      Front c cs (verbatim kind [c])
  | string (h : c = '"') : Front c cs (stringLiteral (c :: cs))

theorem isDigit_of_isWordStart (h : isWordStart c = true) : c.isDigit = false := by
  obtain h | rfl : c.isLower = true ∨ c = '_' := by simpa [isWordStart] using h
  · have letter : (decide ('a'.val ≤ c.val) && decide (c.val ≤ 'z'.val)) = true := h
    rw [Bool.eq_false_iff]
    intro hd
    have digit : (decide ('0'.val ≤ c.val) && decide (c.val ≤ '9'.val)) = true := hd
    grind
  · rfl

theorem other_of_isOperator (h : isOperator c = true) :
    c.isDigit = false ∧ isWordStart c = false := by
  have all : ∀ c ∈ operatorCharacters, c.isDigit = false ∧ isWordStart c = false := by
    simp [operatorCharacters, isWordStart]
  exact all c (by simpa [isOperator] using h)

def brackets : List Char := ['(', ')', '[', ']', '\x7b', '\x7d']

theorem mem_brackets {kind : TokenKind} (h : bracketKind? c = some kind) : c ∈ brackets := by
  unfold bracketKind? at h
  repeat' split at h
  all_goals simp_all [brackets]

theorem kind_of_bracketKind? {kind : TokenKind} (h : bracketKind? c = some kind) :
    ∃ b, kind = .opening b ∨ kind = .closing b := by
  unfold bracketKind? at h
  repeat' split at h
  all_goals cases h
  all_goals simp

theorem other_of_bracketKind? {kind : TokenKind} (h : bracketKind? c = some kind) :
    c.isDigit = false ∧ isWordStart c = false ∧ isOperator c = false := by
  have all : ∀ c ∈ brackets, c.isDigit = false ∧ isWordStart c = false ∧ isOperator c = false := by
    simp [brackets, isWordStart, isOperator, operatorCharacters]
  exact all c (mem_brackets h)

theorem read?_eq_some_iff : read? (c :: cs) = some l ↔ Front c cs l := by
  constructor
  · intro h
    simp only [read?] at h
    split at h
    · next hd => cases h; exact .number hd
    · split at h
      · next hw => cases h; exact .word hw
      · split at h
        · next ho => cases h; exact .operator ho
        · split at h
          · next hg =>
            obtain ⟨kind, hk⟩ := Option.isSome_iff_exists.1 hg
            simp only [grouping?, hk] at h
            split at h
            · next hu => cases h; exact .unit hk hu
            · next hu => cases h; exact .bracket hk hu
          · split at h
            · next hs => cases h; exact .string hs
            · simp at h
  · intro h
    cases h with
    | number hd => simp [read?, hd]
    | word hw => simp [read?, hw, isDigit_of_isWordStart hw]
    | operator ho => simp [read?, ho, other_of_isOperator ho]
    | unit hk hu => simp [read?, isGrouping, grouping?, hk, hu, other_of_bracketKind? hk]
    | bracket hk hu => simp [read?, isGrouping, grouping?, hk, hu, other_of_bracketKind? hk]
    | string hs =>
      subst hs
      rfl

theorem exists_front (h : read? cs = some l) : ∃ c rest, cs = c :: rest ∧ Front c rest l := by
  cases cs with
  | nil => cases h
  | cons c rest => exact ⟨c, rest, rfl, read?_eq_some_iff.1 h⟩

theorem read?_newline (cs : List Char) : read? ('\n' :: cs) = none := rfl

theorem read?_space (cs : List Char) : read? (' ' :: cs) = none := rfl

theorem solid_of_read? (h : read? (c :: cs) = some l) : isSolid c = true := by
  by_contra hn
  rcases eq_of_not_solid (by simpa using hn) with rfl | rfl
  · simp [read?_space] at h
  · simp [read?_newline] at h

theorem front_line {w x : List Char} (hw : '\n' ∉ w) (h : Front c (w ++ '\n' :: x) l)
    (y : List Char) : Front c (w ++ '\n' :: y) l := by
  have hx : LineEnd ('\n' :: x) := by simp [LineEnd]
  have hy : LineEnd ('\n' :: y) := by simp [LineEnd]
  cases h with
  | number hd =>
    have same : number (c :: (w ++ '\n' :: x)) = number (c :: (w ++ '\n' :: y)) :=
      (number_append hx.gap c w).trans (number_append hy.gap c w).symm
    rw [same]
    exact .number hd
  | word hs =>
    have same : word (c :: (w ++ '\n' :: x)) = word (c :: (w ++ '\n' :: y)) :=
      (word_append hx.gap c w).trans (word_append hy.gap c w).symm
    rw [same]
    exact .word hs
  | operator ho =>
    have same : operator (c :: (w ++ '\n' :: x)) = operator (c :: (w ++ '\n' :: y)) :=
      (operator_append hx.gap (c :: w)).trans (operator_append hy.gap (c :: w)).symm
    rw [same]
    exact .operator ho
  | unit hk hu =>
    exact .unit hk ((unitExtent?_append hy c w).trans ((unitExtent?_append hx c w).symm.trans hu))
  | bracket hk hu =>
    exact .bracket hk ((unitExtent?_append hy c w).trans ((unitExtent?_append hx c w).symm.trans hu))
  | string hs =>
    have same : stringLiteral (c :: (w ++ '\n' :: x)) = stringLiteral (c :: (w ++ '\n' :: y)) := by
      simp only [stringLiteral_cons, stringBody, readBody_line hw x y]
    rw [same]
    exact .string hs

/-- What is read does not depend on what lies behind the end of the line. -/
theorem read?_line {w : List Char} (hw : '\n' ∉ w) (x y : List Char) :
    read? (w ++ '\n' :: x) = read? (w ++ '\n' :: y) := by
  cases w with
  | nil => rw [List.nil_append, List.nil_append, read?_newline, read?_newline]
  | cons c w =>
    have hw := List.not_mem_of_not_mem_cons hw
    apply Option.ext
    intro l
    simp only [List.cons_append, read?_eq_some_iff]
    exact ⟨fun h => front_line hw h y, fun h => front_line hw h x⟩

theorem all_solid_of_append {f : List Char → Lexeme} (hp : ∀ cs, (f cs).text <+: cs)
    (ha : ∀ {more}, Gap more → ∀ c cs, f (c :: cs ++ more) = f (c :: cs))
    (hc : isSolid c = true) (cs : List Char) : ∀ x ∈ (f (c :: cs)).text, isSolid x = true := by
  have gap : Gap (cs.dropWhile isSolid) := by
    intro g hg
    simpa [hg] using List.head?_dropWhile_not isSolid cs
  have same := ha gap c (cs.takeWhile isSolid)
  rw [List.cons_append, List.takeWhile_append_dropWhile] at same
  intro x hx
  rw [same] at hx
  rcases List.mem_cons.1 ((hp _).subset hx) with rfl | hx
  · exact hc
  · exact List.mem_takeWhile_imp hx

theorem solid_of_number (hc : c.isDigit = true) (cs : List Char) :
    ∀ x ∈ (number (c :: cs)).text, isSolid x = true := by
  have solid := solid_of_read? (read?_eq_some_iff.2 (.number hc : Front c cs _))
  exact all_solid_of_append number_isPrefix number_append solid cs

/-- How the text of a token goes with the characters it was read from. A string ends on its line,
with the newline if need be; a unit value is written with any number of spaces; every other token
shows just what it was read from, without a space or a newline. -/
def Covers (kind : TokenKind) (text extent : List Char) : Prop :=
  match kind with
  | .string => ∃ body, extent = '"' :: body ∧ '\n' ∉ body.dropLast
  | .unit => text = ['(', ')'] ∧ ∃ n, extent = '(' :: (List.replicate n ' ' ++ [')'])
  | _ => extent = text ∧ ∀ c ∈ text, isSolid c = true

theorem covers_verbatim {kind : TokenKind} {text : List Char} (hs : kind ≠ .string)
    (hu : kind ≠ .unit) (hp : text <+: cs) (hsolid : ∀ c ∈ text, isSolid c = true) :
    (verbatim kind text).extent ≤ cs.length ∧
      Covers kind text (cs.take (verbatim kind text).extent) := by
  refine ⟨hp.length_le, ?_⟩
  have same : cs.take (verbatim kind text).extent = text := (List.prefix_iff_eq_take.1 hp).symm
  rw [same]
  cases kind <;> first | exact ⟨rfl, hsolid⟩ | contradiction

theorem wordKind_ne (text : List Char) : wordKind text ≠ .string ∧ wordKind text ≠ .unit := by
  unfold wordKind
  split <;> simp

theorem solid_of_isOperator (h : isOperator c = true) : isSolid c = true := by
  by_contra hn
  simp [(not_solid_stops (by simpa using hn)).2.2.2] at h

theorem covers_of_front (h : Front c cs l) :
    l.extent ≤ (c :: cs).length ∧ Covers l.kind l.text ((c :: cs).take l.extent) := by
  have solid := solid_of_read? (read?_eq_some_iff.2 h)
  cases h with
  | number hd =>
    have all := solid_of_number hd cs
    obtain hn | ⟨kind, hk, hn⟩ := number_cases (c :: cs) <;> rw [hn] at all ⊢
    · exact covers_verbatim (by simp) (by simp) (Number.hexadecimal_isPrefix _) all
    · exact covers_verbatim (by grind) (by grind) (Number.decimal_isPrefix _) all
  | word hw =>
    have all := all_solid_of_append word_isPrefix word_append solid cs
    have ne := wordKind_ne (c :: cs.takeWhile isWordContinue)
    exact covers_verbatim ne.1 ne.2 (word_isPrefix (c :: cs)) all
  | operator ho =>
    exact covers_verbatim (by simp) (by simp) (operator_isPrefix (c :: cs)) fun x hx =>
      solid_of_isOperator (List.mem_takeWhile_imp hx)
  | unit hk hu =>
    obtain ⟨n, rest, he, rfl⟩ := unitExtent?_eq_some_iff.1 hu
    rw [he]
    refine ⟨by simp, rfl, n, ?_⟩
    simp [List.take_append, List.take_of_length_le]
  | bracket hk hu =>
    obtain ⟨b, rfl | rfl⟩ := kind_of_bracketKind? hk
    · exact covers_verbatim (by simp) (by simp) (by simp) (by simpa using solid)
    · exact covers_verbatim (by simp) (by simp) (by simp) (by simpa using solid)
  | string hs =>
    subst hs
    obtain ⟨body, rest, ending, rfl, cut, read⟩ := stringBody_cut cs
    obtain ⟨rest, rfl⟩ := cut.mark_isPrefix
    have hb := cut.inside.not_mem_newline
    rw [stringLiteral_cons, read]
    simp only
    generalize ending.mark? = mark
    have taken : ('"' :: (body ++ (mark.toList ++ rest))).take (1 + body.length + mark.toList.length)
        = '"' :: (body ++ mark.toList) := by
      rw [← List.append_assoc, ← List.cons_append]
      exact List.take_left' (by simp; omega)
    refine ⟨by simp; omega, body ++ mark.toList, taken, fun hn => ?_⟩
    cases mark with
    | none => exact hb (List.dropLast_subset body (by simpa using hn))
    | some m => exact hb (by simpa using hn)

theorem covers_of_read? (h : read? cs = some l) :
    l.extent ≤ cs.length ∧ Covers l.kind l.text (cs.take l.extent) := by
  obtain ⟨c, rest, rfl, front⟩ := exists_front h
  exact covers_of_front front

/-- A lexeme with a newline in it ends with it. -/
theorem Covers.getLast? {kind : TokenKind} {text extent : List Char} (h : Covers kind text extent)
    (hn : '\n' ∈ extent) : extent.getLast? = some '\n' := by
  have solid (hs : ∀ c ∈ text, isSolid c = true) (he : extent = text) : False := by
    simpa [isSolid] using hs '\n' (he ▸ hn)
  cases kind with
  | string =>
    obtain ⟨body, rfl, hb⟩ := h
    have mem : '\n' ∈ body := by simpa using hn
    rcases List.eq_nil_or_concat body with rfl | ⟨front, last, rfl⟩
    · simp at mem
    · rw [List.concat_eq_append] at *
      rw [List.dropLast_concat] at hb
      have hl : last = '\n' := by simpa [hb, eq_comm] using mem
      rw [hl, ← List.cons_append, List.getLast?_concat]
  | unit =>
    obtain ⟨-, n, rfl⟩ := h
    simp [List.mem_replicate] at hn
  | _ => exact (solid h.2 h.1).elim

theorem isSynthetic_of_read? (h : read? cs = some l) : l.kind.isSynthetic = false := by
  obtain ⟨c, rest, rfl, front⟩ := exists_front h
  cases front with
  | number hd =>
    obtain hn | ⟨kind, rfl | rfl, hn⟩ := number_cases (c :: rest) <;> rw [hn] <;> rfl
  | word hw =>
    simp only [word, verbatim, wordKind]
    split <;> rfl
  | operator ho => rfl
  | unit hk hu => rfl
  | bracket hk hu =>
    obtain ⟨b, rfl | rfl⟩ := kind_of_bracketKind? hk <;> rfl
  | string hs => rw [stringLiteral_cons]; rfl

/-- A flaw shows behind the first character of its lexeme, and behind the last one only at the end
of the text. -/
theorem flaw_of_read? {f : Flaw} (h : read? cs = some l) (hf : l.flaw = some f) :
    0 < f.distance ∧ f.distance ≤ l.extent ∧ (f.distance = l.extent → cs.drop l.extent = []) ∧
      (f.problem = .unterminatedString ∨ f.problem = .unterminatedStringAtEnd) := by
  obtain ⟨c, rest, rfl, front⟩ := exists_front h
  cases front with
  | number hd =>
    obtain hn | ⟨kind, -, hn⟩ := number_cases (c :: rest) <;> simp [hn, verbatim] at hf
  | word hw => simp [word, verbatim] at hf
  | operator ho => simp [operator, verbatim] at hf
  | unit hk hu => simp at hf
  | bracket hk hu => simp [verbatim] at hf
  | string hs =>
    simp only [stringLiteral_cons] at hf ⊢
    cases he : (stringBody rest).ending with
    | quote => simp [he, StringEnd.flaw?] at hf
    | newline =>
      obtain rfl : _ = f := by simpa [he, StringEnd.flaw?] using hf
      exact ⟨Nat.add_pos_left Nat.one_pos _, by simp, by simp [StringEnd.mark?], .inl rfl⟩
    | endOfText =>
      obtain rfl : _ = f := by simpa [he, StringEnd.flaw?] using hf
      obtain ⟨body, more, ending, hcs, cut, read⟩ := stringBody_cut rest
      have covered : rest.length = (stringBody rest).length := by
        rw [read] at he ⊢
        rw [hcs, cut.rest_eq_nil_iff.2 he, List.append_nil]
      refine ⟨Nat.add_pos_left Nat.one_pos _, by simp, fun _ => ?_, .inr rfl⟩
      rw [List.drop_eq_nil_iff, List.length_cons, covered]
      omega

end Offside.Lexeme
