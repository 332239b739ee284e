import Offside.Printer
import Offside.Proofs.Characters
import Offside.Proofs.Descent
import Offside.Proofs.Lines

/-! # Rendering

What is shown of a text stays on its line and leaves the terminal alone, whatever characters the
text holds. Most of what is shown is quoted. The text of an expression is not, unless it is a
string, and there it matters which characters a lexeme of each kind can have. -/

namespace Offside

open Lexeme (Front isInner)
open Text (isControl)

def Text.Clean (s : String) : Prop := ∀ c ∈ s.toList, isControl c = false

namespace Text

variable {s t : String}

instance : Decidable (Clean s) :=
  decidable_of_iff (s.toList.all fun c => !isControl c) (by simp [Clean])

theorem clean_empty : Clean "" := by decide

theorem Clean.append (hs : Clean s) (ht : Clean t) : Clean (s ++ t) := by
  intro c hc
  rw [String.toList_append, List.mem_append] at hc
  rcases hc with hc | hc
  · exact hs c hc
  · exact ht c hc

theorem Clean.not_mem (h : Clean s) {c : Char} (hc : isControl c = true) : c ∉ s.toList := by
  intro mem
  rw [h c mem] at hc
  cases hc

theorem isControl_of_ascii {c : Char} (low : 0x20 ≤ c.toNat) (high : c.toNat < 0x7f) :
    isControl c = false := by
  simp [isControl]
  omega

theorem isControl_of_isInner {c : Char} (h : isInner c = true) : isControl c = false :=
  isControl_of_ascii (Lexeme.ascii_of_isInner h).1.le (Lexeme.ascii_of_isInner h).2

theorem isInner_digitChar (n : Nat) : isInner n.digitChar = true := by
  have small : ∀ n < 16, isInner n.digitChar = true := by decide
  rcases Nat.lt_or_ge n 16 with h | h
  · exact small n h
  · rw [Nat.digitChar_eq_star.2 h]
    rfl

theorem inner_toDigits {base : Nat} (hb : 1 < base) (n : Nat) :
    ∀ c ∈ Nat.toDigits base n, isInner c = true := by
  induction n using Nat.strongRecOn with
  | ind n ih =>
    intro c hc
    rw [Nat.toDigits_eq_if hb] at hc
    split at hc
    · rw [List.mem_singleton.1 hc]
      exact isInner_digitChar n
    · rcases List.mem_append.1 hc with hc | hc
      · exact ih (n / base) (Nat.div_lt_self (by omega) hb) c hc
      · rw [List.mem_singleton.1 hc]
        exact isInner_digitChar _

theorem toList_toString (n : Nat) : (toString n).toList = Nat.toDigits 10 n := Nat.toList_repr

theorem clean_toString (n : Nat) : Clean (toString n) := by
  intro c hc
  rw [toList_toString] at hc
  exact isControl_of_isInner (inner_toDigits (by decide) n c hc)

theorem isControl_of_mem_pair {a b c : Char} (ha : isControl a = false) (hb : isControl b = false)
    (h : c ∈ [a, b]) : isControl c = false := by
  rcases List.mem_cons.1 h with rfl | h
  · exact ha
  · rw [List.mem_singleton.1 h]
    exact hb

theorem clean_escapeIn {mark : Char} (hm : isControl mark = false) (c : Char) :
    ∀ x ∈ escapeIn mark c, isControl x = false := by
  intro x hx
  unfold escapeIn at hx
  repeat' split at hx
  · exact isControl_of_mem_pair rfl rfl hx
  · exact isControl_of_mem_pair rfl rfl hx
  · exact isControl_of_mem_pair rfl rfl hx
  · exact isControl_of_mem_pair rfl rfl hx
  · exact isControl_of_mem_pair rfl rfl hx
  · exact isControl_of_mem_pair rfl hm hx
  · simp only [codePointEscape, List.mem_cons, List.mem_append, List.not_mem_nil, or_false] at hx
    rcases hx with rfl | rfl | rfl | hx | rfl
    · rfl
    · rfl
    · rfl
    · exact isControl_of_isInner (inner_toDigits (by decide) c.toNat x hx)
    · rfl
  · next shown =>
    rw [List.mem_singleton.1 hx]
    simp only [isHidden, Bool.or_eq_true, not_or, Bool.not_eq_true] at shown
    exact shown.1

theorem clean_quoted {mark : Char} (hm : isControl mark = false) (cs : List Char) :
    Clean (String.ofList (quoted mark cs)) := by
  intro x hx
  rw [String.toList_ofList, quoted, List.mem_cons, List.mem_append, List.mem_singleton] at hx
  rcases hx with rfl | hx | rfl
  · exact hm
  · obtain ⟨c, -, hx⟩ := List.mem_flatMap.1 hx
    exact clean_escapeIn hm c x hx
  · exact hm

theorem clean_quotedString (s : String) : Clean (quotedString s) :=
  clean_quoted (by decide) s.toList

theorem clean_quotedChar (c : Char) : Clean (quotedChar c) := clean_quoted (by decide) [c]

end Text

open Text (Clean toList_toString clean_toString clean_quotedString clean_quotedChar)

namespace Terminal

/-- The text without the control sequences that select styles: each of them goes from its two
opening characters to the next small letter m. -/
def unstyled : List Char → List Char
  | [] => []
  | c :: cs =>
    if c = '\x1b' ∧ cs.head? = some '[' ∧ 'm' ∈ cs then unstyled (cs.dropWhile (· ≠ 'm')).tail
    else c :: unstyled cs
  termination_by cs => cs.length
  decreasing_by
    · have := (List.dropWhile_suffix (l := cs) (· ≠ 'm')).length_le
      simp only [List.length_tail, List.length_cons]
      omega
    · simp

def Shows (styled plain : String) : Prop :=
  ∀ rest, unstyled (styled.toList ++ rest) = plain.toList ++ unstyled rest

variable {s s' t t' : String}

theorem Shows.append (h : Shows s t) (h' : Shows s' t') : Shows (s ++ s') (t ++ t') := by
  intro rest
  rw [String.toList_append, List.append_assoc, h, h', String.toList_append, List.append_assoc]

theorem Shows.unstyled_eq (h : Shows s t) : unstyled s.toList = t.toList := by
  have alone := h []
  rwa [List.append_nil, unstyled, List.append_nil] at alone

theorem shows_self (h : '\x1b' ∉ s.toList) : Shows s s := by
  intro rest
  generalize s.toList = cs at h ⊢
  induction cs with
  | nil => rfl
  | cons c cs ih =>
    have hc : c ≠ '\x1b' := fun he => h (he ▸ List.mem_cons_self)
    rw [List.cons_append, unstyled, if_neg fun opens => hc opens.1, List.cons_append,
      ih (List.not_mem_of_not_mem_cons h)]

theorem shows_join {ss ts : List String} (h : List.Forall₂ Shows ss ts) :
    Shows (String.join ss) (String.join ts) := by
  induction h with
  | nil => exact shows_self (by decide)
  | cons h _ ih =>
    rw [String.join_cons, String.join_cons]
    exact h.append ih

theorem not_mem_codes (codes : List Nat) :
    'm' ∉ (String.intercalate ";" (codes.map toString)).toList := by
  rw [String.toList_intercalate]
  induction codes with
  | nil => simp
  | cons n codes ih =>
    have digits : 'm' ∉ (toString n).toList := by
      intro mem
      rw [toList_toString] at mem
      exact absurd (Nat.isDigit_of_mem_toDigits (by decide) (by decide) mem) (by decide)
    cases codes with
    | nil => simpa using digits
    | cons k codes =>
      rw [List.map_cons, List.map_cons, List.map_cons, List.map_cons, List.intercalate_cons_cons]
      simp only [List.mem_append, not_or]
      exact ⟨⟨digits, by decide⟩, ih⟩

theorem shows_select (codes : List Nat) : Shows (select codes) "" := by
  intro rest
  have inside := not_mem_codes codes
  generalize hc : (String.intercalate ";" (codes.map toString)).toList = cs at inside
  have written : (select codes).toList ++ rest = '\x1b' :: ('[' :: cs ++ 'm' :: rest) := by
    simp [select, String.toList_append, hc]
  have skipped : ('[' :: cs ++ 'm' :: rest).dropWhile (· ≠ 'm') = 'm' :: rest := by
    rw [List.dropWhile_append_of_pos]
    · rfl
    · intro c mem
      rcases List.mem_cons.1 mem with rfl | mem
      · rfl
      · simpa using ne_of_mem_of_not_mem mem inside
  rw [written, unstyled, if_pos ⟨rfl, rfl, by simp⟩, skipped]
  rfl

theorem Style.shows_paint (style : Style) (h : '\x1b' ∉ s.toList) : Shows (style.paint s) s := by
  unfold Style.paint
  split
  · exact shows_self h
  · simpa using ((shows_select style.codes).append (shows_self h)).append (shows_select [0])

example : unstyled ("\x1b" ++ (Style.strong .red).paint "a[m" ++ "\x1b[1").toList =
    ("\x1b" ++ "a[m" ++ "\x1b[1").toList := by
  decide +kernel

end Terminal

theorem TokenKind.clean_label (k : TokenKind) : Clean k.label := by
  cases k with
  | opening b => cases b <;> decide
  | closing b => cases b <;> decide
  | keyword w => cases w <;> decide
  | _ => decide

theorem Token.clean_display (t : Token) : Clean t.display := by
  unfold Token.display
  split
  · exact t.kind.clean_label
  · exact (t.kind.clean_label.append (by decide)).append (clean_quotedString t.text)

theorem Expr.clean_display {e : Expr} (h : e.form ≠ .string → Clean e.token.text) :
    Clean e.display := by
  have other (name : String) (hn : Clean name) (he : e.form ≠ .string) :
      Clean (name ++ "(" ++ e.token.text ++ ")") :=
    ((hn.append (by decide)).append (h he)).append (by decide)
  unfold Expr.display
  cases hf : e.form with
  | string => exact (Clean.append (by decide) (clean_quotedString e.token.text)).append (by decide)
  | integer => exact other _ (by decide) (by simp [hf])
  | floating => exact other _ (by decide) (by simp [hf])
  | identifier => exact other _ (by decide) (by simp [hf])
  | unit => exact other _ (by decide) (by simp [hf])

theorem Problem.clean_message (p : Problem) : Clean p.message := by
  cases p with
  | unrecognizedCharacter c =>
    exact (Clean.append (by decide) (clean_quotedChar c)).append (by decide)
  | unterminatedString => decide
  | unterminatedStringAtEnd => decide
  | inconsistentDedent width landedOn =>
    exact (((Clean.append (by decide) (clean_toString width)).append (by decide)).append
      (clean_toString landedOn)).append (by decide)

theorem SyntaxError.clean_message (e : SyntaxError) : Clean e.message := by
  have place (pos : Position) : Clean (SyntaxError.place pos) :=
    ((Clean.append (by decide) (clean_toString pos.line)).append (by decide)).append
      (clean_toString pos.offset)
  cases e with
  | missingClosingParen pos => exact Clean.append (by decide) (place pos)
  | unexpectedToken t =>
    exact (((Clean.append (by decide) t.kind.clean_label).append (by decide)).append
      (clean_quotedString t.text)).append (place t.pos)
  | unexpectedEndOfInput pos => exact Clean.append (by decide) (place pos)

namespace Printer

open Terminal (Style Shows unstyled)

def plain (p : Printer) : Printer := { p with color := false }

structure Line (styled plain : String) : Prop where
  clean : Clean plain
  shows : Shows styled plain

variable {s t s' t' : String}

theorem Line.append (h : Line s t) (h' : Line s' t') : Line (s ++ s') (t ++ t') :=
  ⟨h.clean.append h'.clean, h.shows.append h'.shows⟩

theorem line_self (h : Clean s) : Line s s := ⟨h, Terminal.shows_self (h.not_mem rfl)⟩

theorem line_paint (p : Printer) (style : Style) (h : Clean s) :
    Line (p.paint style s) (p.plain.paint style s) := by
  refine ⟨h, ?_⟩
  have off : p.plain.paint style s = s := rfl
  rw [off, paint]
  split
  · exact style.shows_paint (h.not_mem rfl)
  · exact Terminal.shows_self (h.not_mem rfl)

theorem line_position (p : Printer) (pos : Position) :
    Line (p.position pos) (p.plain.position pos) := by
  have place : Clean s!"@ {pos.line}:{pos.offset}" :=
    ((Clean.append (by decide) (clean_toString pos.line)).append (by decide)).append
      (clean_toString pos.offset)
  obtain ⟨color, showPositions⟩ := p
  cases showPositions with
  | true => exact (line_self (by decide)).append (line_paint _ .faint place)
  | false => exact line_self Text.clean_empty

theorem line_token (p : Printer) (t : Token) : Line (p.token t) (p.plain.token t) :=
  (p.line_paint t.kind.style t.clean_display).append (p.line_position t.pos)

theorem line_expr (p : Printer) {e : Expr} (h : e.form ≠ .string → Clean e.token.text) :
    Line (p.expr e) (p.plain.expr e) :=
  (p.line_paint e.token.kind.style (Expr.clean_display h)).append (p.line_position e.token.pos)

theorem line_error (p : Printer) {message : String} (h : Clean message) :
    Line (p.error message) (p.plain.error message) :=
  ((p.line_paint (.strong .red) (by decide)).append (line_self (by decide))).append (line_self h)

theorem line_diagnostic (p : Printer) (d : Diagnostic) :
    Line (p.diagnostic d) (p.plain.diagnostic d) := by
  have place : Clean s!"(line {d.pos.line}, offset {d.pos.offset})" :=
    (((Clean.append (by decide) (clean_toString d.pos.line)).append (by decide)).append
      (clean_toString d.pos.offset)).append (by decide)
  exact ((p.line_error d.problem.clean_message).append (line_self (by decide))).append
    (p.line_paint .faint place)

theorem shows_tokens (p : Printer) (ts : List Token) : Shows (p.tokens ts) (p.plain.tokens ts) := by
  apply Terminal.shows_join
  induction ts with
  | nil => exact .nil
  | cons t ts ih =>
    exact .cons ((p.line_token t).shows.append (Terminal.shows_self (by decide))) ih

theorem lines_tokens (p : Printer) (ts : List Token) :
    linesOf (p.plain.tokens ts).toList = ts.map fun t => (p.plain.token t).toList ++ ['\n'] := by
  rw [tokens]
  induction ts with
  | nil => rfl
  | cons t ts ih =>
    have inside : '\n' ∉ (p.plain.token t).toList := (p.line_token t).clean.not_mem rfl
    have ended : "\n".toList = ['\n'] := rfl
    rw [List.map_cons, String.join_cons, String.toList_append, String.toList_append, ended,
      List.append_assoc, List.singleton_append, linesOf_append inside, ih, List.map_cons]

end Printer

theorem Lexeme.clean_of_front {c : Char} {cs : List Char} {l : Lexeme} (h : Front c cs l)
    (hk : l.kind ≠ .string) : Clean (String.ofList l.text) := by
  have quote : c ≠ '"' := by
    rintro rfl
    obtain rfl : stringLiteral ('"' :: cs) = l := Option.some.inj (read?_eq_some_iff.2 h)
    rw [stringLiteral_cons] at hk
    exact hk rfl
  intro x hx
  rw [String.toList_ofList] at hx
  obtain ⟨low, high⟩ := ascii_of_front h quote x ((covers_of_front h).2.text_subset hk hx)
  exact Text.isControl_of_ascii low high

theorem Lexer.Move.clean_text {l m : Lexer} {ts ds} (h : Move l ts ds m) {t : Token} (ht : t ∈ ts)
    (hk : t.kind ≠ .string) : Clean t.text := by
  cases h with
  | line =>
    rcases mem_layoutTokens ht with rfl | rfl
    · exact Text.clean_empty
    · exact Text.clean_empty
  | lexeme hs hp hb hn hr =>
    obtain ⟨c, cs, -, front⟩ := Lexeme.exists_front hr
    rw [List.mem_singleton.1 ht] at hk ⊢
    exact Lexeme.clean_of_front front hk
  | _ => simp at ht

theorem clean_text_of_tokenize {source : String} {t : Token} (ht : t ∈ (tokenize source).tokens)
    (hk : t.kind ≠ .string) : Clean t.text := by
  rw [tokenize_eq] at ht
  rcases List.mem_append.1 ht with ht | ht
  · obtain ⟨_, _, _, _, _, _, -, move, ht⟩ := (Lexer.reads_run _).1.exists_move ht
    exact move.clean_text ht hk
  · rw [List.mem_singleton.1 ht]
    exact Text.clean_empty

/-- A clean line without colours, and with them nothing more but what selects styles. -/
structure Printer.Safe (p : Printer) (render : Printer → String) : Prop where
  clean : Clean (render p.plain)
  unstyled : Terminal.unstyled (render p).toList = (render p.plain).toList

theorem Printer.Line.safe {p : Printer} {render : Printer → String}
    (h : Line (render p) (render p.plain)) : p.Safe render :=
  ⟨h.clean, h.shows.unstyled_eq⟩

/-- Each token is shown on a line of its own, whatever the source, and no source puts a control
character into what is shown of its tokens, its expression or its diagnostics. -/
theorem rendered_safe (source : String) (p : Printer) :
    linesOf (p.plain.tokens (tokenize source).tokens).toList =
        (tokenize source).tokens.map (fun t => (p.plain.token t).toList ++ ['\n']) ∧
      (∀ t ∈ (tokenize source).tokens, p.Safe (·.token t)) ∧
      Terminal.unstyled (p.tokens (tokenize source).tokens).toList =
        (p.plain.tokens (tokenize source).tokens).toList ∧
      (match parse source with
        | .ok e => p.Safe (·.expr e)
        | .error e => p.Safe (·.error e.message)) ∧
      ∀ d ∈ (tokenize source).diagnostics, p.Safe (·.diagnostic d) := by
  refine ⟨p.lines_tokens _, fun t _ => (p.line_token t).safe, (p.shows_tokens _).unstyled_eq, ?_,
    fun d _ => (p.line_diagnostic d).safe⟩
  split
  · next e he =>
    obtain ⟨mem, form⟩ := parse_ok he
    have clean : e.form ≠ .string → Clean e.token.text := by
      intro hf
      apply clean_text_of_tokenize mem
      intro hk
      rw [hk] at form
      exact hf (Option.some.inj form).symm
    exact (p.line_expr clean).safe
  · next e he => exact (p.line_error e.clean_message).safe

end Offside
