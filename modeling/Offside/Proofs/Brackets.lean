import Offside.Interactive.Balance
import Offside.Proofs.Characters
import Offside.Proofs.Positions
import Offside.Proofs.Strings

/-! # Brackets

Whether the brackets of an entry are closed is asked of its characters, before it is read. The
answer is the one that its tokens give, but for one kind of text: a string whose line ends in a
backslash. The string ends with its line all the same, whereas the question goes on inside it. -/

namespace Offside

open Interactive (balancedFrom isBalanced)
open Lexeme (Front stringBody bracketKind?)

/-- Whether tokens of these kinds close the open brackets, innermost first. A closing bracket that
does not fit settles it: nothing that follows could mend that. -/
def bracketsClose (opened : List Bracket) : List TokenKind → Bool
  | [] => opened.isEmpty
  | .opening b :: kinds => bracketsClose (b :: opened) kinds
  | .closing b :: kinds =>
    match opened with
    | top :: around => if top = b then bracketsClose around kinds else true
    | [] => true
  | _ :: kinds => bracketsClose opened kinds

/-- No line breaks off a string behind an odd number of backslashes. -/
def EvenBreaks (text : List Char) (ds : List Diagnostic) : Prop :=
  ∀ d ∈ ds, d.problem = .unterminatedString → backslashesBefore text d.pos.offset % 2 = 0

instance (text : List Char) (ds : List Diagnostic) : Decidable (EvenBreaks text ds) :=
  List.decidableBAll _ ds

theorem bracketsClose_plain {k : TokenKind} (h : k.isPlain = true) (opened : List Bracket)
    (kinds : List TokenKind) : bracketsClose opened (k :: kinds) = bracketsClose opened kinds := by
  cases k <;> first | rfl | cases h

theorem bracketsClose_append {ks : List TokenKind} (h : ∀ k ∈ ks, k.isPlain = true)
    (opened : List Bracket) (kinds : List TokenKind) :
    bracketsClose opened (ks ++ kinds) = bracketsClose opened kinds := by
  induction ks with
  | nil => rfl
  | cons k ks ih =>
    rw [List.cons_append, bracketsClose_plain (h k List.mem_cons_self)]
    exact ih fun k' hk' => h k' (List.mem_cons_of_mem k hk')

def inString (escaped : Bool) : Interactive.Place := if escaped then .escape else .string

/-- As far as a string goes on, the question stays inside it. -/
theorem balancedFrom_inside {escaped : Bool} {body : List Char} (h : Lexeme.Inside escaped body)
    (opened : List Bracket) (rest : List Char) :
    balancedFrom opened (inString escaped) (body ++ rest) =
      balancedFrom opened (inString (escapedBehind escaped body)) rest := by
  induction h with
  | nil => rfl
  | @cons escaped c body hn hq _ ih =>
    refine Eq.trans ?_ ih
    cases escaped with
    | true => rfl
    | false =>
      have quote : c ≠ '"' := fun he => by simpa using hq he
      by_cases backslash : c = '\\'
      · subst backslash
        rfl
      · have resolved : (c == '\\') = false := beq_eq_false_iff_ne.2 backslash
        simp [inString, balancedFrom, backslash, resolved, quote, hn]

/-- The question leaves a string where reading does, unless a backslash is the last thing before
the end of the line. -/
theorem balancedFrom_string {cs : List Char} (opened : List Bracket)
    (h : (stringBody cs).ending = .newline →
      escapedBehind false (cs.take (stringBody cs).length) = false) :
    balancedFrom opened .string cs = balancedFrom opened .code
      (cs.drop ((stringBody cs).length + (stringBody cs).ending.mark?.toList.length)) := by
  obtain ⟨body, rest, ending, rfl, cut, read⟩ := Lexeme.stringBody_cut cs
  simp only [read, List.take_left] at h
  rw [read, ← List.drop_drop, List.drop_left]
  refine (balancedFrom_inside cut.inside opened rest).trans ?_
  have mark := cut.mark
  cases ending with
  | quote =>
    obtain ⟨rest, rfl⟩ := List.head?_eq_some_iff.1 mark
    rw [cut.resolved rfl]
    simp [inString, balancedFrom, Lexeme.StringEnd.mark?]
  | newline =>
    obtain ⟨rest, rfl⟩ := List.head?_eq_some_iff.1 mark
    rw [h rfl]
    simp [inString, balancedFrom, Lexeme.StringEnd.mark?]
  | endOfText =>
    obtain rfl := List.head?_eq_none_iff.1 mark
    simp [balancedFrom]

theorem balancedFrom_plain {w : List Char} (h : ∀ c ∈ w, c ≠ '"' ∧ bracketKind? c = none)
    (opened : List Bracket) (rest : List Char) :
    balancedFrom opened .code (w ++ rest) = balancedFrom opened .code rest := by
  induction w with
  | nil => rfl
  | cons c w ih =>
    obtain ⟨quote, bracket⟩ := h c List.mem_cons_self
    have later := ih fun c' hc' => h c' (List.mem_cons_of_mem c hc')
    simp [balancedFrom, quote, bracket, later]

theorem balancedFrom_spaces (n : Nat) (opened : List Bracket) (rest : List Char) :
    balancedFrom opened .code (List.replicate n ' ' ++ rest) = balancedFrom opened .code rest := by
  apply balancedFrom_plain
  intro c hc
  rw [List.eq_of_mem_replicate hc]
  decide

theorem balancedFrom_bracket {c : Char} {kind : TokenKind} (h : bracketKind? c = some kind)
    {kinds : List TokenKind} {rest : List Char}
    (later : ∀ opened, balancedFrom opened .code rest = bracketsClose opened kinds)
    (opened : List Bracket) :
    balancedFrom opened .code (c :: rest) = bracketsClose opened (kind :: kinds) := by
  have quote : c ≠ '"' := by
    rintro rfl
    cases h
  obtain ⟨b, rfl | rfl⟩ := Lexeme.kind_of_bracketKind? h
  · simp [balancedFrom, quote, h, bracketsClose, later]
  · cases opened with
    | nil => simp [balancedFrom, quote, h, bracketsClose]
    | cons top around => simp [balancedFrom, quote, h, bracketsClose, later]

/-- A lexeme has the effect of its kind. -/
theorem balancedFrom_lexeme {c : Char} {cs : List Char} {lexeme : Lexeme} (h : Front c cs lexeme)
    (hq : c = '"' → (stringBody cs).ending = .newline →
      escapedBehind false (cs.take (stringBody cs).length) = false)
    {kinds : List TokenKind}
    (later : ∀ opened, balancedFrom opened .code ((c :: cs).drop lexeme.extent) =
      bracketsClose opened kinds) (opened : List Bracket) :
    balancedFrom opened .code (c :: cs) = bracketsClose opened (lexeme.kind :: kinds) := by
  have plain (hk : lexeme.kind.isPlain = true) :
      balancedFrom opened .code (c :: cs) = bracketsClose opened (lexeme.kind :: kinds) := by
    have spelled : (c :: cs).take lexeme.extent = lexeme.text :=
      (Lexeme.covers_of_front h).2.eq_text hk
    have inner : ∀ x ∈ lexeme.text, x ≠ '"' ∧ bracketKind? x = none := fun x hx =>
      Lexeme.other_of_isInner (Lexeme.inner_of_front h hk x hx)
    calc balancedFrom opened .code (c :: cs)
      _ = balancedFrom opened .code (lexeme.text ++ (c :: cs).drop lexeme.extent) := by
        rw [← spelled, List.take_append_drop]
      _ = balancedFrom opened .code ((c :: cs).drop lexeme.extent) :=
        balancedFrom_plain inner opened _
      _ = bracketsClose opened kinds := later opened
      _ = bracketsClose opened (lexeme.kind :: kinds) := (bracketsClose_plain hk opened kinds).symm
  cases h with
  | number hd => exact plain (Lexeme.isPlain_number _)
  | word hw => exact plain (Lexeme.isPlain_word _)
  | operator ho => exact plain rfl
  | unit hk hu =>
    obtain ⟨n, rest, he, rfl⟩ := Lexeme.unitExtent?_eq_some_iff.1 hu
    obtain ⟨rfl, rfl⟩ := List.cons.inj he
    have behind : ('(' :: (List.replicate n ' ' ++ ')' :: rest)).drop (n + 2) = rest := by
      simp [List.drop_append]
    rw [behind] at later
    calc balancedFrom opened .code ('(' :: (List.replicate n ' ' ++ ')' :: rest))
      _ = balancedFrom (.paren :: opened) .code (List.replicate n ' ' ++ ')' :: rest) := rfl
      _ = balancedFrom (.paren :: opened) .code (')' :: rest) := balancedFrom_spaces n _ _
      _ = balancedFrom opened .code rest := rfl
      _ = bracketsClose opened kinds := later opened
  | bracket hk hu => exact balancedFrom_bracket hk later opened
  | string hs =>
    subst hs
    rw [Lexeme.stringLiteral_cons] at later ⊢
    have behind : ('"' :: cs).drop (1 + (stringBody cs).length +
        (stringBody cs).ending.mark?.toList.length) =
          cs.drop ((stringBody cs).length + (stringBody cs).ending.mark?.toList.length) := by
      rw [Nat.add_assoc, Nat.add_comm 1, List.drop_succ_cons]
    rw [behind] at later
    exact (balancedFrom_string opened (hq rfl)).trans (later opened)

namespace Lexer

variable {text : List Char} {start : Position}

/-- Where a string runs into the end of its line, any backslash there is itself escaped. -/
theorem resolved_of_flaw {l : Lexer} {lexeme : Lexeme} {cs : List Char}
    (hs : Stands text start l) (hr : l.cursor.rest = '"' :: cs)
    (hl : lexeme = Lexeme.stringLiteral ('"' :: cs)) (he : (stringBody cs).ending = .newline)
    (hd : EvenBreaks text (lexeme.diagnostics l.cursor)) :
    escapedBehind false (cs.take (stringBody cs).length) = false := by
  have unterminated : lexeme.flaw = some ⟨.unterminatedString, 1 + (stringBody cs).length⟩ := by
    rw [hl, Lexeme.stringLiteral_cons, he]
    rfl
  have inside : (stringBody cs).length ≤ cs.length := by
    obtain ⟨body, rest, ending, rfl, -, read⟩ := Lexeme.stringBody_cut cs
    rw [read, List.length_append]
    exact Nat.le_add_right _ _
  have even := hd ⟨.unterminatedString, (l.cursor.skip (1 + (stringBody cs).length)).pos⟩
    (by simp [Lexeme.diagnostics, unterminated]) rfl
  obtain ⟨-, -, -, taken⟩ := hs.advance (n := 1 + (stringBody cs).length) (by simp [hr]; omega)
  rw [hr, Nat.add_comm 1, List.take_succ_cons, Nat.add_comm _ 1] at taken
  rw [backslashesBefore_string taken] at even
  rw [escapedBehind_eq, even]
  rfl

theorem Move.balanced {l m : Lexer} {ts ds} (h : Move l ts ds m) (hs : Stands text start l)
    (hd : EvenBreaks text ds) {kinds : List TokenKind}
    (later : ∀ opened, balancedFrom opened .code m.cursor.rest = bracketsClose opened kinds)
    (opened : List Bracket) :
    balancedFrom opened .code l.cursor.rest =
      bracketsClose opened (ts.map Token.kind ++ kinds) := by
  have spaces : balancedFrom opened .code l.cursor.rest =
      balancedFrom opened .code l.cursor.eatSpaces.2.rest := by
    have split := List.takeWhile_append_dropWhile (p := (· == ' ')) (l := l.cursor.rest)
    rw [Lexeme.takeWhile_spaces] at split
    rw [Cursor.eatSpaces, Cursor.eatWhile_rest]
    conv => lhs; rw [← split]
    exact balancedFrom_spaces _ opened _
  have one {c : Char} (hp : l.cursor.peek = some c) (hc : c ≠ '"' ∧ bracketKind? c = none) :
      balancedFrom opened .code l.cursor.rest = balancedFrom opened .code l.cursor.next.rest := by
    obtain ⟨rest, hr⟩ := List.head?_eq_some_iff.1 hp
    rw [Cursor.next_rest, hr]
    exact balancedFrom_plain (w := [c]) (by simpa using hc) opened rest
  cases h with
  | space hf hp => exact (one hp (by decide)).trans (later opened)
  | newline hp => exact (one hp (by decide)).trans (later opened)
  | margin => exact spaces.trans (later opened)
  | line =>
    have plain : ∀ k ∈ (layoutTokens (l.blocks.measure l.cursor.eatSpaces.1).1
        l.cursor.eatSpaces.2.pos).map Token.kind, k.isPlain = true := by
      intro k hk
      obtain ⟨t, ht, rfl⟩ := List.mem_map.1 hk
      rcases mem_layoutTokens ht with rfl | rfl <;> rfl
    rw [bracketsClose_append plain]
    exact spaces.trans (later opened)
  | @lexeme c lexeme hf hp hb hn hr =>
    obtain ⟨cs, hc⟩ := List.head?_eq_some_iff.1 hp
    rw [hc] at hr
    simp only [Cursor.skip_rest, hc] at later
    rw [hc]
    refine balancedFrom_lexeme (Lexeme.read?_eq_some_iff.1 hr) (fun quote he => ?_) later opened
    subst quote
    exact resolved_of_flaw hs hc (Option.some.inj hr).symm he hd
  | stray hf hp hb hn hr =>
    obtain ⟨cs, hc⟩ := List.head?_eq_some_iff.1 hp
    rw [hc] at hr
    exact (one hp (Lexeme.other_of_read?_eq_none hr)).trans (later opened)

theorem Reads.balanced {l m : Lexer} {ts ds} (h : Reads l ts ds m) (hs : Stands text start l)
    (hd : EvenBreaks text ds) {kinds : List TokenKind}
    (later : ∀ opened, balancedFrom opened .code m.cursor.rest = bracketsClose opened kinds)
    (opened : List Bracket) :
    balancedFrom opened .code l.cursor.rest =
      bracketsClose opened (ts.map Token.kind ++ kinds) := by
  induction h generalizing opened with
  | refl => exact later opened
  | move h _ ih =>
    rw [List.map_append, List.append_assoc]
    refine h.balanced hs (fun d mem => hd d (List.mem_append_left _ mem)) (fun opened => ?_) opened
    exact ih (h.stands hs) (fun d mem => hd d (List.mem_append_right _ mem)) later opened

end Lexer

/-- The question is answered as the tokens answer it, unless a line breaks off a string behind a
backslash that would escape the end of the line. -/
theorem isBalanced_eq_bracketsClose (entry : String)
    (h : EvenBreaks entry.toList (tokenize entry).diagnostics) :
    isBalanced entry = bracketsClose [] ((tokenize entry).tokens.map Token.kind) := by
  rw [tokenize_eq] at h ⊢
  obtain ⟨reads, done⟩ := (Lexer.start (.ofList entry.toList)).reads_run
  have ended (opened : List Bracket) :
      balancedFrom opened .code (Lexer.start (.ofList entry.toList)).run.last.cursor.rest =
        bracketsClose opened [.eof] := by
    rw [done]
    rfl
  rw [List.map_append]
  exact reads.balanced (stands_start _) h ended []

/-- Brackets in strings do not count, nor in one that is broken off behind two backslashes. -/
theorem isBalanced_eq_bracketsClose_strings :
    EvenBreaks "f [ \"(\\\"]\" ( ) \"\\\\\n  ] \"\x7b".toList
        (tokenize "f [ \"(\\\"]\" ( ) \"\\\\\n  ] \"\x7b").diagnostics ∧
      isBalanced "f [ \"(\\\"]\" ( ) \"\\\\\n  ] \"\x7b" = bracketsClose []
        ((tokenize "f [ \"(\\\"]\" ( ) \"\\\\\n  ] \"\x7b").tokens.map Token.kind) := by
  have even : EvenBreaks "f [ \"(\\\"]\" ( ) \"\\\\\n  ] \"\x7b".toList
      (tokenize "f [ \"(\\\"]\" ( ) \"\\\\\n  ] \"\x7b").diagnostics := by
    decide +kernel
  exact ⟨even, isBalanced_eq_bracketsClose _ even⟩

/-- A backslash takes the end of the line with it for the question, and the line after it stays in
the string. For the lexer that line opens a bracket. -/
theorem isBalanced_ne_bracketsClose_escaped :
    ¬ ∀ entry, isBalanced entry = bracketsClose [] ((tokenize entry).tokens.map Token.kind) := by
  intro h
  exact absurd (h "\"\\\n(") (by decide +kernel)

end Offside
