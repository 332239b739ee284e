import Mathlib.Order.Bounds.Basic
import Offside.Proofs.Moves

/-! # Strings

A string ends with its line or its text, unless a quotation mark ends it before: the first one with
an even number of backslashes right before it. -/

namespace Offside

def backslashesBefore (text : List Char) (offset : Nat) : Nat :=
  ((text.take offset).reverse.takeWhile (· == '\\')).length

/-- A place where a string whose opening mark is at `i` can end. Backslashes before `j` are counted
no further back than to that mark, which is none. -/
def EndsString (text : List Char) (i j : ℕ) : Prop :=
  i < j ∧ (j = text.length ∨ text[j]? = some '\n' ∨
    text[j]? = some '"' ∧ backslashesBefore text j % 2 = 0)

theorem backslashesBefore_string {text before body : List Char} {offset : Nat}
    (h : text.take offset = before ++ '"' :: body) :
    backslashesBefore text offset = (body.reverse.takeWhile (· == '\\')).length := by
  have stop : (body.reverse ++ '"' :: before.reverse).takeWhile (· == '\\') =
      body.reverse.takeWhile (· == '\\') :=
    Lexeme.takeWhile_append_stop (by simp) body.reverse
  rw [backslashesBefore, h, List.reverse_append, List.reverse_cons, List.append_assoc,
    List.singleton_append, stop]

namespace Lexeme

variable {c : Char} {cs body rest : List Char} {ending : StringEnd}

theorem exists_before {text : List Char} {offset : ℕ} (h : text.drop offset = c :: cs) :
    ∃ before, text = before ++ c :: cs ∧ offset = before.length := by
  refine ⟨text.take offset, by rw [← h, List.take_append_drop], ?_⟩
  have length := congrArg List.length h
  rw [List.length_drop, List.length_cons] at length
  rw [List.length_take]
  omega

theorem opened_split (before p q : List Char) :
    before ++ '"' :: (p ++ q) = (before ++ '"' :: p) ++ q ∧
      (before ++ '"' :: p).length = before.length + 1 + p.length := by
  refine ⟨by simp, ?_⟩
  rw [List.length_append, List.length_cons]
  omega

theorem take_opened (before p q : List Char) :
    (before ++ '"' :: (p ++ q)).take (before.length + 1 + p.length) = before ++ '"' :: p := by
  obtain ⟨split, length⟩ := opened_split before p q
  rw [split, ← length, List.take_left]

theorem drop_opened (before p q : List Char) :
    (before ++ '"' :: (p ++ q)).drop (before.length + 1 + p.length) = q := by
  obtain ⟨split, length⟩ := opened_split before p q
  rw [split, ← length, List.drop_left]

theorem getElem?_opened (before p q : List Char) :
    (before ++ '"' :: (p ++ q))[before.length + 1 + p.length]? = q.head? := by
  rw [← List.head?_drop, drop_opened]

/-- Where a string stops going on is the first place where it can end. -/
theorem Cut.isLeast (cut : Cut false body rest ending) (before : List Char) :
    IsLeast {j | EndsString (before ++ '"' :: (body ++ rest)) before.length j}
      (before.length + 1 + body.length) := by
  constructor
  · have here := (getElem?_opened before body rest).trans cut.mark
    refine ⟨by omega, ?_⟩
    cases ending with
    | quote =>
      have even : escapedBehind false body = false := cut.resolved rfl
      rw [escapedBehind_eq, beq_eq_false_iff_ne] at even
      refine .inr (.inr ⟨here, ?_⟩)
      rw [backslashesBefore_string (take_opened before body rest)]
      omega
    | newline => exact .inr (.inl here)
    | endOfText =>
      obtain rfl := List.head?_eq_none_iff.1 cut.mark
      rw [List.append_nil, (opened_split before body []).2]
      exact .inl rfl
  · rintro k ⟨behind, ends⟩
    by_contra early
    -- The string goes on over what stands at the place.
    obtain ⟨p, c, q, rfl, rfl⟩ : ∃ p c q, body = p ++ c :: q ∧ k = before.length + 1 + p.length := by
      have inside : k - (before.length + 1) < body.length := by omega
      refine ⟨body.take (k - (before.length + 1)), body[k - (before.length + 1)],
        body.drop (k - (before.length + 1) + 1), ?_, ?_⟩
      · rw [← List.drop_eq_getElem_cons, List.take_append_drop]
      · rw [List.length_take]
        omega
    have here := getElem?_opened before p (c :: q ++ rest)
    have read := take_opened before p (c :: q ++ rest)
    rw [← List.append_assoc] at here read
    rcases ends with ended | newline | ⟨quote, even⟩
    · rw [List.getElem?_eq_none ended.ge] at here
      cases here
    · obtain rfl : c = '\n' := Option.some.inj (here.symm.trans newline)
      exact cut.inside.not_mem_newline (by simp)
    · obtain rfl : c = '"' := Option.some.inj (here.symm.trans quote)
      have odd := cut.inside.escaped_before_quote
      rw [escapedBehind_eq, beq_iff_eq] at odd
      rw [backslashesBefore_string read] at even
      omega

def StringEnd.problem? : StringEnd → Option Problem
  | quote => none
  | newline => some .unterminatedString
  | endOfText => some .unterminatedStringAtEnd

end Lexeme

open Lexeme (meaning)

theorem Cursor.take_string {c : Cursor} {cs : List Char} (hc : c.rest = '"' :: cs) :
    ∃ body rest ending, cs = body ++ rest ∧ Lexeme.Cut false body rest ending ∧
      c.take (Lexeme.stringLiteral c.rest) = (⟨.string, String.ofList (meaning body), c.pos⟩,
        ending.problem?.toList.map fun problem =>
          ⟨problem, ⟨c.pos.line, c.pos.offset + 1 + body.length⟩⟩,
        c.skip (1 + body.length + ending.mark?.toList.length)) := by
  obtain ⟨body, rest, ending, rfl, cut, read⟩ := Lexeme.stringBody_cut cs
  refine ⟨body, rest, ending, rfl, cut, ?_⟩
  have reached : c.skip (1 + body.length) =
      ⟨rest, ⟨c.pos.line, c.pos.offset + 1 + body.length⟩, c.atLineStart⟩ := by
    have line : '\n' ∉ c.rest.take (1 + body.length) := by
      simp [hc, Nat.add_comm 1, cut.inside.not_mem_newline]
    rw [Cursor.skip_line (by simp [hc]; omega) line, Nat.add_assoc]
    simp [hc, Nat.add_comm 1]
  rw [hc, Lexeme.stringLiteral_cons, read, Cursor.take, Lexeme.diagnostics]
  cases ending <;> simp [Lexeme.StringEnd.flaw?, Lexeme.StringEnd.problem?, Lexeme.token, reached]

/-- From an opening mark on, what is taken goes to the first place where the string can end, and with
it the mark or the newline that stands there. The token holds what the characters in between mean. A
string that its line or the text breaks off is reported there, on the line where it began. -/
theorem string_taken (text : List Char) (c : Cursor) (hr : c.rest = text.drop c.pos.offset)
    (hq : c.peek = some '"') :
    let i := c.pos.offset
    let scanned := c.take (Lexeme.stringLiteral c.rest)
    ∃ j, IsLeast {j | EndsString text i j} j ∧
      scanned.1 = ⟨.string, String.ofList (meaning ((text.take j).drop (i + 1))), c.pos⟩ ∧
      (text[j]? = some '"' → scanned.2.1 = []) ∧
      (text[j]? = some '\n' → scanned.2.1 = [⟨.unterminatedString, ⟨c.pos.line, j⟩⟩]) ∧
      (j = text.length → scanned.2.1 = [⟨.unterminatedStringAtEnd, ⟨c.pos.line, j⟩⟩]) ∧
      scanned.2.2.pos.offset = (if j = text.length then j else j + 1) ∧
      scanned.2.2.rest = text.drop scanned.2.2.pos.offset := by
  obtain ⟨cs, hc⟩ : ∃ cs, c.rest = '"' :: cs := List.head?_eq_some_iff.1 hq
  obtain ⟨body, rest, ending, rfl, cut, taken⟩ := Cursor.take_string hc
  obtain ⟨before, rfl, offset⟩ := Lexeme.exists_before (hr.symm.trans hc)
  have least := cut.isLeast before
  have here := (Lexeme.getElem?_opened before body rest).trans cut.mark
  have within := Lexeme.take_opened before body rest
  have inside : 1 + body.length + ending.mark?.toList.length ≤ c.rest.length := by
    have := cut.mark_isPrefix.length_le
    rw [hc, List.length_cons, List.length_append]
    omega
  have ended : c.pos.offset + 1 + body.length = (before ++ '"' :: (body ++ rest)).length ↔
      ending = .endOfText := by
    rw [← cut.rest_eq_nil_iff, ← List.length_eq_zero_iff, offset, List.length_append,
      List.length_cons, List.length_append]
    omega
  rw [← offset] at least here within
  intro i scanned
  refine ⟨c.pos.offset + 1 + body.length, least, ?_⟩
  simp only [scanned, taken, within, i, ended]
  refine ⟨?_, ?_, ?_, ?_, ?_, ?_⟩
  · simp [offset]
  · intro quote
    cases ending <;> first | rfl | cases here.symm.trans quote
  · intro newline
    cases ending <;> first | rfl | cases here.symm.trans newline
  · rintro rfl
    rfl
  · rw [Cursor.skip_offset inside]
    cases ending <;> simp [Lexeme.StringEnd.mark?] <;> omega
  · rw [Cursor.skip_offset inside, Cursor.skip_rest, hr, List.drop_drop]

/-- Of two quotation marks and a newline behind backslashes only the newline ends this string. -/
theorem string_taken_newline :
    let text := "x \"a\\\\\\\"b\\q\\\ny\"".toList
    let c : Cursor := ⟨text.drop 2, ⟨4, 2⟩, false⟩
    let scanned := c.take (Lexeme.stringLiteral c.rest)
    c.rest = text.drop c.pos.offset ∧ c.peek = some '"' ∧ IsLeast {j | EndsString text 2 j} 12 ∧
      scanned.1.text = "a\\\"bq" ∧ scanned.2.1 = [⟨.unterminatedString, ⟨4, 12⟩⟩] := by
  intro text c scanned
  obtain ⟨j, least, token, -, newline, -, offset, -⟩ := string_taken text c rfl rfl
  have reached : scanned.2.2.pos.offset = 13 := by decide
  rw [reached] at offset
  obtain rfl : j = 12 := by
    have length : text.length = 15 := by decide
    split at offset <;> omega
  exact ⟨rfl, rfl, least, congrArg Token.text token, newline (by decide)⟩

end Offside
