import Mathlib.Data.List.Induction
import Offside.Lexeme.StringLiteral

/-! # Escapes

What the body of a string goes on over, what ends it, and what it means. Reading does not count
backslashes. It keeps one bit, whether a backslash waits for what it escapes, and that bit is the
parity of the backslashes at the end, since they escape each other in pairs. -/

namespace Offside

def escapedBehind (escaped : Bool) (body : List Char) : Bool :=
  body.foldl (fun escaped c => !escaped && c == '\\') escaped

/-- Backslashes escape each other in pairs. -/
theorem escapedBehind_eq (body : List Char) :
    escapedBehind false body = ((body.reverse.takeWhile (· == '\\')).length % 2 == 1) := by
  induction body using List.reverseRecOn with
  | nil => rfl
  | append_singleton body c ih =>
    have last : escapedBehind false (body ++ [c]) = (!escapedBehind false body && c == '\\') := by
      rw [escapedBehind, List.foldl_append]
      rfl
    rw [last, ih, List.reverse_append, List.reverse_singleton, List.singleton_append,
      List.takeWhile_cons]
    cases hc : c == '\\' with
    | true =>
      rw [if_pos rfl, List.length_cons, Bool.and_true]
      rcases Nat.mod_two_eq_zero_or_one (body.reverse.takeWhile (· == '\\')).length with h | h
      · simp [Nat.add_mod, h]
      · simp [Nat.add_mod, h]
    | false => simp

namespace Lexeme

def StringEnd.mark? : StringEnd → Option Char
  | quote => some '"'
  | newline => some '\n'
  | endOfText => none

def escapes : List (Char × Char) :=
  [('\n', 'n'), ('\r', 'r'), ('\t', 't'), ('\x0c', 'f'), ('\x08', 'b'), ('"', '"'), ('\\', '\\')]

/-- What the body of a string means. An escape stands for its character, and a backslash that
belongs to none for nothing. -/
def meaning : List Char → List Char
  | [] => []
  | [c] => if c = '\\' then [] else [c]
  | c :: name :: rest =>
    if c = '\\' then
      match escapes.find? fun e => e.2 == name with
      | some e => e.1 :: meaning rest
      | none => meaning (name :: rest)
    else c :: meaning (name :: rest)

/-- A string goes on over these characters; `escaped` tells that a backslash waits for the first. -/
inductive Inside : Bool → List Char → Prop where
  | nil (escaped) : Inside escaped []
  | cons {escaped c body} (hn : c ≠ '\n') (hq : c = '"' → escaped = true)
      (h : Inside (!escaped && c == '\\') body) : Inside escaped (c :: body)

structure Cut (escaped : Bool) (body rest : List Char) (ending : StringEnd) : Prop where
  inside : Inside escaped body
  mark : rest.head? = ending.mark?
  resolved : ending = .quote → escapedBehind escaped body = false

def waiting (escaped : Bool) (cs : List Char) : List Char := if escaped then '\\' :: cs else cs

variable {c : Char} {cs body rest before : List Char} {escaped : Bool} {ending : StringEnd}

theorem escape?_eq (name : Char) :
    escape? name = (escapes.find? fun e => e.2 == name).map Prod.fst := by
  simp only [escape?, escapes, List.find?_cons, List.find?_nil]
  grind

theorem meaning_cons (h : c ≠ '\\') (cs : List Char) : meaning (c :: cs) = c :: meaning cs := by
  cases cs with
  | nil => simp [meaning, h]
  | cons d cs => simp [meaning, h]

/-- Behind a backslash a character that names no escape stands for itself. -/
theorem meaning_backslash (c : Char) (cs : List Char) :
    meaning ('\\' :: c :: cs) = (escape? c).getD c :: meaning cs := by
  rw [meaning, if_pos rfl, escape?_eq]
  cases h : escapes.find? fun e => e.2 == c with
  | some e => rfl
  | none =>
    have plain : c ≠ '\\' := by
      rintro rfl
      cases h
    exact meaning_cons plain cs

theorem Inside.not_mem_newline (h : Inside escaped body) : '\n' ∉ body := by
  induction h with
  | nil => simp
  | cons hn _ _ ih => simp [ih, Ne.symm hn]

/-- A quotation mark inside a string is escaped. -/
theorem Inside.escaped_before_quote {p q : List Char} (h : Inside escaped (p ++ '"' :: q)) :
    escapedBehind escaped p = true := by
  induction p generalizing escaped with
  | nil =>
    cases h with
    | cons _ hq _ => exact hq rfl
  | cons c p ih =>
    cases h with
    | cons _ _ h => exact ih h

/-- A character that does not end the string is read over, and what it means is kept. -/
theorem readBody_cons (hn : c ≠ '\n') (hq : c = '"' → escaped = true) (meant : List Char)
    (length : ℕ) (cs : List Char) :
    ∃ meant', readBody meant length escaped (c :: cs) =
        readBody meant' (length + 1) (!escaped && c == '\\') cs ∧
      ∀ body, meant'.reverse ++ meaning (waiting (!escaped && c == '\\') body) =
        meant.reverse ++ meaning (waiting escaped (c :: body)) := by
  cases escaped with
  | true =>
    refine ⟨(escape? c).getD c :: meant, by simp [readBody, hn], fun body => ?_⟩
    simp [waiting, meaning_backslash]
  | false =>
    have plain : c ≠ '"' := fun he => by simpa using hq he
    by_cases backslash : c = '\\'
    · exact ⟨meant, by simp [readBody, backslash], fun body => by simp [waiting, backslash]⟩
    · have resolved : (c == '\\') = false := beq_eq_false_iff_ne.2 backslash
      refine ⟨c :: meant, by simp [readBody, hn, plain, backslash, resolved], fun body => ?_⟩
      simp [waiting, resolved, meaning_cons backslash]

theorem readBody_cut (escaped : Bool) (cs : List Char) :
    ∃ body rest ending, cs = body ++ rest ∧ Cut escaped body rest ending ∧
      ∀ meant length, readBody meant length escaped cs =
        ⟨meant.reverse ++ meaning (waiting escaped body), length + body.length, ending⟩ := by
  have nothing (escaped : Bool) : meaning (waiting escaped []) = [] := by cases escaped <;> rfl
  induction cs generalizing escaped with
  | nil => exact ⟨[], [], .endOfText, rfl, ⟨.nil _, rfl, nofun⟩, by simp [readBody, nothing]⟩
  | cons c cs ih =>
    by_cases newline : c = '\n'
    · subst newline
      exact ⟨[], '\n' :: cs, .newline, rfl, ⟨.nil _, rfl, nofun⟩, by simp [readBody, nothing]⟩
    · by_cases quote : c = '"' ∧ escaped = false
      · obtain ⟨rfl, rfl⟩ := quote
        exact ⟨[], '"' :: cs, .quote, rfl, ⟨.nil _, rfl, fun _ => rfl⟩, by simp [readBody, nothing]⟩
      · have goesOn : c = '"' → escaped = true := by simpa using quote
        obtain ⟨body, rest, ending, rfl, cut, read⟩ := ih (!escaped && c == '\\')
        refine ⟨c :: body, rest, ending, rfl, ⟨.cons newline goesOn cut.inside, cut.mark,
          cut.resolved⟩, ?_⟩
        intro meant length
        obtain ⟨meant', step, means⟩ := readBody_cons newline goesOn meant length (body ++ rest)
        rw [step, read, means, List.length_cons, Nat.add_assoc, Nat.add_comm 1]

/-- How far a string goes on, what ends it there, and what it means. -/
theorem stringBody_cut (cs : List Char) :
    ∃ body rest ending, cs = body ++ rest ∧ Cut false body rest ending ∧
      stringBody cs = ⟨meaning body, body.length, ending⟩ := by
  obtain ⟨body, rest, ending, split, cut, read⟩ := readBody_cut false cs
  refine ⟨body, rest, ending, split, cut, ?_⟩
  rw [stringBody, read, Nat.zero_add]
  rfl

theorem Cut.mark_isPrefix (cut : Cut escaped body rest ending) : ending.mark?.toList <+: rest := by
  rw [← cut.mark]
  cases rest with
  | nil => exact List.nil_prefix
  | cons c rest => exact ⟨rest, rfl⟩

theorem Cut.rest_eq_nil_iff (cut : Cut escaped body rest ending) :
    rest = [] ↔ ending = .endOfText := by
  rw [← List.head?_eq_none_iff, cut.mark]
  cases ending <;> simp [StringEnd.mark?]

end Lexeme

end Offside
