import Offside.Proofs.SelfDelimiting

/-! # Dumps

Tokens that are printed one to a line without colours, but with their positions, can be read back
from what is printed. A line begins with the kind, which has no space in it; the kind tells whether
a quoted text is next; and the numbers end with a colon and with the line. What a text looks like
does not matter, since it is quoted. Only the text of a synthetic token is not shown. -/

namespace Offside

open Text (SelfDelimiting quoted)

/-- A synthetic token has no text, as those of a reading have none. -/
def Token.Bare (t : Token) : Prop := t.isSynthetic = true → t.text = ""

instance (t : Token) : Decidable t.Bare := inferInstanceAs (Decidable (_ → _))

def Printer.dump : Printer := ⟨false, true⟩

namespace TokenKind

theorem label_injective : Function.Injective label := by
  have all_distinct : ∀ k ∈ all, ∀ l ∈ all, k.label = l.label → k = l := by decide +kernel
  intro k l h
  exact all_distinct k (mem_all k) l (mem_all l) h

theorem selfDelimiting_label : SelfDelimiting fun k : TokenKind => k.label.toList ++ [' '] := by
  have spaceless : ∀ k ∈ all, ' ' ∉ k.label.toList := by decide +kernel
  apply Text.selfDelimiting_stop
  · intro k l h
    exact label_injective (String.toList_inj.1 h)
  · intro k
    exact spaceless k (mem_all k)

end TokenKind

namespace Position

def dumped (pos : Position) : List Char :=
  "@ ".toList ++ ((toString pos.line).toList ++ ([':'] ++ ((toString pos.offset).toList ++ ['\n'])))

theorem selfDelimiting_dumped : SelfDelimiting dumped := by
  intro p q x y h
  have line : SelfDelimiting fun n : ℕ => (toString n).toList ++ [':'] :=
    Text.selfDelimiting_decimal (by decide)
  have offset : SelfDelimiting fun n : ℕ => (toString n).toList ++ ['\n'] :=
    Text.selfDelimiting_decimal (by decide)
  simp only [dumped, List.append_assoc, List.append_cancel_left_eq] at h
  obtain ⟨lines, h⟩ := line (by simpa only [List.append_assoc] using h)
  obtain ⟨offsets, h⟩ := offset (by simpa only [List.append_assoc] using h)
  exact ⟨congrArg₂ Position.mk lines offsets, h⟩

end Position

namespace Token

def dumpedText (t : Token) : List Char :=
  if t.isSynthetic then [] else quoted '"' t.text.toList ++ [' ']

theorem toList_dump (t : Token) : (Printer.dump.token t ++ "\n").toList =
    t.kind.label.toList ++ [' '] ++ (t.dumpedText ++ t.pos.dumped) := by
  have shown : Printer.dump.token t =
      t.display ++ (" " ++ ("@ " ++ toString t.pos.line ++ ":" ++ toString t.pos.offset)) := rfl
  rw [shown, display, dumpedText, Position.dumped]
  by_cases synthetic : t.isSynthetic = true
  · simp [synthetic, String.toList_append]
  · simp [synthetic, String.toList_append, Text.quotedString]

variable {t u : Token} {x y : List Char}

/-- The kind that a line begins with decides how the line goes on. -/
theorem dump_inj (ht : t.Bare) (hu : u.Bare)
    (h : (Printer.dump.token t ++ "\n").toList ++ x = (Printer.dump.token u ++ "\n").toList ++ y) :
    t = u ∧ x = y := by
  rw [toList_dump, toList_dump, List.append_assoc (_ ++ _), List.append_assoc (_ ++ _)] at h
  obtain ⟨kind, h⟩ := TokenKind.selfDelimiting_label h
  have same : t.isSynthetic = u.isSynthetic := congrArg TokenKind.isSynthetic kind
  obtain ⟨text, h⟩ : t.text = u.text ∧ t.pos.dumped ++ x = u.pos.dumped ++ y := by
    by_cases synthetic : t.isSynthetic = true
    · have synthetic' := same.symm.trans synthetic
      rw [dumpedText, dumpedText, if_pos synthetic, if_pos synthetic'] at h
      exact ⟨(ht synthetic).trans (hu synthetic').symm, h⟩
    · have real' : ¬ u.isSynthetic = true := same ▸ synthetic
      rw [dumpedText, dumpedText, if_neg synthetic, if_neg real'] at h
      simp only [List.append_assoc] at h
      obtain ⟨text, h⟩ := Text.selfDelimiting_quoted h
      exact ⟨String.toList_inj.1 text, List.append_cancel_left h⟩
  obtain ⟨pos, rest⟩ := Position.selfDelimiting_dumped h
  obtain ⟨_, _, _⟩ := t
  obtain ⟨_, _, _⟩ := u
  exact ⟨congr (congrArg₂ Token.mk kind text) pos, rest⟩

end Token

namespace Printer

theorem dump_cons (t : Token) (ts : List Token) :
    (dump.tokens (t :: ts)).toList = (dump.token t ++ "\n").toList ++ (dump.tokens ts).toList := by
  rw [tokens, List.map_cons, String.join_cons, String.toList_append]
  rfl

theorem dump_cons_ne_nil (t : Token) (ts : List Token) : (dump.tokens (t :: ts)).toList ≠ [] := by
  rw [dump_cons, Token.toList_dump]
  simp

end Printer

/-- Two dumps are the same only if the same tokens are printed. -/
theorem tokens_eq_tokens_iff {ts us : List Token} (hts : ∀ t ∈ ts, t.Bare)
    (hus : ∀ u ∈ us, u.Bare) :
    (Printer.mk false true).tokens ts = (Printer.mk false true).tokens us ↔ ts = us := by
  suffices read : ∀ us : List Token, (∀ u ∈ us, u.Bare) →
      (Printer.dump.tokens ts).toList = (Printer.dump.tokens us).toList → ts = us from
    ⟨fun h => read us hus (congrArg String.toList h), congrArg _⟩
  clear us hus
  induction ts with
  | nil =>
    intro us hus h
    cases us with
    | nil => rfl
    | cons u us => exact absurd h.symm (Printer.dump_cons_ne_nil u us)
  | cons t ts ih =>
    intro us hus h
    cases us with
    | nil => exact absurd h (Printer.dump_cons_ne_nil t ts)
    | cons u us =>
      obtain ⟨ht, hts⟩ := List.forall_mem_cons.1 hts
      obtain ⟨hu, hus⟩ := List.forall_mem_cons.1 hus
      rw [Printer.dump_cons, Printer.dump_cons] at h
      obtain ⟨same, later⟩ := Token.dump_inj ht hu h
      rw [same, ih hts us hus later]

/-- A text that looks like the end of its line and a line of its own is no such thing, and what
looks like an escape is none. -/
theorem tokens_ne_tokens_lookalike :
    let ts : List Token :=
      [⟨.string, "a\" @ 3:4\nString \"\\u\x7b1b\x7d", ⟨0, 1⟩⟩, .synthetic .eof ⟨1, 0⟩]
    let us : List Token :=
      [⟨.string, "a", ⟨3, 4⟩⟩, ⟨.string, "\x1b", ⟨0, 1⟩⟩, .synthetic .eof ⟨1, 0⟩]
    (∀ t ∈ ts, t.Bare) ∧ (∀ u ∈ us, u.Bare) ∧
      (Printer.mk false true).tokens ts ≠ (Printer.mk false true).tokens us := by
  intro ts us
  have hts : ∀ t ∈ ts, t.Bare := by decide
  have hus : ∀ u ∈ us, u.Bare := by decide
  have differ : ts ≠ us := by decide
  exact ⟨hts, hus, mt (tokens_eq_tokens_iff hts hus).1 differ⟩

end Offside
