import Offside.Proofs.Sessions

/-! # Starting inside a text

What is read from a place on depends on the text behind that place, and on whether a line begins
there. All else about the text before it shows only as the number of its lines and characters, in
the positions. -/

namespace Offside

theorem Position.shift_comm (a b p : Position) : a.shift (b.shift p) = b.shift (a.shift p) := by
  simp only [shift, Position.mk.injEq]
  omega

theorem Lexed.shift_comm (a b : Position) (l : Lexed) :
    (l.shift a).shift b = (l.shift b).shift a := by
  simp only [Lexed.shift, List.map_map, Lexed.mk.injEq]
  constructor
  · apply List.map_congr_left
    intro t _
    exact congrArg (Token.mk t.kind t.text) (Position.shift_comm b a t.pos)
  · apply List.map_congr_left
    intro d _
    exact congrArg (Diagnostic.mk d.problem) (Position.shift_comm b a d.pos)

def BeginsLine (before : String) : Prop :=
  before.toList = [] ∨ before.toList.getLast? = some '\n'

instance (before : String) : Decidable (BeginsLine before) :=
  inferInstanceAs (Decidable (_ ∨ _))

namespace TokenStream

/-- The stream is the one at the front of `text` alone, moved to where it starts. -/
theorem startAt_behind (before text : String) (line : Nat) :
    startAt (before ++ text) ⟨line, before.length⟩ =
      .ok (ofCursor (Cursor.shift ⟨line, before.length⟩
        ⟨text.toList, .zero, decide (BeginsLine before)⟩)) := by
  rw [startAt, String.toList_append, ← String.length_toList, Cursor.startAt_behind]
  rfl

theorem startAt_error_iff (source : String) (start : Position) :
    (∃ e, startAt source start = .error e) ↔ source.length < start.offset := by
  rw [startAt, Cursor.startAt, String.length_toList]
  by_cases outside : source.length < start.offset
  · simp [outside, Except.map]
  · simp [outside, Except.map]

end TokenStream

/-- Two readings that start behind different texts, at lines numbered in different ways, differ by
what was before them; and reading can start at every place up to the end of the text. -/
theorem startAt_suffix (before before' text : String) (line line' : Nat) :
    ((BeginsLine before ↔ BeginsLine before') →
      ∃ s s', TokenStream.startAt (before ++ text) ⟨line, before.length⟩ = .ok s ∧
        TokenStream.startAt (before' ++ text) ⟨line', before'.length⟩ = .ok s' ∧
          s.lexed.shift ⟨line', before'.length⟩ = s'.lexed.shift ⟨line, before.length⟩) ∧
    ∀ source start, (∃ e, TokenStream.startAt source start = .error e) ↔
      source.length < start.offset := by
  constructor
  · intro same
    refine ⟨_, _, TokenStream.startAt_behind before text line,
      TokenStream.startAt_behind before' text line', ?_⟩
    rw [TokenStream.lexed_shift, TokenStream.lexed_shift, decide_eq_decide.2 same,
      Lexed.shift_comm]
  · exact TokenStream.startAt_error_iff

/-- In the middle of a line, whose spaces are no indent. -/
theorem startAt_suffix_within :
    (BeginsLine "\n  x" ↔ BeginsLine "(\"") ∧
      ∃ s s', TokenStream.startAt ("\n  x" ++ "  é\n \"b") ⟨7, 4⟩ = .ok s ∧
        TokenStream.startAt ("(\"" ++ "  é\n \"b") ⟨0, 2⟩ = .ok s' ∧
          s.lexed.shift ⟨0, 2⟩ = s'.lexed.shift ⟨7, 4⟩ := by
  have same : BeginsLine "\n  x" ↔ BeginsLine "(\"" := by decide
  exact ⟨same, (startAt_suffix "\n  x" "(\"" "  é\n \"b" 7 0).1 same⟩

end Offside
