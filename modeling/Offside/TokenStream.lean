import Offside.Lexer.Budget

/-! # Token streams

A token stream hands out the tokens of a lexer one at a time, ending with exactly one token for the
end of the text, and keeps the diagnostics met on the way. The tokens of one step can also be drawn
as a batch: a batch comes straight from the lexer, past any token of an earlier batch that is still
waiting, and the end of the text is in no batch. -/

namespace Offside

structure TokenStream where
  lexer : Lexer
  diagnostics : Array Diagnostic
  /-- Tokens of the last step that have not been handed out. -/
  waiting : List Token
  /-- Whether the end of the text has been handed out. -/
  finished : Bool

namespace TokenStream

def ofCursor (cursor : Cursor) : TokenStream := ⟨.start cursor, #[], [], false⟩

def ofString (source : String) : TokenStream := ofCursor (.ofList source.toList)

def startAt (source : String) (pos : Position) : Except StartPastEnd TokenStream :=
  (Cursor.startAt source.toList pos).map ofCursor

def pos (s : TokenStream) : Position := s.lexer.cursor.pos

def record (s : TokenStream) (diagnostics : List Diagnostic) (lexer : Lexer) : TokenStream :=
  { s with lexer, diagnostics := s.diagnostics ++ diagnostics }

/-- The tokens of the next step that finds any. -/
def nextBatch (s : TokenStream) : Option (List Token) × TokenStream :=
  match _h : s.lexer.step with
  | .exhausted lexer => (none, { s with lexer })
  | .found [] diagnostics lexer => nextBatch (s.record diagnostics lexer)
  | .found (t :: ts) diagnostics lexer => (some (t :: ts), s.record diagnostics lexer)
  termination_by s.lexer.budget
  decreasing_by exact (Lexer.step_spends ‹_›).1

def next? (s : TokenStream) : Option Token × TokenStream :=
  match s.waiting with
  | t :: ts => (some t, { s with waiting := ts })
  | [] =>
    if s.finished then (none, s)
    else
      match s.nextBatch with
      | (some (t :: ts), s) => (some t, { s with waiting := ts })
      | (some [], s) => (none, s)
      | (none, s) => (some (.synthetic .eof s.pos), { s with finished := true })

def budget (s : TokenStream) : Nat :=
  s.lexer.budget + s.waiting.length + if s.finished then 0 else 1

/-- A batch is paid for by the lexer alone. -/
theorem nextBatch_budget (s : TokenStream) :
    (s.nextBatch.1.getD []).length + s.nextBatch.2.lexer.budget ≤ s.lexer.budget ∧
      s.nextBatch.1 ≠ some [] ∧ s.nextBatch.2.waiting = s.waiting ∧
      s.nextBatch.2.finished = s.finished := by
  fun_induction nextBatch s with
  | case1 s lexer h => simpa using (Lexer.exhausted_budget h).1
  | case2 s diagnostics lexer h ih =>
    have := (Lexer.step_spends h).1
    simp only [record] at ih ⊢
    exact ⟨by omega, ih.2⟩
  | case3 s t ts diagnostics lexer h => simpa [record] using (Lexer.step_spends h).2

theorem next?_budget {s next : TokenStream} {t : Token} (h : s.next? = (some t, next)) :
    next.budget < s.budget := by
  have hb := nextBatch_budget s
  unfold next? at h
  split at h
  · next hw =>
    cases h
    simp only [budget, hw, List.length_cons]
    omega
  · next hw =>
    split at h
    · simp at h
    · next hf =>
      split at h
      · next u us s' hn =>
        cases h
        simp only [hn, Option.getD_some, List.length_cons] at hb
        simp only [budget, hb.2.2.2, hf, hw]
        simp
        omega
      · simp at h
      · next s' hn =>
        cases h
        simp only [hn, Option.getD_none, List.length_nil] at hb
        simp only [budget, hb.2.2.1, hf, hw]
        simp
        omega

theorem next?_none {s next : TokenStream} (h : s.next? = (none, next)) : next = s := by
  have hb := nextBatch_budget s
  unfold next? at h
  split at h
  · simp at h
  · split at h
    · cases h
      rfl
    · split at h
      · simp at h
      · next hn => exact absurd (by rw [hn]) hb.2.1
      · simp at h

/-- All tokens from here on, after those already read, which are in reverse. -/
def drainOnto (read : List Token) (s : TokenStream) : List Token × TokenStream :=
  match _h : s.next? with
  | (some t, next) => next.drainOnto (t :: read)
  | (none, next) => (read.reverse, next)
  termination_by s.budget
  decreasing_by exact next?_budget ‹_›

def tokens (s : TokenStream) : List Token × TokenStream := s.drainOnto []

def takeOnto (read : List Token) (s : TokenStream) : Nat → List Token × TokenStream
  | 0 => (read.reverse, s)
  | n + 1 =>
    match s.next? with
    | (some t, next) => next.takeOnto (t :: read) n
    | (none, next) => (read.reverse, next)

def take (s : TokenStream) (n : Nat) : List Token × TokenStream := s.takeOnto [] n

end TokenStream

end Offside
