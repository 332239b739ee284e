import Offside.Proofs.Positions

/-! # Operations of a cursor

A cursor can be asked for characters, for runs of them, for lexemes of a kind whether or not one
begins there, and to go back to where it has been. Whatever it is asked for, in whatever order, it
stays in its text and on its line: going back aside, every operation comes to skipping some of the
characters that are left. -/

namespace Offside

namespace Lexeme

inductive Scan where
  | number
  | word
  | operator
  | grouping
  | string

/-- What is found at the front of a text that may begin with something else. -/
def Scan.read? : Scan → List Char → Option Lexeme
  | number, cs => some (Lexeme.number cs)
  | word, cs => some (Lexeme.word cs)
  | operator, cs => some (Lexeme.operator cs)
  | grouping, cs => grouping? cs
  | string, cs => some (stringLiteral cs)

structure Fits (l : Lexeme) (cs : List Char) : Prop where
  extent_le : l.extent ≤ cs.length
  flaw_le : ∀ f, l.flaw = some f → f.distance ≤ l.extent

variable {cs : List Char} {l : Lexeme}

theorem fits_verbatim {kind : TokenKind} {text : List Char} (h : text <+: cs) :
    (verbatim kind text).Fits cs where
  extent_le := h.length_le
  flaw_le := by simp [verbatim]

theorem fits_number (cs : List Char) : (number cs).Fits cs := by
  obtain h | ⟨kind, -, h⟩ := number_cases cs <;> rw [h]
  · exact fits_verbatim (Number.hexadecimal_isPrefix cs)
  · exact fits_verbatim (Number.decimal_isPrefix cs)

theorem fits_word (cs : List Char) : (word cs).Fits cs := by
  cases cs with
  | nil => exact fits_verbatim List.nil_prefix
  | cons c cs => exact fits_verbatim (word_isPrefix (c :: cs))

theorem fits_operator (cs : List Char) : (operator cs).Fits cs :=
  fits_verbatim (operator_isPrefix cs)

theorem fits_grouping (h : grouping? cs = some l) : l.Fits cs := by
  cases cs with
  | nil => cases h
  | cons c rest =>
    simp only [grouping?] at h
    split at h
    · cases h
    · split at h
      · next extent hu =>
        obtain ⟨n, more, he, rfl⟩ := unitExtent?_eq_some_iff.1 hu
        cases h
        rw [he]
        exact ⟨by simp, by simp⟩
      · cases h
        exact fits_verbatim (by simp)

/-- A string may begin with any character, or with none. -/
theorem fits_stringLiteral (cs : List Char) : (stringLiteral cs).Fits cs := by
  cases cs with
  | nil => exact ⟨Nat.le_refl 0, by simp [stringLiteral, stringBody, readBody]⟩
  | cons c cs =>
    obtain ⟨body, rest, ending, rfl, cut, read⟩ := stringBody_cut cs
    have marked := cut.mark_isPrefix.length_le
    rw [stringLiteral_cons, read]
    constructor
    · simp only [List.length_cons, List.length_append]
      omega
    · intro f hf
      cases ending <;> simp [StringEnd.flaw?] at hf <;> simp [← hf]

theorem Scan.fits {s : Scan} (h : s.read? cs = some l) : l.Fits cs := by
  cases s with
  | number => cases h; exact fits_number cs
  | word => cases h; exact fits_word cs
  | operator => cases h; exact fits_operator cs
  | grouping => exact fits_grouping h
  | string => cases h; exact fits_stringLiteral cs

end Lexeme

namespace Cursor

open Lexeme (Scan)

inductive Operation where
  | peekNth (k : ℕ)
  | advance
  | advanceIf (p : Char → Bool)
  | eatSpaces
  | eatNewlines
  | leaveLineStart
  | checkpoint
  | rewind (k : Checkpoint)
  | scan (s : Scan)

inductive Answer where
  | done
  | char (c : Option Char)
  | count (n : ℕ)
  | checkpoint (k : Checkpoint)
  | token (t : Option Token) (reports : List Diagnostic)

def scan (c : Cursor) (s : Scan) : Answer × Cursor :=
  match s.read? c.rest with
  | none => (.token none [], c)
  | some l =>
    let (t, reports, next) := c.take l
    (.token (some t) reports, next)

structure InUse where
  cursor : Cursor
  taken : List Checkpoint

namespace InUse

def withCursor (u : InUse) (c : Cursor) : InUse := { u with cursor := c }

def perform (u : InUse) : Operation → Answer × InUse
  | .peekNth k => (.char (u.cursor.peekNth k), u)
  | .advance => (.char u.cursor.advance.1, u.withCursor u.cursor.advance.2)
  | .advanceIf p => (.char (u.cursor.advanceIf p).1, u.withCursor (u.cursor.advanceIf p).2)
  | .eatSpaces => (.count u.cursor.eatSpaces.1, u.withCursor u.cursor.eatSpaces.2)
  | .eatNewlines => (.count u.cursor.eatNewlines.1, u.withCursor u.cursor.eatNewlines.2)
  | .leaveLineStart => (.done, u.withCursor u.cursor.leaveLineStart)
  | .checkpoint => (.checkpoint u.cursor.checkpoint, { u with taken := u.cursor.checkpoint :: u.taken })
  | .rewind k => (.done, u.withCursor (u.cursor.rewind k))
  | .scan s => ((u.cursor.scan s).1, u.withCursor (u.cursor.scan s).2)

/-- Characters to come are counted from one, a checkpoint must have been taken before, and only a
digit or the end of the text may be taken for a number. -/
def Allows (u : InUse) : Operation → Prop
  | .peekNth k => 0 < k
  | .rewind k => k ∈ u.taken
  | .scan .number => u.cursor.peek.all Char.isDigit = true
  | _ => True

/-- What a sequence of operations leads to, each one allowed where it is performed. -/
inductive Leads : InUse → List Operation → InUse → Prop where
  | refl (u) : Leads u [] u
  | perform {u v op ops} (allowed : u.Allows op) (later : Leads (u.perform op).2 ops v) :
      Leads u (op :: ops) v

def Placed (text : List Char) (start : Position) (u : InUse) : Prop :=
  ∀ k ∈ u.cursor.checkpoint :: u.taken, k.Placed text start

variable {text : List Char} {start : Position} {u v : InUse} {op : Operation}

/-- Whatever does not go back skips some of the characters that are left, perhaps none. -/
theorem perform_skips (u : InUse) (h : ∀ k, op ≠ .rewind k) :
    ∃ n ≤ u.cursor.rest.length,
      (u.perform op).2.cursor.checkpoint = (u.cursor.skip n).checkpoint := by
  have still : ∃ n ≤ u.cursor.rest.length,
      u.cursor.checkpoint = (u.cursor.skip n).checkpoint := ⟨0, Nat.zero_le _, rfl⟩
  have run (p : Char → Bool) : ∃ n ≤ u.cursor.rest.length,
      (u.cursor.eatWhile p).2.checkpoint = (u.cursor.skip n).checkpoint :=
    ⟨_, (List.takeWhile_prefix p).length_le, rfl⟩
  have one : ∃ n ≤ u.cursor.rest.length,
      u.cursor.next.checkpoint = (u.cursor.skip n).checkpoint := by
    cases hr : u.cursor.rest with
    | nil => exact ⟨0, Nat.zero_le _, by rw [Cursor.next, hr]; rfl⟩
    | cons ch rest => exact ⟨1, by simp, rfl⟩
  cases op with
  | peekNth => exact still
  | advance => exact one
  | advanceIf p =>
    simp only [perform, advanceIf]
    split
    · exact one
    · exact still
  | eatSpaces => exact run _
  | eatNewlines => exact run _
  | leaveLineStart => exact still
  | checkpoint => exact still
  | rewind k => exact absurd rfl (h k)
  | scan s =>
    simp only [perform, scan]
    split
    · exact still
    · next l hl => exact ⟨l.extent, (Scan.fits hl).extent_le, rfl⟩

theorem mem_taken_perform {k : Checkpoint} (h : k ∈ (u.perform op).2.taken) :
    k ∈ u.cursor.checkpoint :: u.taken := by
  cases op with
  | checkpoint => exact h
  | _ => exact List.mem_cons_of_mem _ h

theorem Placed.perform (h : u.Placed text start) (allowed : u.Allows op) :
    (u.perform op).2.Placed text start := by
  have here := h _ List.mem_cons_self
  -- Where the cursor goes is the only question: every checkpoint is one from before.
  have placed (reached : (u.perform op).2.cursor.checkpoint.Placed text start) :
      (u.perform op).2.Placed text start := by
    intro k hk
    rcases List.mem_cons.1 hk with rfl | hk
    · exact reached
    · exact h k (mem_taken_perform hk)
  by_cases back : ∃ k, op = .rewind k
  · obtain ⟨k, rfl⟩ := back
    exact placed (h k (List.mem_cons_of_mem _ allowed))
  · have onward : ∀ k, op ≠ .rewind k := fun k hk => back ⟨k, hk⟩
    obtain ⟨n, hn, reached⟩ := u.perform_skips onward
    apply placed
    rw [reached]
    exact here.skip hn

theorem Leads.placed {ops : List Operation} (h : Leads u ops v) (hu : u.Placed text start) :
    v.Placed text start := by
  induction h with
  | refl => exact hu
  | perform allowed _ ih => exact ih (hu.perform allowed)

theorem offset_le_perform (u : InUse) (h : ∀ k, op ≠ .rewind k) :
    u.cursor.pos.offset ≤ (u.perform op).2.cursor.pos.offset := by
  obtain ⟨n, hn, reached⟩ := u.perform_skips h
  have pos : (u.perform op).2.cursor.pos = (u.cursor.skip n).pos := congrArg Checkpoint.pos reached
  rw [pos, skip_offset hn]
  exact Nat.le_add_right _ n

/-- A token begins where the scan began, and what is reported lies behind it and before the place
where the scan ended. -/
theorem Placed.scanned (h : u.Placed text start) {s : Scan} {t : Token}
    {reports : List Diagnostic} (answer : (u.perform (.scan s)).1 = .token (some t) reports) :
    t.pos = u.cursor.pos ∧ ∀ d ∈ reports, start.Right text d.pos ∧
      u.cursor.pos.offset ≤ d.pos.offset ∧
      d.pos.offset ≤ (u.perform (.scan s)).2.cursor.pos.offset := by
  have here := h _ List.mem_cons_self
  simp only [InUse.perform, scan] at answer ⊢
  split at answer
  · cases answer
  · next l hl =>
    have fits := Scan.fits hl
    obtain ⟨rfl, rfl⟩ : l.token u.cursor.pos = t ∧ l.diagnostics u.cursor = reports := by
      simpa [take] using answer
    refine ⟨rfl, ?_⟩
    intro d hd
    obtain ⟨f, hf, rfl⟩ := Lexer.mem_diagnostics hd
    have inside := fits.flaw_le f hf
    have within := inside.trans fits.extent_le
    refine ⟨(here.skip within).right, ?_, ?_⟩
    · rw [skip_offset within]
      exact Nat.le_add_right _ _
    · simp only [withCursor, take, skip_offset within, skip_offset fits.extent_le]
      exact Nat.add_le_add_left inside _

end InUse

/-- Wherever a cursor starts in a text, no operations take it out of the text behind the start or off
its line, which counts the newlines passed; no counter has to go beyond the number of the last line.
Only going back can make the place an earlier one. What is scanned begins where the cursor is. -/
theorem operations_keep_place (text : List Char) (start : Position)
    (h : start.offset ≤ text.length) :
    ∃ c, startAt text start = .ok c ∧ ∀ ops u, InUse.Leads ⟨c, []⟩ ops u →
      start.Right text u.cursor.pos ∧
      u.cursor.rest = text.drop u.cursor.pos.offset ∧
      (∀ op, (∀ k, op ≠ .rewind k) →
        u.cursor.pos.offset ≤ (u.perform op).2.cursor.pos.offset) ∧
      ∀ s t reports, (u.perform (.scan s)).1 = .token (some t) reports →
        t.pos = u.cursor.pos ∧ ∀ d ∈ reports, start.Right text d.pos ∧
          u.cursor.pos.offset ≤ d.pos.offset ∧
          d.pos.offset ≤ (u.perform (.scan s)).2.cursor.pos.offset := by
  refine ⟨_, if_neg (Nat.not_lt.2 h), ?_⟩
  intro ops u leads
  have placed : u.Placed text start := by
    apply leads.placed
    intro k hk
    rw [List.mem_singleton.1 hk]
    exact ⟨Position.right_start h, rfl⟩
  obtain ⟨right, rest⟩ := placed _ List.mem_cons_self
  exact ⟨right, rest, fun op => u.offset_le_perform, fun s t reports => placed.scanned⟩

/-- Back over a newline, on again without reading, and back into the middle of a line. -/
theorem operations_keep_place_rewound :
    let text := "x\n( \"b\n07".toList
    let start : Position := ⟨1, 2⟩
    let k (line offset : ℕ) : Checkpoint := ⟨text.drop offset, ⟨line, offset⟩⟩
    let c : Cursor := ⟨text.drop 2, start, true⟩
    let u : InUse := ⟨⟨text.drop 4, ⟨1, 4⟩, true⟩, [k 2 7, k 1 4, k 1 2]⟩
    start.offset ≤ text.length ∧ startAt text start = .ok c ∧
      InUse.Leads ⟨c, []⟩ [.checkpoint, .leaveLineStart, .scan .grouping, .scan .word, .checkpoint,
        .scan .string, .checkpoint, .rewind (k 1 2), .rewind (k 2 7), .scan .number,
        .rewind (k 1 4)] u ∧
      start.Right text u.cursor.pos ∧
      (u.perform (.scan .string)).1 =
        .token (some ⟨.string, "b", u.cursor.pos⟩) [⟨.unterminatedString, ⟨1, 6⟩⟩] ∧
      start.Right text ⟨1, 6⟩ := by
  intro text start k c u
  have leads : InUse.Leads ⟨c, []⟩ [.checkpoint, .leaveLineStart, .scan .grouping, .scan .word,
      .checkpoint, .scan .string, .checkpoint, .rewind (k 1 2), .rewind (k 2 7), .scan .number,
      .rewind (k 1 4)] u :=
    .perform trivial <| .perform trivial <| .perform trivial <| .perform trivial <|
      .perform trivial <| .perform trivial <| .perform trivial <|
      .perform (.tail _ (.tail _ (.head _))) <| .perform (.head _) <| .perform rfl <|
      .perform (.tail _ (.head _)) <| .refl u
  have within : start.offset ≤ text.length := by decide
  obtain ⟨_, started, keeps⟩ := operations_keep_place text start within
  obtain rfl : _ = c := Except.ok.inj (started.symm.trans rfl)
  obtain ⟨right, -, -, scanned⟩ := keeps _ u leads
  have answer : (u.perform (.scan .string)).1 =
      .token (some ⟨.string, "b", u.cursor.pos⟩) [⟨.unterminatedString, ⟨1, 6⟩⟩] := rfl
  exact ⟨within, rfl, leads, right, answer, ((scanned _ _ _ answer).2 _ List.mem_cons_self).1⟩

end Cursor

end Offside
