import Offside.Proofs.Positions
import Offside.Proofs.Splitting
import Offside.Session

/-! # Sessions

Each entry of a session is read from where the one before ended, by a lexer of its own. All the
entries together give the lexemes, and the reports about them, that their text gives when it is read
at once. Layout is the exception: no block stays open from one entry to the next. -/

namespace Offside

def Problem.isLayout : Problem → Bool
  | .inconsistentDedent .. => true
  | _ => false

namespace Diagnostic

def lexical (ds : List Diagnostic) : List Diagnostic := ds.filter fun d => !d.problem.isLayout

theorem lexical_append (ds es : List Diagnostic) : lexical (ds ++ es) = lexical ds ++ lexical es :=
  List.filter_append ds es

end Diagnostic

namespace Lexer

variable {l m : Lexer} {ts : List Token} {ds : List Diagnostic}

theorem lexical_layoutReports (measured : Except Indentation.Fault Indentation.Change)
    (pos : Position) : Diagnostic.lexical (layoutReports measured pos) = [] := by
  apply List.filter_eq_nil_iff.2
  intro d hd
  obtain ⟨width, landedOn, rfl⟩ := mem_layoutReports hd
  simp [Problem.isLayout]

/-- With other blocks open, a move differs in layout alone. -/
theorem Move.withBlocks (h : Move l ts ds m) (blocks : Indentation) :
    ∃ us es after, Move { l with blocks } us es { m with blocks := after } ∧
      Token.lexemes us = Token.lexemes ts ∧ Diagnostic.lexical es = Diagnostic.lexical ds := by
  cases h with
  | space hs hp => exact ⟨_, _, _, .space hs hp, rfl, rfl⟩
  | newline hp => exact ⟨_, _, _, .newline hp, rfl, rfl⟩
  | margin hs hp he => exact ⟨_, _, _, .margin hs hp he, rfl, rfl⟩
  | line hs hp hn =>
    refine ⟨_, _, _, .line (l := { l with blocks }) hs hp hn, ?_, ?_⟩
    · rw [lexemes_layoutTokens, lexemes_layoutTokens]
    · rw [lexical_layoutReports, lexical_layoutReports]
  | lexeme hs hp hb hn hr => exact ⟨_, _, _, .lexeme hs hp hb hn hr, rfl, rfl⟩
  | stray hs hp hb hn hr => exact ⟨_, _, _, .stray hs hp hb hn hr, rfl, rfl⟩

theorem Reads.withBlocks (h : Reads l ts ds m) (blocks : Indentation) :
    ∃ us es after, Reads { l with blocks } us es { m with blocks := after } ∧
      Token.lexemes us = Token.lexemes ts ∧ Diagnostic.lexical es = Diagnostic.lexical ds := by
  induction h generalizing blocks with
  | refl => exact ⟨_, _, _, .refl _, rfl, rfl⟩
  | move h _ ih =>
    obtain ⟨us, es, between, first, tokens, diagnostics⟩ := h.withBlocks blocks
    obtain ⟨vs, fs, after, later, tokens', diagnostics'⟩ := ih between
    refine ⟨us ++ vs, es ++ fs, after, .move first later, ?_, ?_⟩
    · rw [Token.lexemes_append, Token.lexemes_append, tokens, tokens']
    · rw [Diagnostic.lexical_append, Diagnostic.lexical_append, diagnostics, diagnostics']

theorem run_withBlocks (c : Cursor) (blocks others : Indentation) :
    Token.lexemes (run ⟨c, blocks⟩).tokens = Token.lexemes (run ⟨c, others⟩).tokens ∧
      Diagnostic.lexical (run ⟨c, blocks⟩).diagnostics =
        Diagnostic.lexical (run ⟨c, others⟩).diagnostics := by
  obtain ⟨reads, done⟩ := reads_run ⟨c, others⟩
  obtain ⟨us, es, after, reads, tokens, diagnostics⟩ := reads.withBlocks blocks
  rw [reads.run_eq_of_rest_nil done]
  exact ⟨tokens, diagnostics⟩

end Lexer

/-- A line begins behind no text and behind a newline. -/
theorem Cursor.startAt_behind (before text : List Char) (line : Nat) :
    Cursor.startAt (before ++ text) ⟨line, before.length⟩ = .ok ⟨text, ⟨line, before.length⟩,
      decide (before = [] ∨ before.getLast? = some '\n')⟩ := by
  have inside : ¬ (before ++ text).length < before.length := by
    rw [List.length_append]
    omega
  rw [Cursor.startAt, if_neg inside, List.drop_left]
  by_cases empty : before = []
  · simp [empty]
  · have pos := List.length_pos_iff.2 empty
    rw [List.getElem?_append_left (Nat.sub_lt pos Nat.one_pos), ← List.getLast?_eq_getElem?]
    simp [empty, Bool.beq_eq_decide_eq]

/-- Reading from the end of whole lines on begins a line. -/
theorem Cursor.startAt_append {before : List Char} {pos : Position}
    (hp : pos.offset = before.length) (hb : before = [] ∨ before.getLast? = some '\n')
    (text : List Char) : Cursor.startAt (before ++ text) pos = .ok ⟨text, pos, true⟩ := by
  obtain ⟨line, offset⟩ := pos
  obtain rfl : offset = before.length := hp
  rw [Cursor.startAt_behind, decide_eq_true hb]

def TokenStream.lexed (s : TokenStream) : Lexed := ⟨s.tokens.1, s.tokens.2.diagnostics.toList⟩

def Lexed.shift (base : Position) (l : Lexed) : Lexed :=
  ⟨l.tokens.map (Token.shift base), l.diagnostics.map (Diagnostic.shift base)⟩

theorem TokenStream.lexed_ofCursor (c : Cursor) :
    (ofCursor c).lexed =
      ⟨(Lexer.start c).run.tokens ++ [.synthetic .eof (c.pos.after c.rest)],
        (Lexer.start c).run.diagnostics⟩ := by
  rw [lexed, tokens_eq rfl]
  simp [drained, ofCursor, Lexer.run_last_pos, Lexer.start]

theorem TokenStream.lexed_shift (c : Cursor) (base : Position) :
    (ofCursor (c.shift base)).lexed = (ofCursor c).lexed.shift base := by
  have moved : Lexer.start (c.shift base) = (Lexer.start c).shift base := rfl
  have last : (base.shift c.pos).after c.rest = base.shift (c.pos.after c.rest) := by
    simp [Position.after_eq, Position.shift, Nat.add_assoc]
  rw [lexed_ofCursor, lexed_ofCursor, moved, Lexer.run_shift, Cursor.pos_shift, Cursor.shift, last,
    Lexed.shift, List.map_append]
  rfl

/-- Text that begins a line is read as it is read alone. -/
theorem TokenStream.lexed_line (text : String) (base : Position) :
    (ofCursor ⟨text.toList, base, true⟩).lexed = (tokenize text).shift base :=
  lexed_shift (.ofList text.toList) base

namespace Session

def text (entries : List String) : String := String.join (entries.map terminated)

theorem text_cons (entry : String) (entries : List String) :
    (text (entry :: entries)).toList = (terminated entry).toList ++ (text entries).toList := by
  simp [text]

def feedAll (s : Session) (entries : List String) : Session :=
  entries.foldl (fun s entry => (s.feed entry).2) s

def readings (s : Session) : List String → List (Except StartPastEnd Lexed)
  | [] => []
  | entry :: entries => (s.feed entry).1.map TokenStream.lexed :: (s.feed entry).2.readings entries

/-- The next entry begins a line, behind all that has been entered. -/
structure AtLineStart (s : Session) : Prop where
  pos : s.pos = Position.zero.after s.source.toList
  line : s.source.toList = [] ∨ s.source.toList.getLast? = some '\n'

theorem terminated_getLast? (entry : String) : (terminated entry).toList.getLast? = some '\n' := by
  unfold terminated
  split
  · assumption
  · rw [String.toList_push, List.getLast?_concat]

theorem atLineStart_empty : empty.AtLineStart := ⟨rfl, .inl rfl⟩

theorem AtLineStart.pos_eq {s : Session} (h : s.AtLineStart) :
    s.pos = ⟨s.lines, s.source.length⟩ := by
  rw [lines, h.pos, Position.after_eq, String.length_toList]
  simp [Position.zero]

theorem AtLineStart.feed {s : Session} (h : s.AtLineStart) (entry : String) :
    (s.feed entry).1 = .ok (.ofCursor ⟨(terminated entry).toList, s.pos, true⟩) ∧
      (s.feed entry).2.AtLineStart := by
  have whole : (s.source ++ terminated entry).toList = s.source.toList ++ (terminated entry).toList :=
    String.toList_append
  constructor
  · have reached : s.pos.offset = s.source.toList.length := by
      rw [h.pos, Position.after_offset]
      exact Nat.zero_add _
    rw [Session.feed]
    simp only [TokenStream.startAt, whole, Cursor.startAt_append reached h.line]
    rfl
  · constructor
    · simp only [Session.feed]
      rw [whole, Position.after_append, ← h.pos]
    · right
      simp only [Session.feed]
      rw [whole, List.getLast?_append, terminated_getLast?]
      rfl

theorem AtLineStart.feedAll {s : Session} (h : s.AtLineStart) (entries : List String) :
    (s.feedAll entries).AtLineStart ∧ (s.feedAll entries).source = s.source ++ text entries := by
  induction entries generalizing s with
  | nil => exact ⟨h, by simp [Session.feedAll, text]⟩
  | cons entry entries ih =>
    obtain ⟨settled, source⟩ := ih (h.feed entry).2
    refine ⟨settled, source.trans ?_⟩
    simp [Session.feed, text, String.append_assoc]

theorem feedAll_empty (entries : List String) :
    (empty.feedAll entries).AtLineStart ∧
      (empty.feedAll entries).pos = ⟨(empty.feedAll entries).lines, (text entries).length⟩ := by
  obtain ⟨atStart, source⟩ := atLineStart_empty.feedAll entries
  refine ⟨atStart, atStart.pos_eq.trans ?_⟩
  rw [source, show empty.source = "" from rfl, String.empty_append]

/-- Entry by entry the same is found as in one run, whatever blocks are open in that run. -/
theorem AtLineStart.readings {s : Session} (h : s.AtLineStart) (entries : List String)
    (blocks : Indentation) :
    let whole := Lexer.run ⟨⟨(text entries).toList, s.pos, true⟩, blocks⟩
    ∃ reads : List Lexed, s.readings entries = reads.map .ok ∧
      reads.flatMap (fun r => Token.lexemes r.tokens) = Token.lexemes whole.tokens ∧
      reads.flatMap (fun r => Diagnostic.lexical r.diagnostics) =
        Diagnostic.lexical whole.diagnostics := by
  induction entries generalizing s blocks with
  | nil =>
    refine ⟨[], rfl, ?_, ?_⟩
    · rw [Lexer.run_of_rest_nil rfl]
      rfl
    · rw [Lexer.run_of_rest_nil rfl]
      rfl
  | cons entry entries ih =>
    obtain ⟨stream, after⟩ := h.feed entry
    let first : Lexer := ⟨⟨(terminated entry).toList, s.pos, true⟩, blocks⟩
    -- In the one run the later entries find open what this entry has left open.
    obtain ⟨reads, fed, tokens, diagnostics⟩ := ih after first.run.last.blocks
    have split : Lexer.run ⟨⟨(text (entry :: entries)).toList, s.pos, true⟩, blocks⟩ =
        .after first.run.tokens first.run.diagnostics
          (Lexer.run ⟨⟨(text entries).toList, (s.feed entry).2.pos, true⟩,
            first.run.last.blocks⟩) := by
      have fed := Lexer.run_feed (l := first) (terminated_getLast? entry) (text entries).toList
      rw [text_cons]
      exact fed
    obtain ⟨lexemes, lexical⟩ := Lexer.run_withBlocks first.cursor .base blocks
    refine ⟨(TokenStream.ofCursor first.cursor).lexed :: reads, ?_, ?_, ?_⟩
    · rw [Session.readings, stream, fed]
      rfl
    · rw [split, Lexer.Run.after, Token.lexemes_append, ← tokens, ← lexemes, List.flatMap_cons,
        TokenStream.lexed_ofCursor, Token.lexemes_append, Token.lexemes_eof, List.append_nil]
      rfl
    · rw [split, Lexer.Run.after, Diagnostic.lexical_append, ← diagnostics, ← lexical,
        List.flatMap_cons, TokenStream.lexed_ofCursor]
      rfl

end Session

/-- Entries fed one after the other are always taken. Together they give the lexemes and the reports
of one text, and each of them is read as it is alone, from where the text before it ends. -/
theorem session_one_text (entries : List String) :
    (∃ reads : List Lexed, Session.empty.readings entries = reads.map .ok ∧
      reads.flatMap (fun r => Token.lexemes r.tokens) =
        Token.lexemes (tokenize (Session.text entries)).tokens ∧
      reads.flatMap (fun r => Diagnostic.lexical r.diagnostics) =
        Diagnostic.lexical (tokenize (Session.text entries)).diagnostics) ∧
    ∀ entry : String,
      let s := Session.empty.feedAll entries
      let next := (s.feed entry).2
      ∃ stream, (s.feed entry).1 = .ok stream ∧
        stream.lexed = (tokenize (Session.terminated entry)).shift
          ⟨s.lines, (Session.text entries).length⟩ ∧
        ∃ found, stream.lexed.tokens = found ++
            [.synthetic .eof ⟨next.lines, (Session.text (entries ++ [entry])).length⟩] ∧
          ∀ t ∈ found, t.kind ≠ .eof := by
  constructor
  · obtain ⟨reads, fed, tokens, diagnostics⟩ := Session.atLineStart_empty.readings entries .base
    refine ⟨reads, fed, ?_, ?_⟩
    · rw [tokens, tokenize_eq, Token.lexemes_append, Token.lexemes_eof, List.append_nil]
      rfl
    · rw [diagnostics, tokenize_eq]
      rfl
  · intro entry s next
    obtain ⟨atStart, here⟩ := Session.feedAll_empty entries
    obtain ⟨-, there⟩ := Session.feedAll_empty (entries ++ [entry])
    have after : Session.empty.feedAll (entries ++ [entry]) = next := List.foldl_append
    obtain ⟨stream, -⟩ := atStart.feed entry
    rw [after] at there
    let lexer := Lexer.start ⟨(Session.terminated entry).toList, s.pos, true⟩
    refine ⟨_, stream, ?_, lexer.run.tokens, ?_, ?_⟩
    · rw [TokenStream.lexed_line, ← here]
    · rw [← there, TokenStream.lexed_ofCursor]
      rfl
    · intro t
      exact (Lexer.reads_run _).1.kind_ne_eof

end Offside
