import Offside.Proofs.Splitting

/-! # Lines

A text is read line by line. A line gives its layout, which depends on the lines before it only
through the open blocks, and then what is read from it alone; a line of blanks gives nothing. -/

namespace Offside

open Lexeme (isSolid)

def linesOf : List Char → List (List Char)
  | [] => []
  | c :: cs =>
    if c = '\n' then [c] :: linesOf cs
    else
      match linesOf cs with
      | [] => [[c]]
      | line :: lines => (c :: line) :: lines

def isBlank (line : List Char) : Bool := !line.any isSolid

def widthOf (line : List Char) : Nat := (line.takeWhile (· == ' ')).length

/-- What is read from a line at `base` while `blocks` are open, and the blocks open behind it. -/
def Lexed.ofLine (blocks : Indentation) (base : Position) (line : List Char) :
    Lexed × Indentation :=
  if isBlank line then (⟨[], []⟩, blocks)
  else
    let measured := blocks.measure (widthOf line)
    let first : Position := ⟨base.line, base.offset + widthOf line⟩
    let alone := tokenize (String.ofList line)
    (⟨Lexer.layoutTokens measured.1 first ++ (Token.lexemes alone.tokens).map (Token.shift base),
      Lexer.layoutReports measured.1 first ++ alone.diagnostics.map (Diagnostic.shift base)⟩,
      measured.2)

def Lexed.ofLines (blocks : Indentation) (base : Position) : List (List Char) → Lexed
  | [] => ⟨[], []⟩
  | line :: lines =>
    let read := ofLine blocks base line
    let more := ofLines read.2 ⟨base.line + 1, base.offset + line.length⟩ lines
    ⟨read.1.tokens ++ more.tokens, read.1.diagnostics ++ more.diagnostics⟩

variable {text line : List Char}

/-- The first line ends the text or ends with a newline, and holds no other. -/
theorem linesOf_split (h : text ≠ []) :
    ∃ line more, text = line ++ more ∧ linesOf text = line :: linesOf more ∧ line ≠ [] ∧
      '\n' ∉ line.dropLast ∧ (more = [] ∨ line.getLast? = some '\n') := by
  induction text with
  | nil => exact absurd rfl h
  | cons c cs ih =>
    by_cases hc : c = '\n'
    · exact ⟨[c], cs, rfl, by simp [linesOf, hc], by simp, by simp, .inr (by simp [hc])⟩
    · by_cases hcs : cs = []
      · exact ⟨[c], [], by simp [hcs], by simp [linesOf, hc, hcs], by simp, by simp, .inl rfl⟩
      · obtain ⟨line, more, rfl, split, hne, hn, last⟩ := ih hcs
        refine ⟨c :: line, more, rfl, by simp [linesOf, hc, split], by simp, ?_, ?_⟩
        · simp [List.dropLast_cons_of_ne_nil hne, hn, Ne.symm hc]
        · simpa [List.getLast?_cons_of_ne_nil hne] using last

theorem linesOf_append (h : '\n' ∉ line) (more : List Char) :
    linesOf (line ++ '\n' :: more) = (line ++ ['\n']) :: linesOf more := by
  induction line with
  | nil => simp [linesOf]
  | cons c cs ih =>
    have hc : c ≠ '\n' := fun he => h (he ▸ List.mem_cons_self)
    rw [List.cons_append, linesOf, if_neg hc, ih (List.not_mem_of_not_mem_cons h)]
    rfl

example : linesOf ['a', '\n', '\n', ' ', 'b'] = [['a', '\n'], ['\n'], [' ', 'b']] := by decide

/-- What stands behind the spaces of a line: nothing on a line of blanks, its newline apart. -/
theorem isBlank_cases (h : '\n' ∉ line.dropLast) :
    isBlank line = true ∧
        (line.dropWhile (· == ' ') = [] ∨ line.dropWhile (· == ' ') = ['\n']) ∨
      isBlank line = false ∧ ∃ c rest, line.dropWhile (· == ' ') = c :: rest ∧ c ≠ '\n' := by
  have split := List.takeWhile_append_dropWhile (p := (· == ' ')) (l := line)
  have spaces : (line.takeWhile (· == ' ')).any isSolid = false := by
    refine List.any_eq_false.2 fun c hc => ?_
    simp [Lexeme.eq_space_of_mem_takeWhile hc, isSolid]
  have blank : isBlank line = !(line.dropWhile (· == ' ')).any isSolid := by
    rw [isBlank, ← split, List.any_append, spaces, Bool.false_or, split]
  have front := List.head?_dropWhile_not (· == ' ') line
  rw [blank]
  cases hd : line.dropWhile (· == ' ') with
  | nil => exact .inl ⟨rfl, .inl rfl⟩
  | cons c rest =>
    have hb : c ≠ ' ' := by simpa [hd] using front
    by_cases hn : c = '\n'
    · subst hn
      have ends : rest = [] := by
        by_contra hne
        rw [← split, hd, List.dropLast_append_cons, List.dropLast_cons_of_ne_nil hne] at h
        simp at h
      subst ends
      exact .inl ⟨by simp [isSolid], .inr rfl⟩
    · exact .inr ⟨by simp [isSolid, hb, hn], c, rest, rfl, hn⟩

theorem front_of_not_blank (hl : '\n' ∉ line.dropLast) (hb : isBlank line = false) :
    ∃ c rest, line.dropWhile (· == ' ') = c :: rest ∧ c ≠ '\n' := by
  rcases isBlank_cases hl with ⟨h, -⟩ | ⟨-, h⟩
  · simp [hb] at h
  · exact h

namespace Lexer

theorem run_blank (hl : '\n' ∉ line.dropLast) (hb : isBlank line = true) (base : Position)
    (blocks : Indentation) :
    ∃ c, run ⟨⟨line, base, true⟩, blocks⟩ = ⟨[], [], ⟨c, blocks⟩⟩ := by
  have remains : line.dropWhile (· == ' ') = [] ∨ line.dropWhile (· == ' ') = ['\n'] := by
    rcases isBlank_cases hl with ⟨-, h⟩ | ⟨h, -⟩
    · exact h
    · simp [hb] at h
  let l : Lexer := ⟨⟨line, base, true⟩, blocks⟩
  have rest : l.cursor.eatSpaces.2.rest = line.dropWhile (· == ' ') := Cursor.eatWhile_rest ..
  have margin : Reads l [] [] ⟨l.cursor.eatSpaces.2, blocks⟩ := by
    refine reads_margin rfl fun c hc => ?_
    rw [Cursor.peek, rest] at hc
    rcases remains with h | h
    · simp [h] at hc
    · simpa [h, eq_comm] using hc
  have reads := margin.trans (reads_newlines ⟨l.cursor.eatSpaces.2, blocks⟩)
  refine ⟨_, reads.run_eq_of_rest_nil ?_⟩
  simp only [Cursor.eatNewlines, Cursor.eatWhile_rest, rest]
  rcases remains with h | h <;> simp [h]

def body (line : List Char) : Lexer := ⟨(Cursor.ofList line).eatSpaces.2.leaveLineStart, .base⟩

theorem body_inLine (hl : '\n' ∉ line.dropLast) (hb : isBlank line = false) :
    (body line).InLine := by
  obtain ⟨c, rest, hd, -⟩ := front_of_not_blank hl hb
  have bodyRest : (body line).cursor.rest = line.dropWhile (· == ' ') := Cursor.eatWhile_rest ..
  refine .inr ⟨rfl, fun mem => hl ?_⟩
  rw [bodyRest, hd] at mem
  rw [← List.takeWhile_append_dropWhile (p := (· == ' ')) (l := line), hd,
    List.dropLast_append_cons]
  exact List.mem_append_right _ mem

/-- A line with something on it is measured, and then read as it would be read alone. -/
theorem run_measured (hl : '\n' ∉ line.dropLast) (hb : isBlank line = false) (base : Position)
    (blocks : Indentation) :
    let measured := blocks.measure (widthOf line)
    let first : Position := ⟨base.line, base.offset + widthOf line⟩
    run ⟨⟨line, base, true⟩, blocks⟩ =
      .after (layoutTokens measured.1 first) (layoutReports measured.1 first)
        ⟨(body line).run.tokens.map (Token.shift base),
          (body line).run.diagnostics.map (Diagnostic.shift base),
          ⟨(body line).run.last.cursor.shift base, measured.2⟩⟩ := by
  obtain ⟨c, rest, hd, hn⟩ := front_of_not_blank hl hb
  let l : Lexer := ⟨⟨line, base, true⟩, blocks⟩
  have front : l.cursor.eatSpaces.2.peek = some c := by
    rw [Cursor.peek, show l.cursor.eatSpaces.2.rest = _ from Cursor.eatWhile_rest .., hd]
    rfl
  have first : l.cursor.eatSpaces.2.pos = ⟨base.line, base.offset + widthOf line⟩ := by
    have spaces : (line.takeWhile (· == ' ')).count '\n' = 0 :=
      List.count_eq_zero.2 fun mem => by simpa using Lexeme.eq_space_of_mem_takeWhile mem
    rw [Cursor.eatSpaces, Cursor.eatWhile_pos, Position.after_eq, spaces]
    rfl
  have next : (⟨l.cursor.eatSpaces.2.leaveLineStart, (blocks.measure (widthOf line)).2⟩ : Lexer) =
      .shift base { body line with blocks := (blocks.measure (widthOf line)).2 } := by
    have shifted : l.cursor = (Cursor.ofList line).shift base := rfl
    rw [shifted, Cursor.eatSpaces_shift]
    rfl
  have measured := (Move.line (l := l) rfl front hn).reads.run_eq
  have alone := (run_inLine (body_inLine hl hb)).2 (blocks.measure (widthOf line)).2
  simp only [first] at measured
  refine measured.trans ?_
  change Run.after _ _ (run ⟨_, (blocks.measure (widthOf line)).2⟩) = _
  rw [next, run_shift, alone]
  rfl

theorem layoutReports_base (width : Nat) (pos : Position) :
    layoutReports (Indentation.base.measure width).1 pos = [] := by
  rw [Indentation.measure_eq]
  by_cases h : 0 < width <;>
    simp [Indentation.base, Indentation.current, layoutReports, h]

/-- The base level takes every line without a report, so a line alone shows just its body. -/
theorem tokenize_line (hl : '\n' ∉ line.dropLast) (hb : isBlank line = false) :
    Token.lexemes (tokenize (String.ofList line)).tokens = (body line).run.tokens ∧
      (tokenize (String.ofList line)).diagnostics = (body line).run.diagnostics := by
  have alone := run_measured hl hb .zero .base
  have real := (run_inLine (body_inLine hl hb)).1
  have whole : (Lexer.start (.ofList line)).run = run ⟨⟨line, .zero, true⟩, .base⟩ := rfl
  simp only [tokenize_eq, String.toList_ofList, whole, alone, Run.after]
  simp [layoutReports_base, Token.lexemes_eq_self real]

theorem run_ofLine (hl : '\n' ∉ line.dropLast) (base : Position) (blocks : Indentation) :
    ∃ c, run ⟨⟨line, base, true⟩, blocks⟩ =
      ⟨(Lexed.ofLine blocks base line).1.tokens, (Lexed.ofLine blocks base line).1.diagnostics,
        ⟨c, (Lexed.ofLine blocks base line).2⟩⟩ := by
  cases hb : isBlank line with
  | true => simpa [Lexed.ofLine, hb] using run_blank hl hb base blocks
  | false =>
    obtain ⟨tokens, diagnostics⟩ := tokenize_line hl hb
    refine ⟨(body line).run.last.cursor.shift base, ?_⟩
    simp only [run_measured hl hb base blocks, Lexed.ofLine, hb, Bool.false_eq_true, if_false,
      tokens, diagnostics]
    rfl

theorem after_line (hl : '\n' ∉ line.dropLast) (last : line.getLast? = some '\n')
    (base : Position) : base.after line = ⟨base.line + 1, base.offset + line.length⟩ := by
  obtain ⟨front, rfl⟩ := List.getLast?_eq_some_iff.1 last
  rw [List.dropLast_concat] at hl
  rw [Position.after_eq, List.count_append, List.count_eq_zero.2 hl]
  rfl

theorem run_ofLines (text : List Char) (base : Position) (blocks : Indentation) :
    (run ⟨⟨text, base, true⟩, blocks⟩).tokens = (Lexed.ofLines blocks base (linesOf text)).tokens ∧
      (run ⟨⟨text, base, true⟩, blocks⟩).diagnostics =
        (Lexed.ofLines blocks base (linesOf text)).diagnostics := by
  by_cases h : text = []
  · subst h
    rw [run_of_rest_nil rfl]
    exact ⟨rfl, rfl⟩
  · obtain ⟨line, more, ht, split, hne, hl, last⟩ := linesOf_split h
    obtain ⟨c, read⟩ := run_ofLine hl base blocks
    rw [split, ht, Lexed.ofLines]
    rcases last with rfl | last
    · rw [List.append_nil, read]
      simp [linesOf, Lexed.ofLines]
    · have fed := run_feed (l := ⟨⟨line, base, true⟩, blocks⟩) last more
      simp only [read, after_line hl last] at fed
      rw [show (⟨⟨line ++ more, base, true⟩, blocks⟩ : Lexer) =
        .feed ⟨⟨line, base, true⟩, blocks⟩ more from rfl, fed]
      have ih := run_ofLines more ⟨base.line + 1, base.offset + line.length⟩
        (Lexed.ofLine blocks base line).2
      simp [Run.after, ih]
  termination_by text.length
  decreasing_by
    have := List.length_pos_iff.2 hne
    rw [ht, List.length_append]
    omega

end Lexer

/-- A text reads as its lines do, one after the other. -/
theorem tokenize_lines (source : String) :
    tokenize source =
      let read := Lexed.ofLines .base .zero (linesOf source.toList)
      ⟨read.tokens ++ [.synthetic .eof (Position.zero.after source.toList)], read.diagnostics⟩ := by
  obtain ⟨tokens, diagnostics⟩ := Lexer.run_ofLines source.toList .zero .base
  have whole : Lexer.start (.ofList source.toList) = ⟨⟨source.toList, .zero, true⟩, .base⟩ := rfl
  simp only [tokenize_eq, Lexer.run_last_pos, whole, tokens, diagnostics]

end Offside
