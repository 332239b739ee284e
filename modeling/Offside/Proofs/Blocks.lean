import Offside.Proofs.Lines
import Offside.Proofs.Sessions

/-! # Blocks

Layout nests: no dedent comes without an indent for it to close, however deep the lines are. Where
no line is reported for its depth, the widths of the open blocks are those of earlier lines, so a
line that closes blocks is as deep as the line right before the outermost of them, and a line
without layout is as deep as the line before it. -/

namespace Offside

namespace Indentation

inductive Measured (i : Indentation) (width : Nat) : Except Fault Change × Indentation → Prop where
  | unchanged (h : width = i.current) : Measured i width (.ok .unchanged, i)
  | indent (h : i.current < width) : Measured i width (.ok .indent, ⟨width :: i.widths⟩)
  | dedent {count} (pos : 0 < count) (le : count ≤ i.widths.length)
      (fits : (i.widths.drop count).headD 0 = width) :
      Measured i width (.ok (.dedent count), ⟨i.widths.drop count⟩)
  | misaligned {count landedOn} (pos : 0 < count) (le : count ≤ i.widths.length) :
      Measured i width (.error (.misaligned width count landedOn), ⟨i.widths.drop count⟩)

theorem measured (i : Indentation) (width : Nat) : Measured i width (i.measure width) := by
  rw [measure_eq]
  by_cases deeper : i.current < width
  · rw [if_pos deeper]
    exact .indent deeper
  · rw [if_neg deeper]
    by_cases shallower : width < i.current
    · rw [if_pos shallower]
      have le := (List.takeWhile_prefix (width < ·) (l := i.widths)).length_le
      have pos : 0 < (i.widths.takeWhile (width < ·)).length := by
        apply List.length_pos_iff.2
        cases hw : i.widths with
        | nil => simp [current, hw] at shallower
        | cons w ws =>
          have above : width < w := by simpa [current, hw] using shallower
          simp [above]
      have kept := Lexeme.drop_length_takeWhile (width < ·) i.widths
      simp only [← kept]
      split
      · next fits => exact .dedent pos le fits
      · exact .misaligned pos le
    · rw [if_neg shallower]
      exact .unchanged (by omega)

end Indentation

def TokenKind.isLayout : TokenKind → Bool
  | indent | dedent => true
  | _ => false

theorem Token.isLayout_of_not_synthetic {t : Token} (h : t.isSynthetic = false) :
    t.kind.isLayout = false := by
  unfold Token.isSynthetic at h
  cases hk : t.kind <;> simp_all [TokenKind.isSynthetic, TokenKind.isLayout]

structure Levels (n : Nat) (ts : List Token) (m : Nat) : Prop where
  never_below : ∀ before, before <+: ts →
    (before.map Token.kind).count .dedent ≤ (before.map Token.kind).count .indent + n
  total : (ts.map Token.kind).count .dedent + m = (ts.map Token.kind).count .indent + n

namespace Levels

theorem nil (n : Nat) : Levels n [] n := by
  constructor
  · intro before hb
    rw [List.prefix_nil.1 hb]
    exact Nat.zero_le _
  · rfl

theorem append {n m k : Nat} {ts us : List Token} (h : Levels n ts m) (g : Levels m us k) :
    Levels n (ts ++ us) k := by
  have balance := h.total
  constructor
  · intro before hb
    obtain ⟨rest, split⟩ := hb
    rcases List.append_eq_append_iff.1 split with ⟨more, rfl, -⟩ | ⟨later, rfl, rfl⟩
    · exact h.never_below before (List.prefix_append _ _)
    · have := g.never_below later (List.prefix_append _ _)
      rw [List.map_append, List.count_append, List.count_append]
      omega
  · have := g.total
    rw [List.map_append, List.count_append, List.count_append]
    omega

theorem of_not_layout {ts : List Token} (h : ∀ t ∈ ts, t.kind.isLayout = false) (n : Nat) :
    Levels n ts n := by
  have absent {before : List Token} (hb : before ⊆ ts) {k : TokenKind} (hk : k.isLayout = true) :
      (before.map Token.kind).count k = 0 := by
    apply List.count_eq_zero.2
    intro mem
    obtain ⟨t, ht, rfl⟩ := List.mem_map.1 mem
    rw [h t (hb ht)] at hk
    cases hk
  constructor
  · intro before hb
    rw [absent hb.subset rfl]
    exact Nat.zero_le _
  · rw [absent (List.Subset.refl ts) rfl, absent (List.Subset.refl ts) rfl]

end Levels

namespace Lexer

theorem layoutTokens_levels (i : Indentation) (width : Nat) (pos : Position) :
    Levels i.widths.length (layoutTokens (i.measure width).1 pos)
      (i.measure width).2.widths.length := by
  -- Up to `count` dedents and nothing else close no more than is open.
  have dedents {count : Nat} (le : count ≤ i.widths.length) :
      Levels i.widths.length (List.replicate count (.synthetic .dedent pos))
        (i.widths.drop count).length := by
    constructor
    · intro before hb
      obtain ⟨n, rfl⟩ : ∃ n, before = List.replicate n (.synthetic .dedent pos) :=
        ⟨_, List.eq_replicate_iff.2 ⟨rfl, fun t ht => List.eq_of_mem_replicate (hb.subset ht)⟩⟩
      have := hb.length_le
      simp only [List.length_replicate] at this
      simp [Token.synthetic, List.count_replicate]
      omega
    · simp [Token.synthetic, List.count_replicate]
      omega
  have change := i.measured width
  generalize i.measure width = result at change ⊢
  cases change with
  | unchanged => exact .nil _
  | indent =>
    constructor
    · intro before hb
      have := (hb.map Token.kind).sublist.count_le .dedent
      simp [layoutTokens, Token.synthetic] at this
      omega
    · simp [layoutTokens, Token.synthetic]
      omega
  | dedent _ le => exact dedents le
  | misaligned _ le => exact dedents le

theorem Move.levels {l m : Lexer} {ts ds} (h : Move l ts ds m) :
    Levels l.blocks.widths.length ts m.blocks.widths.length := by
  cases h with
  | line => exact layoutTokens_levels _ _ _
  | lexeme _ _ _ _ hr =>
    apply Levels.of_not_layout
    intro t ht
    rw [List.mem_singleton.1 ht]
    exact Token.isLayout_of_not_synthetic (Lexeme.isSynthetic_of_read? hr)
  | _ => exact .nil _

theorem Reads.levels {l m : Lexer} {ts ds} (h : Reads l ts ds m) :
    Levels l.blocks.widths.length ts m.blocks.widths.length := by
  induction h with
  | refl => exact .nil _
  | move h _ ih => exact h.levels.append ih

end Lexer

namespace Token

def closings (opened : List Token) : List Token → List (Token × Token)
  | [] => []
  | t :: ts =>
    match t.kind, opened with
    | .indent, _ => closings (t :: opened) ts
    | .dedent, o :: around => (o, t) :: closings around ts
    | _, _ => closings opened ts

def closedOn (line : Nat) (opened ts : List Token) : List Token :=
  ((closings opened ts).filter fun p => p.2.pos.line = line).map Prod.fst

def stillOpen (opened : List Token) : List Token → List Token
  | [] => opened
  | t :: ts =>
    match t.kind with
    | .indent => stillOpen (t :: opened) ts
    | .dedent => stillOpen opened.tail ts
    | _ => stillOpen opened ts

def layout (ts : List Token) : List Token := ts.filter fun t => t.kind.isLayout

theorem layout_append (ts us : List Token) : layout (ts ++ us) = layout ts ++ layout us :=
  List.filter_append ts us

theorem layout_eq_nil {ts : List Token} (h : ∀ t ∈ ts, t.kind.isLayout = false) : layout ts = [] :=
  List.filter_eq_nil_iff.2 fun t ht => by simp [h t ht]

theorem closings_append (opened ts us : List Token) :
    closings opened (ts ++ us) = closings opened ts ++ closings (stillOpen opened ts) us := by
  induction ts generalizing opened with
  | nil => rfl
  | cons t ts ih =>
    cases opened <;> cases hk : t.kind <;> simp [closings, stillOpen, hk, ih]

theorem closings_cons_of_not_layout {t : Token} (h : t.kind.isLayout = false)
    (opened ts : List Token) : closings opened (t :: ts) = closings opened ts := by
  cases opened <;> cases hk : t.kind <;> simp_all [closings, TokenKind.isLayout]

theorem closings_layout (opened ts : List Token) :
    closings opened (layout ts) = closings opened ts := by
  unfold layout
  induction ts generalizing opened with
  | nil => rfl
  | cons t ts ih =>
    by_cases hk : t.kind.isLayout = true
    · rw [List.filter_cons, if_pos hk]
      simp only [closings, ih]
    · rw [List.filter_cons, if_neg hk, ih, closings_cons_of_not_layout (by simpa using hk)]

theorem mem_of_mem_closings {opened ts : List Token} {p : Token × Token}
    (h : p ∈ closings opened ts) : p.2 ∈ ts := by
  induction ts generalizing opened with
  | nil => cases h
  | cons t ts ih =>
    unfold closings at h
    split at h
    · exact List.mem_cons_of_mem t (ih h)
    · rcases List.mem_cons.1 h with rfl | h
      · exact List.mem_cons_self
      · exact List.mem_cons_of_mem t (ih h)
    · exact List.mem_cons_of_mem t (ih h)

theorem closedOn_append (line : Nat) (opened ts us : List Token) :
    closedOn line opened (ts ++ us) =
      closedOn line opened ts ++ closedOn line (stillOpen opened ts) us := by
  rw [closedOn, closings_append, List.filter_append, List.map_append, closedOn, closedOn]

theorem closedOn_eq_nil {line : Nat} {opened ts : List Token} (h : ∀ t ∈ ts, t.pos.line ≠ line) :
    closedOn line opened ts = [] := by
  rw [closedOn, List.map_eq_nil_iff, List.filter_eq_nil_iff]
  intro p hp
  simpa using h p.2 (mem_of_mem_closings hp)

theorem closings_dedents {t : Token} (hk : t.kind = .dedent) (opened : List Token) (count : Nat) :
    (closings opened (List.replicate count t)).map Prod.fst = opened.take count ∧
      stillOpen opened (List.replicate count t) = opened.drop count := by
  induction count generalizing opened with
  | zero => simp [closings, stillOpen]
  | succ count ih =>
    cases opened with
    | nil =>
      have := ih []
      simp_all [List.replicate_succ, closings, stillOpen]
    | cons o around =>
      have := ih around
      simp_all [List.replicate_succ, closings, stillOpen]

end Token

def lastWidth (lines : List (List Char)) : Nat :=
  ((lines.filter fun line => !isBlank line).getLast?.map widthOf).getD 0

/-- The open indents, innermost first, go with the widths of the open blocks: each was given behind
a line as deep as the block around it. -/
inductive Nested (lines : List (List Char)) : List Token → List Nat → Prop where
  | base : Nested lines [] []
  | block {o opened width widths} (around : Nested lines opened widths)
      (later : ∀ p ∈ opened, p.pos.line < o.pos.line)
      (behind : widths.headD 0 = lastWidth (lines.take o.pos.line)) :
      Nested lines (o :: opened) (width :: widths)

variable {lines : List (List Char)}

theorem Nested.drop {opened : List Token} {widths : List Nat} (h : Nested lines opened widths)
    (count : Nat) : Nested lines (opened.drop count) (widths.drop count) := by
  induction h generalizing count with
  | base => simpa using Nested.base
  | block around later behind ih =>
    cases count with
    | zero => exact .block around later behind
    | succ count => exact ih count

/-- Of the indents closed together, the outermost was given first. -/
theorem Nested.outermost {opened : List Token} {widths : List Nat} (h : Nested lines opened widths)
    {count : Nat} (pos : 0 < count) (le : count ≤ widths.length) :
    ∃ o ∈ opened.take count, (∀ p ∈ opened.take count, o.pos.line ≤ p.pos.line) ∧
      lastWidth (lines.take o.pos.line) = (widths.drop count).headD 0 := by
  induction h generalizing count with
  | base => exact absurd pos (Nat.not_lt.2 le)
  | @block o opened width widths around later behind ih =>
    obtain ⟨count, rfl⟩ := Nat.exists_eq_succ_of_ne_zero (Nat.ne_of_gt pos)
    by_cases single : count = 0
    · subst single
      exact ⟨o, by simp, by simp, behind.symm⟩
    · obtain ⟨p, hp, first, width⟩ := ih (Nat.pos_of_ne_zero single) (Nat.le_of_succ_le_succ le)
      refine ⟨p, List.mem_cons_of_mem o hp, ?_, width⟩
      intro q hq
      rcases List.mem_cons.1 hq with rfl | hq
      · exact (later p (List.mem_of_mem_take hp)).le
      · exact first q hq

/-- The layout of the lines from `n` on, with `opened` open before them. A line with dedents is as
deep as the last line before the first indent it closes; a line without layout is as deep as the
last line before it. Blank lines do not count. -/
structure Fits (lines : List (List Char)) (n : Nat) (opened ts : List Token) : Prop where
  closing : ∀ t ∈ ts, t.kind = .dedent → ∃ line, lines[t.pos.line]? = some line ∧
    isBlank line = false ∧ ∃ o ∈ Token.closedOn t.pos.line opened ts,
      (∀ p ∈ Token.closedOn t.pos.line opened ts, o.pos.line ≤ p.pos.line) ∧
        widthOf line = lastWidth (lines.take o.pos.line)
  level : ∀ i line, n ≤ i → lines[i]? = some line → isBlank line = false →
    (∀ t ∈ ts, t.pos.line = i → t.kind.isLayout = false) →
      widthOf line = lastWidth (lines.take i)

/-- Nothing but layout plays a part. -/
theorem Fits.of_layout {n : Nat} {opened ts : List Token}
    (h : Fits lines n opened (Token.layout ts)) : Fits lines n opened ts := by
  have same (line : Nat) :
      Token.closedOn line opened (Token.layout ts) = Token.closedOn line opened ts := by
    rw [Token.closedOn, Token.closings_layout, Token.closedOn]
  constructor
  · intro t ht hk
    rw [← same]
    exact h.closing t (List.mem_filter.2 ⟨ht, by rw [hk]; rfl⟩) hk
  · intro i line hi hl hb unmarked
    apply h.level i line hi hl hb
    intro t ht
    exact unmarked t (List.mem_filter.1 ht).1

structure Framed (lines : List (List Char)) (n : Nat) (opened : List Token)
    (blocks : Indentation) : Prop where
  nested : Nested lines opened blocks.widths
  current : blocks.current = lastWidth (lines.take n)
  before : ∀ o ∈ opened, o.pos.line < n

theorem lastWidth_take_succ {n : Nat} {line : List Char} (h : lines[n]? = some line) :
    lastWidth (lines.take (n + 1)) =
      if isBlank line then lastWidth (lines.take n) else widthOf line := by
  rw [List.take_add_one, h, lastWidth, lastWidth, Option.toList_some, List.filter_append]
  cases hb : isBlank line <;> simp [hb]

/-- What one line does: its layout fits, and what is open behind it is framed again. -/
theorem Framed.line {n : Nat} {opened : List Token} {blocks : Indentation} {line : List Char}
    (h : Framed lines n opened blocks) (hl : lines[n]? = some line) (hb : isBlank line = false)
    (offset : Nat)
    (hr : Lexer.layoutReports (blocks.measure (widthOf line)).1 ⟨n, offset⟩ = []) :
    let layout := Lexer.layoutTokens (blocks.measure (widthOf line)).1 ⟨n, offset⟩
    Framed lines (n + 1) (Token.stillOpen opened layout) (blocks.measure (widthOf line)).2 ∧
      ((∃ t ∈ layout, t.kind = .dedent) → ∃ o ∈ (Token.closings opened layout).map Prod.fst,
        (∀ p ∈ (Token.closings opened layout).map Prod.fst, o.pos.line ≤ p.pos.line) ∧
          widthOf line = lastWidth (lines.take o.pos.line)) ∧
      (layout = [] → widthOf line = lastWidth (lines.take n)) := by
  have behind : lastWidth (lines.take (n + 1)) = widthOf line := by
    rw [lastWidth_take_succ hl, hb, if_neg Bool.false_ne_true]
  have change := blocks.measured (widthOf line)
  generalize blocks.measure (widthOf line) = result at hr change ⊢
  cases change with
  | unchanged same =>
    refine ⟨⟨h.nested, ?_, ?_⟩, ?_, ?_⟩
    · rw [behind, same]
    · intro o ho
      exact Nat.lt_succ_of_lt (h.before o ho)
    · simp [Lexer.layoutTokens]
    · intro _
      rw [same, h.current]
  | indent deeper =>
    refine ⟨⟨.block h.nested h.before ?_, ?_, ?_⟩, ?_, ?_⟩
    · exact h.current
    · rw [behind]
      rfl
    · intro o ho
      rcases List.mem_cons.1 ho with rfl | ho
      · exact Nat.lt_succ_self n
      · exact Nat.lt_succ_of_lt (h.before o ho)
    · simp [Lexer.layoutTokens, Token.synthetic]
    · simp [Lexer.layoutTokens]
  | @dedent count pos le fits =>
    obtain ⟨closed, open_⟩ := Token.closings_dedents (t := .synthetic .dedent ⟨n, offset⟩) rfl
      opened count
    simp only [Lexer.layoutTokens, closed, open_]
    refine ⟨⟨h.nested.drop count, ?_, ?_⟩, ?_, ?_⟩
    · rw [behind]
      exact fits
    · intro o ho
      exact Nat.lt_succ_of_lt (h.before o (List.mem_of_mem_drop ho))
    · intro _
      obtain ⟨o, ho, first, width⟩ := h.nested.outermost pos le
      exact ⟨o, ho, first, by rw [width, fits]⟩
    · intro empty
      have := congrArg List.length empty
      simp at this
      omega
  | misaligned => simp [Lexer.layoutReports] at hr

theorem line_le_of_mem_ofLines {t : Token} {blocks : Indentation} {base : Position}
    {more : List (List Char)} (h : t ∈ (Lexed.ofLines blocks base more).tokens) :
    base.line ≤ t.pos.line := by
  induction more generalizing blocks base with
  | nil => cases h
  | cons line more ih =>
    rcases List.mem_append.1 h with h | h
    · unfold Lexed.ofLine at h
      split at h
      · cases h
      · rcases List.mem_append.1 h with h | h
        · rcases Lexer.mem_layoutTokens h with rfl | rfl <;> exact Nat.le_refl _
        · obtain ⟨u, -, rfl⟩ := List.mem_map.1 h
          exact Nat.le_add_right _ _
    · exact (Nat.le_succ _).trans (ih h)

theorem closedOn_of_here {n : Nat} {opened ts : List Token} (h : ∀ t ∈ ts, t.pos.line = n) :
    Token.closedOn n opened ts = (Token.closings opened ts).map Prod.fst := by
  rw [Token.closedOn, List.filter_eq_self.2]
  intro p hp
  simpa using h p.2 (Token.mem_of_mem_closings hp)

/-- The layout of line `n`, and then that of the lines behind it. -/
theorem Fits.cons_line {n : Nat} {opened first ts : List Token} {line : List Char}
    (hl : lines[n]? = some line) (hb : isBlank line = false)
    (here : ∀ t ∈ first, t.pos.line = n ∧ t.kind.isLayout = true)
    (closing : (∃ t ∈ first, t.kind = .dedent) → ∃ o ∈ (Token.closings opened first).map Prod.fst,
      (∀ p ∈ (Token.closings opened first).map Prod.fst, o.pos.line ≤ p.pos.line) ∧
        widthOf line = lastWidth (lines.take o.pos.line))
    (level : first = [] → widthOf line = lastWidth (lines.take n))
    (later : Fits lines (n + 1) (Token.stillOpen opened first) ts)
    (behind : ∀ t ∈ ts, n < t.pos.line) : Fits lines n opened (first ++ ts) := by
  constructor
  · intro t ht hk
    rw [Token.closedOn_append]
    rcases List.mem_append.1 ht with ht | ht
    · obtain ⟨rfl, -⟩ := here t ht
      have unclosed : Token.closedOn t.pos.line (Token.stillOpen opened first) ts = [] :=
        Token.closedOn_eq_nil fun u hu => Nat.ne_of_gt (behind u hu)
      rw [unclosed, List.append_nil, closedOn_of_here fun u hu => (here u hu).1]
      exact ⟨line, hl, hb, closing ⟨t, ht, hk⟩⟩
    · have unclosed : Token.closedOn t.pos.line opened first = [] := by
        apply Token.closedOn_eq_nil
        intro u hu
        rw [(here u hu).1]
        exact Nat.ne_of_lt (behind t ht)
      rw [unclosed, List.nil_append]
      exact later.closing t ht hk
  · intro i line' hi hl' hb' unmarked
    rcases Nat.eq_or_lt_of_le hi with rfl | hi
    · obtain rfl : line = line' := Option.some.inj (hl.symm.trans hl')
      apply level
      apply List.eq_nil_iff_forall_not_mem.2
      intro t ht
      have := unmarked t (List.mem_append_left ts ht) (here t ht).1
      simp [(here t ht).2] at this
    · apply later.level i line' hi hl' hb'
      intro t ht
      exact unmarked t (List.mem_append_right first ht)

theorem Framed.blank {n : Nat} {opened : List Token} {blocks : Indentation} {line : List Char}
    (h : Framed lines n opened blocks) (hl : lines[n]? = some line) (hb : isBlank line = true) :
    Framed lines (n + 1) opened blocks := by
  refine ⟨h.nested, ?_, ?_⟩
  · rw [lastWidth_take_succ hl, hb, if_pos rfl, h.current]
  · intro o ho
    exact Nat.lt_succ_of_lt (h.before o ho)

theorem Fits.cons_blank {n : Nat} {opened ts : List Token} {line : List Char}
    (hl : lines[n]? = some line) (hb : isBlank line = true)
    (later : Fits lines (n + 1) opened ts) : Fits lines n opened ts := by
  refine ⟨later.closing, ?_⟩
  intro i line' hi hl' hb'
  rcases Nat.eq_or_lt_of_le hi with rfl | hi
  · obtain rfl : line = line' := Option.some.inj (hl.symm.trans hl')
    simp [hb] at hb'
  · exact later.level i line' hi hl' hb'

theorem Lexer.layoutReports_eq_nil {measured : Except Indentation.Fault Indentation.Change}
    {pos : Position} (h : ∀ d ∈ layoutReports measured pos, d.problem.isLayout = false) :
    layoutReports measured pos = [] := by
  apply List.eq_nil_iff_forall_not_mem.2
  intro d mem
  have quiet := h d mem
  obtain ⟨_, _, rfl⟩ := mem_layoutReports mem
  cases quiet

theorem Token.layout_lexemes (base : Position) (ts : List Token) :
    layout ((lexemes ts).map (shift base)) = [] := by
  apply layout_eq_nil
  intro t ht
  obtain ⟨u, hu, rfl⟩ := List.mem_map.1 ht
  have real : u.isSynthetic = false := by simpa using (List.mem_filter.1 hu).2
  exact isLayout_of_not_synthetic real

theorem Framed.fits {n : Nat} {opened : List Token} {blocks : Indentation} {base : Position}
    (h : Framed lines n opened blocks) (hn : base.line = n)
    (hd : ∀ d ∈ (Lexed.ofLines blocks base (lines.drop n)).diagnostics,
      d.problem.isLayout = false) :
    Fits lines n opened (Token.layout (Lexed.ofLines blocks base (lines.drop n)).tokens) := by
  generalize hm : lines.drop n = more at hd ⊢
  -- Over the lines to come: each finds the blocks framed by the lines before it, and leaves them so.
  induction more generalizing n opened blocks base with
  | nil =>
    constructor
    · intro t ht
      cases ht
    · intro i line hi hl
      have := List.drop_eq_nil_iff.1 hm
      rw [List.getElem?_eq_none (by omega)] at hl
      cases hl
  | cons line more ih =>
    have hl : lines[n]? = some line := by
      have first : (lines.drop n)[0]? = lines[n + 0]? := List.getElem?_drop
      simpa [hm] using first.symm
    have hm' : lines.drop (n + 1) = more := by
      rw [← List.drop_drop, hm]
      rfl
    have behind {b : Indentation} {t : Token} (ht : t ∈ Token.layout
        (Lexed.ofLines b ⟨base.line + 1, base.offset + line.length⟩ more).tokens) :
        n < t.pos.line := by
      have := line_le_of_mem_ofLines (List.mem_filter.1 ht).1
      simp only at this
      omega
    rw [Lexed.ofLines] at hd ⊢
    simp only [Lexed.ofLine] at hd ⊢
    cases hb : isBlank line with
    | true =>
      simp only [hb, if_true, List.nil_append] at hd ⊢
      exact .cons_blank hl hb (ih (h.blank hl hb) (by simp [hn]) hm' hd)
    | false =>
      subst hn
      simp only [hb, Bool.false_eq_true, if_false] at hd ⊢
      have silent : Lexer.layoutReports (blocks.measure (widthOf line)).1
          ⟨base.line, base.offset + widthOf line⟩ = [] :=
        Lexer.layoutReports_eq_nil fun d mem => hd d (by simp [mem])
      have here : ∀ t ∈ Lexer.layoutTokens (blocks.measure (widthOf line)).1
          ⟨base.line, base.offset + widthOf line⟩,
          t.pos.line = base.line ∧ t.kind.isLayout = true := by
        intro t ht
        rcases Lexer.mem_layoutTokens ht with rfl | rfl <;> exact ⟨rfl, rfl⟩
      obtain ⟨framed, closing, level⟩ := h.line hl hb _ silent
      have later := ih framed rfl hm' fun d mem => hd d (List.mem_append_right _ mem)
      rw [Token.layout_append, Token.layout_append, Token.layout_lexemes, List.append_nil,
        Token.layout, List.filter_eq_self.2 fun t ht => (here t ht).2]
      exact .cons_line hl hb here closing level later fun t ht => behind ht

/-- Layout nests; and where no depth is reported, the lines that close blocks and those without
layout are as deep as lines before them. -/
theorem tokenize_nested (source : String) :
    (∀ before, before <+: (tokenize source).tokens →
      (before.map Token.kind).count .dedent ≤ (before.map Token.kind).count .indent) ∧
    ((∀ d ∈ (tokenize source).diagnostics, d.problem.isLayout = false) →
      Fits (linesOf source.toList) 0 [] (tokenize source).tokens) := by
  constructor
  · intro before hb
    rw [tokenize_eq] at hb
    have read := (Lexer.start (.ofList source.toList)).reads_run.1.levels
    have ending (pos : Position) (n : Nat) : Levels n [.synthetic .eof pos] n :=
      .of_not_layout (by simp [Token.synthetic, TokenKind.isLayout]) n
    exact (read.append (ending _ _)).never_below before hb
  · intro quiet
    obtain ⟨tokens, diagnostics⟩ := Lexer.run_ofLines source.toList .zero .base
    have framed : Framed (linesOf source.toList) 0 [] .base := ⟨.base, rfl, by simp⟩
    have whole : Lexer.start (.ofList source.toList) = ⟨⟨source.toList, .zero, true⟩, .base⟩ := rfl
    simp only [tokenize_eq, whole, tokens, diagnostics] at quiet ⊢
    apply Fits.of_layout
    rw [Token.layout_append]
    simpa [Token.layout, Token.synthetic, TokenKind.isLayout] using framed.fits rfl quiet

/-- Two blocks closed at once behind blank lines, and then a line as deep as the one before. -/
theorem tokenize_nested_blank :
    (∀ d ∈ (tokenize "f\n  g\n\n      h \"\n   \n      é\nx\n\nx").diagnostics,
        d.problem.isLayout = false) ∧
      Fits (linesOf "f\n  g\n\n      h \"\n   \n      é\nx\n\nx".toList) 0 []
        (tokenize "f\n  g\n\n      h \"\n   \n      é\nx\n\nx").tokens := by
  have quiet : ∀ d ∈ (tokenize "f\n  g\n\n      h \"\n   \n      é\nx\n\nx").diagnostics,
      d.problem.isLayout = false := by decide +kernel
  exact ⟨quiet, (tokenize_nested _).2 quiet⟩

end Offside
