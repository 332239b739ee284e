import Offside.Interactive.Highlight
import Offside.Proofs.Positions
import Offside.Proofs.Rendering

/-! # Highlighting

Highlighting a line only adds what selects styles. The pieces make up the line wherever the tokens
are, since each piece goes on where the last one ended. That no piece is asked for backwards, or
from outside of the line, does depend on the tokens: they come in the order of the line, each before
the next one and none behind the end. -/

namespace Offside

namespace Terminal

/-- The text without what goes from an escape character to the next small letter m, or to the end if
there is none. -/
def stripped : List Char → List Char
  | [] => []
  | c :: cs => if c = '\x1b' then stripped (cs.dropWhile (· ≠ 'm')).tail else c :: stripped cs
  termination_by cs => cs.length
  decreasing_by
    · have := (List.dropWhile_suffix (l := cs) (· ≠ 'm')).length_le
      simp only [List.length_tail, List.length_cons]
      omega
    · simp

/-- Where nothing but styles begins with an escape character, they are all there is to take away. -/
theorem stripped_eq_unstyled {cs : List Char} (h : '\x1b' ∉ unstyled cs) :
    stripped cs = unstyled cs := by
  fun_induction unstyled cs with
  | case1 => rw [stripped]
  | case2 c cs opens ih => rw [stripped, if_pos opens.1, ih h]
  | case3 c cs opens ih =>
    have plain : c ≠ '\x1b' := fun he => h (he ▸ List.mem_cons_self)
    rw [stripped, if_neg plain, ih (List.not_mem_of_not_mem_cons h)]

theorem Color.shows_ink (color : Color) {s : String} (h : '\x1b' ∉ s.toList) :
    Shows (color.ink s) s := by
  simpa [ink] using ((shows_select [color.code]).append (shows_self h)).append (shows_select [39])

end Terminal

namespace Interactive

open Terminal (Shows)

variable {bad : List ℕ} {text cs : List Char} {t : Token} {ts : List Token}

def tokenSpan (t : Token) (cs : List Char) : List Token → List Char
  | [] => cs
  | following :: _ => cs.take (following.pos.offset - t.pos.offset)

theorem piecesFrom_cons (bad : List ℕ) (offset : ℕ) (rest : List Char) (t : Token)
    (ts : List Token) :
    let gap := t.pos.offset - offset
    let span := tokenSpan t (rest.drop gap) ts
    piecesFrom bad offset rest (t :: ts) = gapPieces bad offset (rest.take gap) ++
      .lexeme t.kind (span.take (lexemeLength t span)) ::
        piecesFrom bad (t.pos.offset + lexemeLength t span)
          ((rest.drop gap).drop (lexemeLength t span)) ts := by
  cases ts <;> rfl

theorem tokenSpan_isPrefix (t : Token) (cs : List Char) (ts : List Token) :
    tokenSpan t cs ts <+: cs := by
  cases ts with
  | nil => exact List.prefix_rfl
  | cons following ts => exact List.take_prefix _ _

theorem lexemeLength_le (t : Token) (span : List Char) : lexemeLength t span ≤ span.length := by
  have blanks : (Text.dropBlanksEnd span).length ≤ span.length := by
    rw [Text.dropBlanksEnd, List.length_reverse, ← span.length_reverse]
    exact (List.dropWhile_suffix _).length_le
  unfold lexemeLength
  split
  · exact blanks
  · exact blanks
  · exact Nat.min_le_right _ _

theorem take_lexemeLength (t : Token) (cs : List Char) (ts : List Token) :
    let span := tokenSpan t cs ts
    span.take (lexemeLength t span) = cs.take (lexemeLength t span) := by
  intro span
  obtain ⟨behind, split⟩ := tokenSpan_isPrefix t cs ts
  have within := lexemeLength_le t span
  rw [← split, List.take_append_of_le_length within]

theorem gapPieces_source (bad : List ℕ) (offset : ℕ) (gap : List Char) :
    (gapPieces bad offset gap).flatMap Piece.source = gap := by
  have one (x : Char × ℕ) :
      (if bad.contains x.2 then Piece.unrecognized x.1 else .plain x.1).source = [x.1] := by
    split <;> rfl
  rw [gapPieces, List.flatMap_map]
  simp only [one]
  rw [← List.map_eq_flatMap, List.zipIdx_map_fst]

theorem piecesFrom_source (bad : List ℕ) (offset : ℕ) (rest : List Char) (ts : List Token) :
    (piecesFrom bad offset rest ts).flatMap Piece.source = rest := by
  induction ts generalizing offset rest with
  | nil => exact gapPieces_source bad offset rest
  | cons t ts ih =>
    rw [piecesFrom_cons, List.flatMap_append, gapPieces_source, List.flatMap_cons, ih, Piece.source,
      take_lexemeLength, List.take_append_drop, List.take_append_drop]

theorem pieces_source (line : String) : (pieces line).flatMap Piece.source = line.toList :=
  piecesFrom_source _ _ _ _

theorem Piece.shows_render {p : Piece} (h : '\x1b' ∉ p.source) :
    Shows p.render (String.ofList p.source) := by
  have written : '\x1b' ∉ (String.ofList p.source).toList := by rwa [String.toList_ofList]
  cases p with
  | plain c => exact Terminal.shows_self written
  | unrecognized c => exact Terminal.Color.red.shows_ink written
  | lexeme kind text => exact kind.style.shows_paint written

theorem shows_pieces {ps : List Piece} (h : '\x1b' ∉ ps.flatMap Piece.source) :
    Shows (String.join (ps.map Piece.render)) (String.ofList (ps.flatMap Piece.source)) := by
  induction ps with
  | nil => exact Terminal.shows_self h
  | cons p ps ih =>
    rw [List.flatMap_cons, List.mem_append, not_or] at h
    rw [List.map_cons, String.join_cons, List.flatMap_cons, String.ofList_append]
    exact (Piece.shows_render h.1).append (ih h.2)

def slice? (text : List Char) (start stop : ℕ) : Option (List Char) :=
  if start ≤ stop ∧ stop ≤ text.length then some ((text.drop start).take (stop - start)) else none

def nextStart (text : List Char) : List Token → ℕ
  | [] => text.length
  | following :: _ => following.pos.offset

def lexemeEnd? (text : List Char) (t : Token) (next : ℕ) : Option ℕ :=
  match t.kind with
  | .string | .unit =>
    (slice? text t.pos.offset next).map fun span =>
      t.pos.offset + (Text.dropBlanksEnd span).length
  | _ => some (min (t.pos.offset + t.length) next)

/-- The pieces from `start` on, cut at places of the whole text, unless some cut has none there. -/
def slicedFrom? (bad : List ℕ) (text : List Char) (start : ℕ) : List Token → Option (List Piece)
  | [] => some (gapPieces bad start (text.drop start))
  | t :: ts => do
    let stop ← lexemeEnd? text t (nextStart text ts)
    let lexeme ← slice? text t.pos.offset stop
    let later ← slicedFrom? bad text stop ts
    return gapPieces bad start ((text.take t.pos.offset).drop start) ++
      .lexeme t.kind lexeme :: later

def slicedPieces? (line : String) : Option (List Piece) :=
  slicedFrom? (unrecognizedOffsets (tokenize line).diagnostics) line.toList 0
    (Token.lexemes (tokenize line).tokens)

structure Ahead (text : List Char) (start : ℕ) (ts : List Token) : Prop where
  start_le : start ≤ nextStart text ts
  within : ∀ t ∈ ts, t.pos.offset ≤ text.length
  ordered : ts.Pairwise fun t u => t.pos.offset < u.pos.offset

variable {start stop : ℕ}

theorem Ahead.nextStart_le (h : Ahead text start ts) : nextStart text ts ≤ text.length := by
  cases ts with
  | nil => exact Nat.le_refl _
  | cons t ts => exact h.within t List.mem_cons_self

theorem Ahead.of_cons (h : Ahead text start (t :: ts)) :
    start ≤ t.pos.offset ∧ Ahead text t.pos.offset ts := by
  obtain ⟨within, later⟩ := List.forall_mem_cons.1 h.within
  obtain ⟨before, ordered⟩ := List.pairwise_cons.1 h.ordered
  refine ⟨h.start_le, ?_, later, ordered⟩
  cases ts with
  | nil => exact within
  | cons u ts => exact (before u List.mem_cons_self).le

theorem slice?_of_le (h : start ≤ stop) (hs : stop ≤ text.length) :
    slice? text start stop = some ((text.drop start).take (stop - start)) :=
  if_pos ⟨h, hs⟩

theorem length_of_slice? (h : slice? text start stop = some cs) :
    cs.length = stop - start := by
  obtain ⟨⟨-, within⟩, cut⟩ := Option.ite_none_right_eq_some.1 h
  rw [← Option.some.inj cut, List.length_take, List.length_drop]
  omega

theorem slice?_tokenSpan (h : Ahead text t.pos.offset ts) :
    slice? text t.pos.offset (nextStart text ts) =
      some (tokenSpan t (text.drop t.pos.offset) ts) := by
  rw [slice?_of_le h.start_le h.nextStart_le]
  cases ts with
  | nil => rw [nextStart, ← List.length_drop, List.take_length, tokenSpan]
  | cons following ts => rfl

theorem lexemeEnd?_eq (h : Ahead text t.pos.offset ts) :
    lexemeEnd? text t (nextStart text ts) = some (t.pos.offset +
      lexemeLength t (tokenSpan t (text.drop t.pos.offset) ts)) := by
  have sliced := slice?_tokenSpan h
  have bound : min (t.pos.offset + t.length) (nextStart text ts) =
      t.pos.offset + min t.length (nextStart text ts - t.pos.offset) := by
    have := h.start_le
    omega
  unfold lexemeEnd? lexemeLength
  rw [sliced, length_of_slice? sliced, bound]
  cases t.kind <;> rfl

/-- The other tokens are ahead of where the first one ends. -/
theorem Ahead.behind (h : Ahead text start (t :: ts)) :
    Ahead text (t.pos.offset + lexemeLength t (tokenSpan t (text.drop t.pos.offset) ts)) ts := by
  obtain ⟨-, ahead⟩ := h.of_cons
  have inside := lexemeLength_le t (tokenSpan t (text.drop t.pos.offset) ts)
  rw [length_of_slice? (slice?_tokenSpan ahead)] at inside
  have next := ahead.start_le
  exact { ahead with start_le := by omega }

/-- Where the tokens are in order, no cut lies outside of the text. -/
theorem slicedFrom?_eq (h : Ahead text start ts) :
    slicedFrom? bad text start ts = some (piecesFrom bad start (text.drop start) ts) := by
  induction ts generalizing start with
  | nil => rfl
  | cons t ts ih =>
    obtain ⟨start_le, ahead⟩ := h.of_cons
    have later := h.behind
    have inside := later.start_le.trans later.nextStart_le
    have dropped : (text.drop start).drop (t.pos.offset - start) = text.drop t.pos.offset := by
      rw [List.drop_drop, Nat.add_sub_cancel' start_le]
    rw [slicedFrom?, lexemeEnd?_eq ahead, piecesFrom_cons, dropped, take_lexemeLength,
      List.drop_drop, ← List.drop_take]
    generalize lexemeLength t (tokenSpan t (text.drop t.pos.offset) ts) = length at inside later ⊢
    have cut : slice? text t.pos.offset (t.pos.offset + length) =
        some ((text.drop t.pos.offset).take length) := by
      rw [slice?_of_le (Nat.le_add_right _ _) inside, Nat.add_sub_cancel_left]
    simp [cut, ih later]

theorem ahead_lexemes (line : String) :
    Ahead line.toList 0 (Token.lexemes (tokenize line).tokens) := by
  have located := tokenize_located line
  exact ⟨Nat.zero_le _, fun t ht => (located.tokens_right t (List.mem_filter.1 ht).1).within,
    located.lexemes_ordered⟩

theorem slicedPieces?_eq (line : String) : slicedPieces? line = some (pieces line) :=
  slicedFrom?_eq (ahead_lexemes line)

end Interactive

open Interactive (highlightSource pieces slicedPieces?)

/-- No cut lies outside of the line, and what highlighting adds can be taken away again. -/
theorem highlightSource_keeps (line : String) :
    slicedPieces? line = some (pieces line) ∧
      ('\x1b' ∉ line.toList → Terminal.stripped (highlightSource line).toList = line.toList) := by
  refine ⟨Interactive.slicedPieces?_eq line, fun h => ?_⟩
  have source := Interactive.pieces_source line
  have shows : Terminal.Shows (highlightSource line) (String.ofList line.toList) := by
    rw [← source] at h ⊢
    exact Interactive.shows_pieces h
  have same := shows.unstyled_eq
  rw [String.toList_ofList] at same
  rw [Terminal.stripped_eq_unstyled (by rwa [same]), same]

/-- Strings that a newline and the end break off, a wide unit, characters that begin nothing. -/
theorem highlightSource_keeps_broken :
    let line := "f ( ) § \"a\\\"\n0x1F.é\u00a0[m \"\\\u2003"
    '\x1b' ∉ line.toList ∧ highlightSource line ≠ line ∧
      Terminal.stripped (highlightSource line).toList = line.toList ∧
      slicedPieces? line = some (pieces line) := by
  intro line
  have plain : '\x1b' ∉ line.toList := by decide
  obtain ⟨sliced, shown⟩ := highlightSource_keeps line
  exact ⟨plain, by decide +kernel, shown plain, sliced⟩

end Offside
