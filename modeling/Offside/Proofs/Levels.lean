import Mathlib.Data.List.Induction
import Mathlib.Order.Bounds.Basic
import Offside.Proofs.Moves

/-! # Levels

Levels are opened and closed on request, and a request that is refused may still have closed some.
Whatever is requested, in whatever order, the levels go on rising from the base level. That is all
there is to know of them: it settles what every further request does and what it answers. -/

namespace Offside

namespace Indentation

inductive Request where
  | measure (width : ℕ)
  | increaseTo (width : ℕ)
  | decreaseTo (width : ℕ)

def request (i : Indentation) : Request → Indentation
  | .measure width => (i.measure width).2
  | .increaseTo width => (i.increaseTo width).2
  | .decreaseTo width => (i.decreaseTo width).2

def requested (rs : List Request) : Indentation := rs.foldl request base

def Rising (i : Indentation) : Prop := i.levels.Pairwise (· < ·)

variable {i : Indentation} {width : ℕ}

theorem levels_cons (width : ℕ) (widths : List ℕ) :
    levels ⟨width :: widths⟩ = levels ⟨widths⟩ ++ [width] := by
  simp [levels]

theorem getLast?_levels (i : Indentation) : i.levels.getLast? = some i.current := by
  obtain ⟨_ | ⟨w, ws⟩⟩ := i
  · rfl
  · rw [levels_cons, List.getLast?_concat]
    rfl

/-- The innermost level is the deepest. -/
theorem Rising.isGreatest (h : i.Rising) : IsGreatest {v | v ∈ i.levels} i.current := by
  obtain ⟨outer, split⟩ := List.getLast?_eq_some_iff.1 (getLast?_levels i)
  unfold Rising at h
  rw [split] at h ⊢
  refine ⟨List.mem_concat_self, ?_⟩
  intro v hv
  rcases List.mem_append.1 hv with hv | hv
  · exact ((List.pairwise_append.1 h).2.2 v hv _ List.mem_cons_self).le
  · exact (List.mem_singleton.1 hv).le

/-- The blocks that are closed are the deeper ones, and the others stay open. -/
theorem Rising.split (h : i.Rising) (width : ℕ) :
    i.widths.takeWhile (width < ·) = i.widths.filter (width < ·) ∧
      i.widths.dropWhile (width < ·) = i.widths.filter (· ≤ width) := by
  have falling : i.widths.Pairwise (· > ·) := List.pairwise_reverse.1 h.of_cons
  generalize i.widths = widths at falling ⊢
  induction widths with
  | nil => exact ⟨rfl, rfl⟩
  | cons w ws ih =>
    by_cases deeper : width < w
    · have out : ¬ w ≤ width := Nat.not_le.2 deeper
      simp [deeper, out, ih falling.of_cons]
    · have around : ∀ v ∈ ws, v ≤ width := by
        intro v hv
        have := List.rel_of_pairwise_cons falling hv
        omega
      have noneDeeper : ws.filter (width < ·) = [] := by
        apply List.filter_eq_nil_iff.2
        intro v hv
        have := around v hv
        simp only [decide_eq_true_eq]
        omega
      have all : ws.filter (· ≤ width) = ws := by
        apply List.filter_eq_self.2
        intro v hv
        exact decide_eq_true (around v hv)
      simp [deeper, Nat.not_lt.1 deeper, noneDeeper, all]

theorem Rising.levels_kept (h : i.Rising) (width : ℕ) :
    levels ⟨i.widths.dropWhile (width < ·)⟩ = i.levels.filter (· ≤ width) := by
  rw [(h.split width).2]
  simp [levels]

/-- A block is closed if the innermost one is too deep. -/
theorem closed_pos (h : width < i.current) : 0 < (i.widths.takeWhile (width < ·)).length := by
  obtain ⟨_ | ⟨w, ws⟩⟩ := i
  · cases h
  · have deeper : width < w := h
    simp [deeper]

theorem closed_add_kept (i : Indentation) (width : ℕ) :
    (i.widths.takeWhile (width < ·)).length +
      (levels ⟨i.widths.dropWhile (width < ·)⟩).length = i.levels.length := by
  have all := congrArg List.length
    (List.takeWhile_append_dropWhile (p := (width < ·)) (l := i.widths))
  rw [List.length_append] at all
  simp only [levels, List.length_cons, List.length_reverse]
  omega

theorem increaseTo_of_lt (h : i.current < width) :
    i.increaseTo width = (.ok (), ⟨width :: i.widths⟩) :=
  if_neg (Nat.not_le.2 h)

theorem decreaseTo_of_lt (h : width < i.current) :
    let kept : Indentation := ⟨i.widths.dropWhile (width < ·)⟩
    let popped := (i.widths.takeWhile (width < ·)).length
    i.decreaseTo width =
      if kept.current = width then (.ok popped, kept)
      else (.error (.misaligned width popped kept.current), kept) :=
  if_neg (Nat.not_le.2 h)

theorem rising_base : base.Rising := List.pairwise_singleton _ _

theorem Rising.kept (h : i.Rising) (width : ℕ) : Rising ⟨i.widths.dropWhile (width < ·)⟩ := by
  unfold Rising
  rw [h.levels_kept]
  exact h.filter _

theorem Rising.increaseTo (h : i.Rising) (width : ℕ) : (i.increaseTo width).2.Rising := by
  by_cases deeper : i.current < width
  · rw [increaseTo_of_lt deeper]
    unfold Rising
    rw [levels_cons]
    refine List.pairwise_append.2 ⟨h, List.pairwise_singleton _ _, ?_⟩
    intro v hv w hw
    rw [List.mem_singleton.1 hw]
    exact (h.isGreatest.2 hv).trans_lt deeper
  · rw [Indentation.increaseTo, if_pos (Nat.not_lt.1 deeper)]
    exact h

theorem Rising.decreaseTo (h : i.Rising) (width : ℕ) : (i.decreaseTo width).2.Rising := by
  by_cases shallower : width < i.current
  · rw [decreaseTo_of_lt shallower]
    split <;> exact h.kept width
  · rw [Indentation.decreaseTo, if_pos (Nat.not_lt.1 shallower)]
    exact h

theorem Rising.measure (h : i.Rising) (width : ℕ) : (i.measure width).2.Rising := by
  unfold Indentation.measure
  split
  · exact h.increaseTo width
  · split
    · exact h.decreaseTo width
    · exact h

theorem rising_requested (rs : List Request) : (requested rs).Rising := by
  induction rs using List.reverseRecOn with
  | nil => exact rising_base
  | append_singleton rs r ih =>
    rw [requested, List.foldl_append]
    cases r with
    | measure width => exact ih.measure width
    | increaseTo width => exact ih.increaseTo width
    | decreaseTo width => exact ih.decreaseTo width

/-- What measuring a line can answer. It makes no request that is refused outright, and it counts
closed levels only where it closes some. -/
def CanAnswer (i : Indentation) (width : ℕ) : Except Fault Change → Prop
  | .ok .unchanged => width = i.current
  | .ok .indent => i.current < width
  | .ok (.dedent popped) => width < i.current ∧ 0 < popped
  | .error (.misaligned _ popped _) => width < i.current ∧ 0 < popped
  | .error _ => False

structure Lawful (i : Indentation) : Prop where
  rising : i.levels.Pairwise (· < ·)
  bottom : i.levels.head? = some 0
  top : i.levels.getLast? = some i.current
  opens : ∀ w, i.current < w →
    (i.increaseTo w).1 = .ok () ∧ (i.increaseTo w).2.levels = i.levels ++ [w]
  notDeeper : ∀ w, w ≤ i.current → i.increaseTo w = (.error (.notDeeper w i.current), i)
  notShallower : ∀ w, i.current ≤ w → i.decreaseTo w = (.error (.notShallower w i.current), i)
  closes : ∀ w, w < i.current → (i.decreaseTo w).2.levels = i.levels.filter (· ≤ w)
  closed : ∀ w, w < i.current → ∃ popped, 0 < popped ∧
    popped + (i.decreaseTo w).2.levels.length = i.levels.length ∧
    if w ∈ i.levels then (i.decreaseTo w).1 = .ok popped
    else ∃ landedOn, (i.decreaseTo w).1 = .error (.misaligned w popped landedOn) ∧
      IsGreatest {v | v ∈ i.levels ∧ v < w} landedOn
  measured : ∀ w, i.CanAnswer w (i.measure w).1

theorem canAnswer_measure (i : Indentation) (width : ℕ) :
    i.CanAnswer width (i.measure width).1 := by
  rw [measure_eq]
  by_cases deeper : i.current < width
  · rw [if_pos deeper]
    exact deeper
  · rw [if_neg deeper]
    by_cases shallower : width < i.current
    · rw [if_pos shallower]
      dsimp only
      split <;> exact ⟨shallower, closed_pos shallower⟩
    · rw [if_neg shallower]
      exact le_antisymm (Nat.not_lt.1 deeper) (Nat.not_lt.1 shallower)

theorem decreaseTo_kept (h : width < i.current) :
    (i.decreaseTo width).2 = ⟨i.widths.dropWhile (width < ·)⟩ := by
  rw [decreaseTo_of_lt h]
  split <;> rfl

theorem Rising.isGreatest_kept (h : i.Rising) (width : ℕ) :
    IsGreatest {v | v ∈ i.levels ∧ v ≤ width}
      (Indentation.mk (i.widths.dropWhile (width < ·))).current := by
  have greatest := (h.kept width).isGreatest
  simpa only [h.levels_kept, List.mem_filter, decide_eq_true_eq] using greatest

/-- A level of just that width is left if there was one. -/
theorem Rising.current_kept_eq_iff (h : i.Rising) (width : ℕ) :
    (Indentation.mk (i.widths.dropWhile (width < ·))).current = width ↔ width ∈ i.levels := by
  obtain ⟨⟨mem, le⟩, greatest⟩ := h.isGreatest_kept width
  constructor
  · intro landed
    rwa [landed] at mem
  · intro there
    exact le_antisymm le (greatest ⟨there, le_refl width⟩)

theorem Rising.closed (h : i.Rising) (hw : width < i.current) : ∃ popped, 0 < popped ∧
    popped + (i.decreaseTo width).2.levels.length = i.levels.length ∧
    if width ∈ i.levels then (i.decreaseTo width).1 = .ok popped
    else ∃ landedOn, (i.decreaseTo width).1 = .error (.misaligned width popped landedOn) ∧
      IsGreatest {v | v ∈ i.levels ∧ v < width} landedOn := by
  refine ⟨_, closed_pos hw, ?_, ?_⟩
  · rw [decreaseTo_kept hw]
    exact closed_add_kept i width
  · have landed := h.current_kept_eq_iff width
    obtain ⟨⟨mem, le⟩, greatest⟩ := h.isGreatest_kept width
    rw [decreaseTo_of_lt hw]
    by_cases there : width ∈ i.levels
    · rw [if_pos there, if_pos (landed.2 there)]
    · have missed := mt landed.1 there
      rw [if_neg there, if_neg missed]
      refine ⟨_, rfl, ⟨mem, lt_of_le_of_ne le missed⟩, ?_⟩
      rintro v ⟨hv, shallower⟩
      exact greatest ⟨hv, shallower.le⟩

theorem Rising.lawful (h : i.Rising) : i.Lawful where
  rising := h
  bottom := rfl
  top := getLast?_levels i
  opens w hw := by
    rw [increaseTo_of_lt hw]
    exact ⟨rfl, levels_cons w i.widths⟩
  notDeeper w hw := if_pos hw
  notShallower w hw := if_pos hw
  closes w hw := by
    rw [decreaseTo_kept hw]
    exact h.levels_kept w
  closed w hw := h.closed hw
  measured w := canAnswer_measure i w

end Indentation

/-- A measured line that has no token to begin with is as deep as the innermost level. -/
theorem Lexer.width_of_no_tokens {l m : Lexer} {width : ℕ} {ds : List Diagnostic}
    (h : l.measureLine width = .found [] ds m) : width = l.blocks.current := by
  have answer := l.blocks.canAnswer_measure width
  rw [measureLine_eq] at h
  injection h with tokens
  generalize (l.blocks.measure width).1 = measured at answer tokens
  have impossible {popped : ℕ} (hp : 0 < popped)
      (ht : List.replicate popped (Token.synthetic .dedent l.cursor.pos) = []) : False := by
    rw [List.replicate_eq_nil_iff] at ht
    omega
  cases measured with
  | ok change =>
    cases change with
    | unchanged => exact answer
    | indent => cases tokens
    | dedent popped => exact (impossible answer.2 tokens).elim
  | error fault =>
    cases fault with
    | notDeeper => exact answer.elim
    | notShallower => exact answer.elim
    | misaligned _ popped _ => exact (impossible answer.2 tokens).elim

/-- The levels that any requests leave are lawful; and where these are the levels of a lexer, it
passes over a measured line without a token only if the line is as deep as the innermost of them. -/
theorem requested_lawful (rs : List Indentation.Request) :
    (Indentation.requested rs).Lawful ∧
      ∀ l : Lexer, l.blocks = Indentation.requested rs → ∀ width ds m,
        l.measureLine width = .found [] ds m → width = (Indentation.requested rs).current := by
  refine ⟨(Indentation.rising_requested rs).lawful, ?_⟩
  intro l hl width ds m h
  rw [← hl]
  exact Lexer.width_of_no_tokens h

/-- Two blocks are closed at once although the line is as deep as no other. -/
theorem requested_lawful_misaligned :
    let i := Indentation.requested [.measure 2, .increaseTo 6, .decreaseTo 9, .measure 8]
    let l : Lexer := ⟨.ofList ['x'], i⟩
    i.levels = [0, 2, 6, 8] ∧ i.Lawful ∧
      5 < i.current ∧ i.decreaseTo 5 = (.error (.misaligned 5 2 2), ⟨[2]⟩) ∧
      l.measureLine 8 = .found [] [] ⟨l.cursor.leaveLineStart, i⟩ ∧ 8 = i.current := by
  intro i l
  obtain ⟨lawful, level⟩ :=
    requested_lawful [.measure 2, .increaseTo 6, .decreaseTo 9, .measure 8]
  exact ⟨rfl, lawful, by decide, rfl, rfl, level l rfl 8 _ _ rfl⟩

end Offside
