import Mathlib.Data.String.Basic
import Mathlib.Tactic.SplitIfs
import Offside.Text.Bytes

/-! # Cuts at bytes

A text can be cut at a byte only where one of its characters ends. Where it is known what is before
the cut, the bytes of that say where to cut. -/

namespace Offside.Text

variable {before behind cs : List Char} {n : ℕ}

theorem byteCount_append (cs ds : List Char) :
    byteCount (cs ++ ds) = byteCount cs + byteCount ds := by
  induction cs with
  | nil => exact (Nat.zero_add _).symm
  | cons c cs ih => rw [List.cons_append, byteCount, byteCount, ih, Nat.add_assoc]

theorem utf8ByteSize_eq (s : String) : s.utf8ByteSize = byteCount s.toList := by
  have count (cs : List Char) : String.utf8Len cs = byteCount cs := by
    induction cs with
    | nil => rfl
    | cons c cs ih => rw [String.utf8Len_cons, ih, byteCount, Nat.add_comm]
  rw [← count, ← String.utf8ByteSize_ofList, String.ofList_toList]

theorem byteCount_eq_length (h : ∀ c ∈ cs, c.toNat < 0x80) : byteCount cs = cs.length := by
  induction cs with
  | nil => rfl
  | cons c cs ih =>
    obtain ⟨first, later⟩ := List.forall_mem_cons.1 h
    have low : c.val ≤ 0x7f := UInt32.le_iff_toNat_le.2 (Nat.le_of_lt_succ first)
    have size : c.utf8Size = 1 := by simp [Char.utf8Size, low]
    rw [byteCount, size, ih later, List.length_cons, Nat.add_comm]

theorem takeBytes_append (before behind : List Char) :
    takeBytes (before ++ behind) (byteCount before) = before := by
  induction before with
  | nil =>
    cases behind with
    | nil => rfl
    | cons c cs =>
      have := c.utf8Size_pos
      rw [List.nil_append, byteCount, takeBytes, if_neg (by omega)]
  | cons c cs ih =>
    rw [List.cons_append, byteCount, takeBytes, if_pos (Nat.le_add_right _ _),
      Nat.add_sub_cancel_left, ih]

/-- The text cut at a byte, unless that is inside of a character or behind the end. -/
def cut? : List Char → ℕ → Option (List Char × List Char)
  | [], n => if n = 0 then some ([], []) else none
  | c :: rest, n =>
    if n = 0 then some ([], c :: rest)
    else if c.utf8Size ≤ n then
      (cut? rest (n - c.utf8Size)).map fun cut => (c :: cut.1, cut.2)
    else none

theorem cut?_append (before behind : List Char) :
    cut? (before ++ behind) (byteCount before) = some (before, behind) := by
  induction before with
  | nil => cases behind <;> rfl
  | cons c cs ih =>
    have := c.utf8Size_pos
    rw [List.cons_append, byteCount, cut?, if_neg (by omega), if_pos (Nat.le_add_right _ _),
      Nat.add_sub_cancel_left, ih]
    rfl

theorem cut?_eq_some_iff :
    cut? cs n = some (before, behind) ↔ cs = before ++ behind ∧ byteCount before = n := by
  constructor
  · intro h
    induction cs generalizing n before with
    | nil =>
      obtain ⟨rfl, cut⟩ := Option.ite_none_right_eq_some.1 h
      cases cut
      exact ⟨rfl, rfl⟩
    | cons c rest ih =>
      rw [cut?] at h
      split_ifs at h with zero inside
      · cases h
        exact ⟨rfl, zero.symm⟩
      · obtain ⟨⟨first, last⟩, later, cut⟩ := Option.map_eq_some_iff.1 h
        cases cut
        obtain ⟨split, count⟩ := ih later
        rw [byteCount, count, split]
        exact ⟨rfl, by omega⟩
  · rintro ⟨rfl, rfl⟩
    exact cut?_append before behind

def byteSlice? (cs : List Char) (start stop : ℕ) : Option (List Char) :=
  (cut? cs stop).bind fun cut => (cut? cut.1 start).map Prod.snd

theorem byteSlice?_append (before slice behind : List Char) :
    byteSlice? (before ++ slice ++ behind) (byteCount before) (byteCount (before ++ slice)) =
      some slice := by
  rw [byteSlice?, cut?_append, Option.bind_some, cut?_append]
  rfl

/-- The whole text up to a cut. -/
theorem byteSlice?_zero (before behind : List Char) :
    byteSlice? (before ++ behind) 0 (byteCount before) = some before := by
  simpa [byteCount] using byteSlice?_append [] before behind

end Offside.Text
