import Offside.Lexeme.Number
import Offside.Lexeme.Word
import Offside.Lexeme.Sign
import Offside.Lexeme.StringLiteral

/-! # Reading a lexeme

The first character decides which kind of lexeme a text begins with. -/

namespace Offside.Lexeme

def read? (cs : List Char) : Option Lexeme :=
  match cs with
  | [] => none
  | c :: _ =>
    if c.isDigit then some (number cs)
    else if isWordStart c then some (word cs)
    else if isOperator c then some (operator cs)
    else if isGrouping c then grouping? cs
    else if c = '"' then some (stringLiteral cs)
    else none

theorem number_extent_pos (c : Char) (cs : List Char) : 0 < (number (c :: cs)).extent := by
  unfold number
  split
  · have h : 0 < (Number.whole (c :: cs)).length := by
      by_cases hc : c = '0' <;> simp [Number.whole, hc]
    simp only [verbatim, List.length_append]
    omega
  · next digits h =>
    simp only [verbatim]
    exact List.length_pos_iff.2 h

theorem operator_extent_pos {c : Char} (cs : List Char) (h : isOperator c = true) :
    0 < (operator (c :: cs)).extent := by
  simp [operator, verbatim, h]

theorem grouping?_extent_pos {cs : List Char} {l : Lexeme} (h : grouping? cs = some l) :
    0 < l.extent := by
  unfold grouping? at h
  split at h
  · simp at h
  · next c rest =>
    split at h
    · simp at h
    · split at h
      · next extent hu =>
        have : extent ≠ 0 := by
          unfold unitExtent? at hu
          split at hu
          · simp only [Option.ite_none_right_eq_some, Option.some.injEq] at hu
            omega
          · simp at hu
        cases h
        exact Nat.pos_of_ne_zero this
      · cases h
        simp [verbatim]

theorem stringLiteral_extent_pos (c : Char) (cs : List Char) :
    0 < (stringLiteral (c :: cs)).extent := by
  unfold stringLiteral
  simp only [List.take_succ_cons, List.take_zero, List.length_singleton]
  split <;> simp only <;> omega

/-- Whatever is read covers at least one character. -/
theorem read?_extent_pos {cs : List Char} {l : Lexeme} (h : read? cs = some l) :
    0 < l.extent := by
  unfold read? at h
  split at h
  · simp at h
  · next c rest =>
    split at h
    · cases h; exact number_extent_pos c rest
    · split at h
      · cases h; simp [word, verbatim]
      · split at h
        · next ho => cases h; exact operator_extent_pos rest ho
        · split at h
          · exact grouping?_extent_pos h
          · split at h
            · cases h; exact stringLiteral_extent_pos c rest
            · simp at h

end Offside.Lexeme
