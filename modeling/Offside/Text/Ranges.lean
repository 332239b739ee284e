/-! # Ranges of code points -/

namespace Offside.Text

/-- Whether one of the ranges holds `n`; they are in increasing order, both ends included. -/
def inRanges (n : Nat) : List (Nat × Nat) → Bool
  | [] => false
  | (low, high) :: more => low ≤ n && (n ≤ high || inRanges n more)

end Offside.Text
