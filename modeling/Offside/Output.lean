/-! # Output -/

namespace Offside

structure Output where
  out : String
  err : String
  deriving DecidableEq

namespace Output

def empty : Output := ⟨"", ""⟩

def ofOut (text : String) : Output := ⟨text, ""⟩

def ofErr (text : String) : Output := ⟨"", text⟩

def line (text : String) : Output := ofOut (text ++ "\n")

def errLine (text : String) : Output := ofErr (text ++ "\n")

def append (a b : Output) : Output := ⟨a.out ++ b.out, a.err ++ b.err⟩

instance : Append Output := ⟨append⟩

theorem append_empty (a : Output) : a ++ empty = a := by
  show mk (a.out ++ "") (a.err ++ "") = a
  rw [String.append_empty, String.append_empty]

theorem append_assoc (a b c : Output) : a ++ b ++ c = a ++ (b ++ c) := by
  show mk (a.out ++ b.out ++ c.out) (a.err ++ b.err ++ c.err) = _
  rw [String.append_assoc, String.append_assoc]
  rfl

def concat (parts : List Output) : Output := parts.foldl (· ++ ·) empty

end Output

end Offside
