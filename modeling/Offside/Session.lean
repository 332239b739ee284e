import Offside.TokenStream

/-! # Sessions

All entries of a conversation make up one text. Each is read from where the one before ended, so
that lines and offsets go on counting. -/

namespace Offside

structure Session where
  /-- The entries so far, each ending its last line. -/
  source : String
  /-- Where the next entry begins. -/
  pos : Position

namespace Session

def empty : Session := ⟨"", .zero⟩

def terminated (entry : String) : String :=
  if entry.toList.getLast? = some '\n' then entry else entry.push '\n'

def feed (s : Session) (entry : String) : Except StartPastEnd TokenStream × Session :=
  let added := terminated entry
  let source := s.source ++ added
  (TokenStream.startAt source s.pos, ⟨source, s.pos.after added.toList⟩)

def lines (s : Session) : Nat := s.pos.line

end Session

end Offside
