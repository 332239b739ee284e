import Offside.Proofs.Json

/-! # Documents

A document of reports can be read back. Every value in it is written as JSON, so the members of an
object are known from its text, and what they stand for is known from the members: an outcome by the
name of its member, and a problem by the kind that comes before what it says. -/

namespace Offside

open Json (Written)

variable {depth : ℕ}

theorem TokenKind.name_injective : Function.Injective name := by
  intro k l h
  have found : ofName? k.name = ofName? l.name := congrArg ofName? h
  rw [ofName?_name, ofName?_name] at found
  exact Option.some.inj found

theorem Expr.Form.name_injective : Function.Injective name := by
  intro f g h
  have found : ofName? f.name = ofName? g.name := congrArg ofName? h
  rw [ofName?_name, ofName?_name] at found
  exact Option.some.inj found

namespace Token

def members (t : Token) : List (String × String) :=
  [("kind", Json.string t.kind.name), ("text", Json.string t.text),
    ("line", Json.number t.pos.line), ("offset", Json.number t.pos.offset)]

theorem written_members (t : Token) : ∀ m ∈ t.members, Written depth m.2 := by
  simp only [members, List.forall_mem_cons]
  exact ⟨.string .., .string .., .number .., .number .., List.forall_mem_nil _⟩

theorem members_injective : Function.Injective members := by
  intro t u h
  simp only [members, List.cons.injEq, Prod.mk.injEq, true_and, and_true] at h
  obtain ⟨kind, text, line, offset⟩ := h
  have pos : t.pos = u.pos :=
    congrArg₂ Position.mk (Json.number_injective line) (Json.number_injective offset)
  obtain ⟨_, _, _⟩ := t
  obtain ⟨_, _, _⟩ := u
  exact congr (congrArg₂ Token.mk (TokenKind.name_injective (Json.string_injective kind))
    (Json.string_injective text)) pos

theorem written_toJson (t : Token) : Written depth (t.toJson depth) :=
  .object t.written_members

theorem toJson_injective (depth : ℕ) : Function.Injective (toJson depth) :=
  Json.object_injective written_members members_injective

end Token

namespace Expr

def members (depth : ℕ) (e : Expr) : List (String × String) :=
  [("type", Json.string e.form.name), ("token", e.token.toJson depth)]

theorem written_members (e : Expr) : ∀ m ∈ e.members depth, Written depth m.2 := by
  simp only [members, List.forall_mem_cons]
  exact ⟨.string .., e.token.written_toJson, List.forall_mem_nil _⟩

/-- The form is written apart from the kind of the token, so they need not agree. -/
theorem members_injective (depth : ℕ) : Function.Injective (members depth) := by
  intro e f h
  simp only [members, List.cons.injEq, Prod.mk.injEq, true_and, and_true] at h
  obtain ⟨form, token⟩ := h
  obtain ⟨_, _⟩ := e
  obtain ⟨_, _⟩ := f
  exact congrArg₂ Expr.mk (Form.name_injective (Json.string_injective form))
    (Token.toJson_injective depth token)

theorem written_toJson (e : Expr) : Written depth (e.toJson depth) :=
  .object e.written_members

theorem toJson_injective (depth : ℕ) : Function.Injective (toJson depth) :=
  Json.object_injective written_members (members_injective (depth + 1))

end Expr

/-- What a problem says beyond its name, before other members, tells problems of one name apart. -/
theorem Problem.members_inj {p q : Problem} {ms ns : List (String × String)}
    (hn : p.name = q.name) (h : p.members ++ ms = q.members ++ ns) : p = q ∧ ms = ns := by
  have char_inj {c d : Char} (h : Json.string (.singleton c) = Json.string (.singleton d)) :
      c = d := by
    have same := congrArg String.toList (Json.string_injective h)
    simpa using same
  cases p with
  | unrecognizedCharacter c =>
    cases q with
    | unrecognizedCharacter d =>
      simp only [members, List.cons_append, List.nil_append, List.cons.injEq, Prod.mk.injEq,
        true_and] at h
      exact ⟨congrArg _ (char_inj h.1), h.2⟩
    | _ => exact absurd hn (by simp [name])
  | unterminatedString =>
    cases q with
    | unterminatedString => exact ⟨rfl, h⟩
    | _ => exact absurd hn (by simp [name])
  | unterminatedStringAtEnd =>
    cases q with
    | unterminatedStringAtEnd => exact ⟨rfl, h⟩
    | _ => exact absurd hn (by simp [name])
  | inconsistentDedent width landedOn =>
    cases q with
    | inconsistentDedent width' landedOn' =>
      simp only [members, List.cons_append, List.nil_append, List.cons.injEq, Prod.mk.injEq,
        true_and] at h
      obtain ⟨widths, levels, rest⟩ := h
      exact ⟨congrArg₂ _ (Json.number_injective widths) (Json.number_injective levels), rest⟩
    | _ => exact absurd hn (by simp [name])

theorem Problem.written_members (p : Problem) : ∀ m ∈ p.members, Written depth m.2 := by
  cases p with
  | unrecognizedCharacter c =>
    simp only [members, List.forall_mem_cons]
    exact ⟨.string .., List.forall_mem_nil _⟩
  | unterminatedString => exact List.forall_mem_nil _
  | unterminatedStringAtEnd => exact List.forall_mem_nil _
  | inconsistentDedent width landedOn =>
    simp only [members, List.forall_mem_cons]
    exact ⟨.number .., .number .., List.forall_mem_nil _⟩

namespace Diagnostic

def members (d : Diagnostic) : List (String × String) :=
  ("kind", Json.string d.problem.name) :: (d.problem.members ++
    [("line", Json.number d.pos.line), ("offset", Json.number d.pos.offset)])

theorem written_members (d : Diagnostic) : ∀ m ∈ d.members, Written depth m.2 := by
  simp only [members, List.forall_mem_cons, List.forall_mem_append]
  exact ⟨.string .., d.problem.written_members, .number .., .number .., List.forall_mem_nil _⟩

theorem members_injective : Function.Injective members := by
  intro d e h
  obtain ⟨kind, h⟩ := List.cons.inj h
  have name : d.problem.name = e.problem.name := Json.string_injective (Prod.mk.inj kind).2
  obtain ⟨problem, h⟩ := Problem.members_inj name h
  simp only [List.cons.injEq, Prod.mk.injEq, true_and, and_true] at h
  have pos : d.pos = e.pos :=
    congrArg₂ Position.mk (Json.number_injective h.1) (Json.number_injective h.2)
  obtain ⟨_, _⟩ := d
  obtain ⟨_, _⟩ := e
  exact congrArg₂ Diagnostic.mk problem pos

theorem written_toJson (d : Diagnostic) : Written depth (d.toJson depth) :=
  .object d.written_members

theorem toJson_injective (depth : ℕ) : Function.Injective (toJson depth) :=
  Json.object_injective written_members members_injective

end Diagnostic

namespace Outcome

theorem written_member (o : Outcome) : Written depth (o.member depth).2 := by
  cases o with
  | tokens ts => exact .array (List.forall_mem_map.2 fun t _ => t.written_toJson)
  | expr e => exact e.written_toJson
  | error message => exact .string ..

theorem member_injective (depth : ℕ) : Function.Injective (member depth) := by
  intro o p h
  obtain ⟨name, value⟩ := Prod.mk.inj h
  cases o with
  | tokens ts =>
    cases p with
    | tokens us =>
      exact congrArg tokens (Json.array_injective Token.written_toJson
        (Token.toJson_injective (depth + 1)) value)
    | _ => exact absurd name (by simp)
  | expr e =>
    cases p with
    | expr f => exact congrArg expr (Expr.toJson_injective depth value)
    | _ => exact absurd name (by simp)
  | error message =>
    cases p with
    | error other => exact congrArg error (Json.string_injective value)
    | _ => exact absurd name (by simp)

end Outcome

namespace Report

def members (depth : ℕ) (r : Report) : List (String × String) :=
  [("source", Json.string r.source), r.outcome.member depth,
    ("diagnostics", Json.array depth (r.diagnostics.map (Diagnostic.toJson (depth + 1))))]

theorem written_members (r : Report) : ∀ m ∈ r.members depth, Written depth m.2 := by
  simp only [members, List.forall_mem_cons]
  exact ⟨.string .., r.outcome.written_member,
    .array (List.forall_mem_map.2 fun d _ => d.written_toJson), List.forall_mem_nil _⟩

theorem members_injective (depth : ℕ) : Function.Injective (members depth) := by
  intro r s h
  simp only [members, List.cons.injEq, Prod.mk.injEq, true_and, and_true] at h
  obtain ⟨source, outcome, diagnostics⟩ := h
  have same : r.diagnostics = s.diagnostics := Json.array_injective Diagnostic.written_toJson
    (Diagnostic.toJson_injective (depth + 1)) diagnostics
  obtain ⟨_, _, _⟩ := r
  obtain ⟨_, _, _⟩ := s
  exact congr (congrArg₂ Report.mk (Json.string_injective source)
    (Outcome.member_injective depth outcome)) same

theorem written_toJson (r : Report) : Written depth (r.toJson depth) :=
  .object r.written_members

theorem toJson_injective (depth : ℕ) : Function.Injective (toJson depth) :=
  Json.object_injective written_members (members_injective (depth + 1))

end Report

/-- Two documents are the same only if they are of the same reports, in the same order. -/
theorem listToJson_injective : Function.Injective Report.listToJson :=
  Json.array_injective Report.written_toJson (Report.toJson_injective 1)

end Offside
