import Mathlib.Computability.RegularExpressions

/-! # The longest match

What a scan takes from the front of a text is to be the longest word of a language that stands
there. Languages are given by regular expressions, so that it can be computed whether a word belongs
to one. The longest match of a sequence is put together from those of its parts where a part can
never go on with what the next one begins with: then nothing is gained by taking less of it. -/

namespace Offside

variable {A B L : Language Char} {cs a b t u : List Char}

/-- No word of the language that stands at the front of the text is longer than `t`, which does. -/
structure Longest (L : Language Char) (cs t : List Char) : Prop where
  mem : t ∈ L
  isPrefix : t <+: cs
  longest : ∀ u ∈ L, u <+: cs → u.length ≤ t.length

namespace Longest

theorem add_left (ha : Longest A cs a) (hb : ∀ u ∈ B, u <+: cs → u.length ≤ a.length) :
    Longest (A + B) cs a := by
  refine ⟨(Language.mem_add A B a).2 (.inl ha.mem), ha.isPrefix, ?_⟩
  intro u hu front
  rcases (Language.mem_add A B u).1 hu with hu | hu
  · exact ha.longest u hu front
  · exact hb u hu front

theorem add_right (hb : Longest B cs b) (ha : ∀ u ∈ A, u <+: cs → u.length ≤ b.length) :
    Longest (A + B) cs b := by
  rw [add_comm]
  exact hb.add_left ha

theorem mul (ha : Longest A cs a) (hb : Longest B (cs.drop a.length) b)
    (apart : ∀ v ∈ B, ∀ c, v.head? = some c → c ∉ a) : Longest (A * B) cs (a ++ b) := by
  obtain ⟨rest, rfl⟩ := ha.isPrefix
  rw [List.drop_left] at hb
  refine ⟨Language.append_mem_mul ha.mem hb.mem, (List.prefix_append_right_inj a).2 hb.isPrefix, ?_⟩
  intro w hw front
  obtain ⟨u, hu, v, hv, rfl⟩ := Language.mem_mul.1 hw
  have first : u <+: a ++ rest := (List.prefix_append u v).trans front
  have short := ha.longest u hu first
  obtain ⟨gap, rfl⟩ := List.prefix_of_prefix_length_le first (List.prefix_append a rest) short
  rw [List.append_assoc, List.prefix_append_right_inj] at front
  rw [List.length_append, List.length_append, List.length_append, Nat.add_assoc]
  apply Nat.add_le_add_left
  -- Less was taken, or all; and less cannot be gone on with.
  cases gap with
  | nil => simpa using hb.longest v hv front
  | cons g gap =>
    cases v with
    | nil => exact Nat.zero_le _
    | cons c v =>
      obtain ⟨rfl, -⟩ := List.cons_prefix_cons.1 front
      exact absurd (List.mem_append_right u List.mem_cons_self) (apart _ hv c rfl)

end Longest

abbrev Pattern := RegularExpression Char

namespace Pattern

variable {s : String} {r : Pattern} {w : List Char}

def oneOf (s : String) : Pattern := s.toList.foldr (fun c r => .char c + r) 0

def repeated (r : Pattern) : Pattern := r * r.star

def optional (r : Pattern) : Pattern := 1 + r

theorem mem_oneOf : w ∈ (oneOf s).matches' ↔ ∃ c ∈ s.toList, w = [c] := by
  unfold oneOf
  induction s.toList with
  | nil => simp [RegularExpression.matches'_zero, Language.notMem_zero]
  | cons d ds ih =>
    rw [List.foldr_cons, RegularExpression.matches'_add, Language.mem_add, ih,
      RegularExpression.matches'_char, List.exists_mem_cons_iff]
    rfl

theorem mem_oneOf_mul :
    w ∈ (oneOf s * r).matches' ↔ ∃ c v, c ∈ s.toList ∧ v ∈ r.matches' ∧ w = c :: v := by
  rw [RegularExpression.matches'_mul, Language.mem_mul]
  constructor
  · rintro ⟨u, hu, v, hv, rfl⟩
    obtain ⟨c, hc, rfl⟩ := mem_oneOf.1 hu
    exact ⟨c, v, hc, hv, rfl⟩
  · rintro ⟨c, v, hc, hv, rfl⟩
    exact ⟨[c], mem_oneOf.2 ⟨c, hc, rfl⟩, v, hv, rfl⟩

theorem mem_star_oneOf : w ∈ (oneOf s).star.matches' ↔ ∀ c ∈ w, c ∈ s.toList := by
  rw [RegularExpression.matches'_star, Language.mem_kstar]
  constructor
  · rintro ⟨parts, rfl, each⟩ c hc
    obtain ⟨part, hp, hc⟩ := List.mem_flatten.1 hc
    obtain ⟨d, hd, rfl⟩ := mem_oneOf.1 (each part hp)
    rwa [List.mem_singleton.1 hc]
  · intro each
    refine ⟨w.map fun c => [c], ?_, ?_⟩
    · rw [← List.flatMap_def, List.flatMap_singleton']
    · intro part hp
      obtain ⟨c, hc, rfl⟩ := List.mem_map.1 hp
      exact mem_oneOf.2 ⟨c, each c hc, rfl⟩

theorem mem_repeated_oneOf : w ∈ (repeated (oneOf s)).matches' ↔
    ∃ c v, c ∈ s.toList ∧ (∀ d ∈ v, d ∈ s.toList) ∧ w = c :: v := by
  rw [repeated, mem_oneOf_mul]
  simp only [mem_star_oneOf]

theorem mem_optional : w ∈ (optional r).matches' ↔ w = [] ∨ w ∈ r.matches' := by
  rw [optional, RegularExpression.matches'_add, Language.mem_add,
    RegularExpression.matches'_epsilon, Language.mem_one]

end Pattern

/-- A part that may be missing: it is, or else it is as long as it can be. -/
theorem Longest.optional {r : Pattern} (mem : t = [] ∨ t ∈ r.matches') (isPrefix : t <+: cs)
    (longest : ∀ u ∈ r.matches', u <+: cs → u <+: t) : Longest r.optional.matches' cs t := by
  refine ⟨Pattern.mem_optional.2 mem, isPrefix, ?_⟩
  intro u hu front
  rcases Pattern.mem_optional.1 hu with rfl | hu
  · exact Nat.zero_le _
  · exact (longest u hu front).length_le

/-- A part that is there is the longest also where it may not be missing. -/
theorem Longest.of_optional {r : Pattern} (h : Longest r.optional.matches' cs t) (ht : t ≠ []) :
    Longest r.matches' cs t := by
  refine ⟨(Pattern.mem_optional.1 h.mem).resolve_left ht, h.isPrefix, ?_⟩
  intro u hu front
  exact h.longest u (Pattern.mem_optional.2 (.inr hu)) front

end Offside
