import Offside.Proofs.Rendering

/-! # Self-delimiting texts

What is written can be told apart, and where it ends, whatever stands behind it. A part without its
mark at the end is such a text with the mark, and so is a run of such parts none of which begins
with the mark. A quoted text is a run of this kind: each character is written for itself or behind a
backslash, and then what comes next says how. -/

namespace Offside

namespace Text

/-- Of two texts that begin with what is written and are the same, the beginnings are the same. -/
def SelfDelimiting {α : Type*} (write : α → List Char) : Prop :=
  ∀ ⦃a b : α⦄ ⦃x y : List Char⦄, write a ++ x = write b ++ y → a = b ∧ x = y

section

variable {α : Type*} {write : α → List Char} {stop : Char}

theorem append_stop_inj {u v x y : List Char} (hu : stop ∉ u) (hv : stop ∉ v)
    (h : u ++ stop :: x = v ++ stop :: y) : u = v ∧ x = y := by
  induction u generalizing v with
  | nil =>
    cases v with
    | nil => exact ⟨rfl, List.tail_eq_of_cons_eq h⟩
    | cons d v => exact absurd (List.head_eq_of_cons_eq h ▸ List.mem_cons_self) hv
  | cons c u ih =>
    cases v with
    | nil => exact absurd (List.head_eq_of_cons_eq h ▸ List.mem_cons_self) hu
    | cons d v =>
      obtain ⟨rfl, later⟩ := List.cons.inj h
      obtain ⟨rfl, rest⟩ :=
        ih (List.not_mem_of_not_mem_cons hu) (List.not_mem_of_not_mem_cons hv) later
      exact ⟨rfl, rest⟩

theorem selfDelimiting_stop (hw : Function.Injective write) (hs : ∀ a, stop ∉ write a) :
    SelfDelimiting fun a => write a ++ [stop] := by
  intro a b x y h
  rw [List.append_assoc, List.append_assoc] at h
  obtain ⟨same, rest⟩ := append_stop_inj (hs a) (hs b) h
  exact ⟨hw same, rest⟩

/-- What can be read back with anything behind it can be told apart. -/
theorem selfDelimiting_of_reader {read : List Char → Option (α × List Char)}
    (h : ∀ a x, read (write a ++ x) = some (a, x)) : SelfDelimiting write := by
  intro a b x y same
  have reread : some (a, x) = some (b, y) := by rw [← h a x, same, h b y]
  exact Prod.mk.inj (Option.some.inj reread)

/-- A run ends where its mark stands in place of another part. -/
theorem SelfDelimiting.run (hw : SelfDelimiting write)
    (hs : ∀ a, ∃ c cs, write a = c :: cs ∧ c ≠ stop) :
    SelfDelimiting fun as : List α => as.flatMap write ++ [stop] := by
  have unfinished (a : α) (x y : List Char) : write a ++ x ≠ stop :: y := by
    obtain ⟨c, cs, written, other⟩ := hs a
    rw [written, List.cons_append]
    intro h
    exact other (List.head_eq_of_cons_eq h)
  intro as bs x y h
  simp only [List.append_assoc, List.singleton_append] at h ⊢
  induction as generalizing bs with
  | nil =>
    cases bs with
    | nil => exact ⟨rfl, List.tail_eq_of_cons_eq h⟩
    | cons b bs =>
      rw [List.flatMap_cons, List.append_assoc] at h
      exact absurd h.symm (unfinished b _ _)
  | cons a as ih =>
    rw [List.flatMap_cons, List.append_assoc] at h
    cases bs with
    | nil => exact absurd h (unfinished a _ _)
    | cons b bs =>
      rw [List.flatMap_cons, List.append_assoc] at h
      obtain ⟨rfl, later⟩ := hw h
      obtain ⟨rfl, rest⟩ := ih later
      exact ⟨rfl, rest⟩

end

theorem digitChar_inj {m n : ℕ} (hm : m < 16) (hn : n < 16) (h : m.digitChar = n.digitChar) :
    m = n := by
  have all : ∀ m < 16, ∀ n < 16, m.digitChar = n.digitChar → m = n := by decide
  exact all m hm n hn h

theorem toDigits_injective {base : ℕ} (hb : 1 < base) (hd : base ≤ 16) :
    Function.Injective (Nat.toDigits base) := by
  intro m
  induction m using Nat.strongRecOn with
  | ind m ih =>
    intro n h
    have digit (k : ℕ) : k % base < 16 := (Nat.mod_lt k (by omega)).trans_le hd
    -- Only one digit stands behind nothing.
    have longer (k l : ℕ) :
        [k.digitChar] ≠ Nat.toDigits base (l / base) ++ [(l % base).digitChar] := by
      intro h
      have length := congrArg List.length h
      have := Nat.length_toDigits_pos (b := base) (n := l / base)
      simp only [List.length_append, List.length_singleton] at length
      omega
    rcases Nat.lt_or_ge m base with hm | hm
    · rw [Nat.toDigits_of_lt_base hm] at h
      rcases Nat.lt_or_ge n base with hn | hn
      · rw [Nat.toDigits_of_lt_base hn] at h
        exact digitChar_inj (hm.trans_le hd) (hn.trans_le hd) (List.head_eq_of_cons_eq h)
      · rw [Nat.toDigits_of_base_le hb hn] at h
        exact absurd h (longer m n)
    · rw [Nat.toDigits_of_base_le hb hm] at h
      rcases Nat.lt_or_ge n base with hn | hn
      · rw [Nat.toDigits_of_lt_base hn] at h
        exact absurd h.symm (longer n m)
      · rw [Nat.toDigits_of_base_le hb hn] at h
        obtain ⟨front, last⟩ := List.append_inj' h rfl
        have quotient : m / base = n / base := ih _ (Nat.div_lt_self (by omega) hb) front
        have remainder : m % base = n % base :=
          digitChar_inj (digit m) (digit n) (List.head_eq_of_cons_eq last)
        rw [← Nat.div_add_mod m base, quotient, remainder, Nat.div_add_mod]

/-- A number in decimal, before anything that is no digit. -/
theorem selfDelimiting_decimal {stop : Char} (hs : stop.isDigit = false) :
    SelfDelimiting fun n : ℕ => (toString n).toList ++ [stop] := by
  simp only [toList_toString]
  apply selfDelimiting_stop (toDigits_injective (by decide) (by decide))
  intro n mem
  rw [Nat.isDigit_of_mem_toDigits (by decide) (by decide) mem] at hs
  cases hs

def named? (tag : Char) : Option Char :=
  if tag = '0' then some '\x00'
  else if tag = 't' then some '\t'
  else if tag = 'r' then some '\r'
  else if tag = 'n' then some '\n'
  else if tag = '\\' then some '\\'
  else if tag = '"' then some '"'
  else none

inductive Escaped : Char → List Char → Prop where
  | itself {c} (hb : c ≠ '\\') (hq : c ≠ '"') : Escaped c [c]
  | named {c tag} (h : named? tag = some c) : Escaped c ['\\', tag]
  | numbered {c} : Escaped c (codePointEscape c)

theorem escaped_escapeIn (c : Char) : Escaped c (escapeIn '"' c) := by
  unfold escapeIn
  split_ifs with zero tab return_ newline backslash quote hidden
  · rw [zero]
    exact .named rfl
  · rw [tab]
    exact .named rfl
  · rw [return_]
    exact .named rfl
  · rw [newline]
    exact .named rfl
  · rw [backslash]
    exact .named rfl
  · rw [quote]
    exact .named rfl
  · exact .numbered
  · exact .itself backslash quote

theorem codePoint_selfDelimiting : SelfDelimiting codePointEscape := by
  have number : SelfDelimiting fun n => Nat.toDigits 16 n ++ ['\x7d'] := by
    apply selfDelimiting_stop (toDigits_injective (by decide) (by decide))
    intro n mem
    have inner := inner_toDigits (by decide) n _ mem
    exact absurd inner (by decide)
  intro c d x y h
  have digits : Nat.toDigits 16 c.toNat ++ ['\x7d'] ++ x =
      Nat.toDigits 16 d.toNat ++ ['\x7d'] ++ y :=
    (List.append_right_inj ['\\', 'u', '\x7b']).1 h
  obtain ⟨same, rest⟩ := number digits
  exact ⟨Char.toNat_inj.1 same, rest⟩

theorem Escaped.inj {c d : Char} {u v x y : List Char} (hc : Escaped c u) (hd : Escaped d v)
    (h : u ++ x = v ++ y) : c = d ∧ x = y := by
  cases hc with
  | itself hb hq =>
    cases hd with
    | itself => exact List.cons.inj h
    | named => exact absurd (List.head_eq_of_cons_eq h) hb
    | numbered => exact absurd (List.head_eq_of_cons_eq h) hb
  | named ht =>
    cases hd with
    | itself hb => exact absurd (List.head_eq_of_cons_eq h).symm hb
    | named ht' =>
      obtain ⟨rfl, rest⟩ := List.cons.inj (List.tail_eq_of_cons_eq h)
      exact ⟨Option.some.inj (ht.symm.trans ht'), rest⟩
    | numbered =>
      obtain ⟨rfl, -⟩ := List.cons.inj (List.tail_eq_of_cons_eq h)
      cases ht
  | numbered =>
    cases hd with
    | itself hb => exact absurd (List.head_eq_of_cons_eq h).symm hb
    | named ht =>
      obtain ⟨rfl, -⟩ := List.cons.inj (List.tail_eq_of_cons_eq h)
      cases ht
    | numbered => exact codePoint_selfDelimiting h

theorem Escaped.head {c : Char} {u : List Char} (h : Escaped c u) :
    ∃ d ds, u = d :: ds ∧ d ≠ '"' := by
  cases h with
  | itself hb hq => exact ⟨c, [], rfl, hq⟩
  | named => exact ⟨_, _, rfl, by decide⟩
  | numbered => exact ⟨_, _, rfl, by decide⟩

theorem selfDelimiting_quoted : SelfDelimiting (quoted '"') := by
  have one : SelfDelimiting (escapeIn '"') := by
    intro c d x y h
    exact (escaped_escapeIn c).inj (escaped_escapeIn d) h
  have run : SelfDelimiting fun cs : List Char => cs.flatMap (escapeIn '"') ++ ['"'] :=
    one.run fun c => (escaped_escapeIn c).head
  intro cs ds x y h
  exact run (List.tail_eq_of_cons_eq h)

end Text

end Offside
