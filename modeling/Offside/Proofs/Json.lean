import Offside.Proofs.SelfDelimiting
import Offside.Report.Json

/-! # JSON text

Written values can be told apart by how they begin. A text and a list end with a mark of their own;
a number does not, but behind a value that is inside another one there is always a comma or a new
line. So a list holds the same elements, and an object the same members, if it is written the same
way. -/

namespace Offside

open Text (SelfDelimiting)

namespace Json

def named? (tag : Char) : Option Char :=
  if tag = '"' then some '"'
  else if tag = '\\' then some '\\'
  else if tag = 'b' then some '\x08'
  else if tag = 'f' then some '\x0c'
  else if tag = 'n' then some '\n'
  else if tag = 'r' then some '\r'
  else if tag = 't' then some '\t'
  else none

def digitValue (c : Char) : ℕ := if c.isDigit then c.toNat - '0'.toNat else c.toNat - 'a'.toNat + 10

def unescape? : List Char → Option (Char × List Char)
  | [] => none
  | c :: rest =>
    if c ≠ '\\' then some (c, rest)
    else
      match rest with
      | 'u' :: '0' :: '0' :: high :: low :: rest =>
        some (.ofNat (16 * digitValue high + digitValue low), rest)
      | tag :: rest => (named? tag).map (·, rest)
      | [] => none

theorem digitValue_hexDigit {n : ℕ} (h : n < 0x20) :
    16 * digitValue (hexDigit (n / 16)) + digitValue (hexDigit n) = n := by
  have all : ∀ n < 0x20, 16 * digitValue (hexDigit (n / 16)) + digitValue (hexDigit n) = n := by
    decide
  exact all n h

theorem unescape?_escape (c : Char) (rest : List Char) :
    unescape? (escape c ++ rest) = some (c, rest) := by
  unfold escape
  split_ifs with quote backslash back feed newline return_ tab low
  · rw [quote]
    rfl
  · rw [backslash]
    rfl
  · rw [back]
    rfl
  · rw [feed]
    rfl
  · rw [newline]
    rfl
  · rw [return_]
    rfl
  · rw [tab]
    rfl
  · have code := digitValue_hexDigit low
    simp [unescape?, code]
  · exact if_pos backslash

/-- Only the quotation mark could be written for itself and end a text, and it never is. -/
theorem escape_unclosed (c : Char) : ∃ d ds, escape c = d :: ds ∧ d ≠ '"' := by
  have read := unescape?_escape c []
  cases written : escape c with
  | nil =>
    rw [written] at read
    cases read
  | cons d ds =>
    refine ⟨d, ds, rfl, ?_⟩
    rintro rfl
    rw [written] at read
    obtain ⟨rfl, -⟩ := Prod.mk.inj (Option.some.inj read)
    cases written

theorem selfDelimiting_string : SelfDelimiting fun s : String => (string s).toList := by
  have one : SelfDelimiting escape := Text.selfDelimiting_of_reader unescape?_escape
  have run : SelfDelimiting fun cs : List Char => cs.flatMap escape ++ ['"'] :=
    one.run escape_unclosed
  intro s t x y h
  simp only [string, String.toList_ofList] at h
  obtain ⟨same, rest⟩ := run (List.tail_eq_of_cons_eq h)
  exact ⟨String.toList_inj.1 same, rest⟩

theorem string_injective : Function.Injective string := by
  intro s t h
  have same : (string s).toList ++ [] = (string t).toList ++ [] := by rw [h]
  exact (selfDelimiting_string same).1

theorem toList_number (n : ℕ) : (number n).toList = Nat.toDigits 10 n := Text.toList_toString n

theorem isDigit_of_mem_number {n : ℕ} {c : Char} (h : c ∈ (number n).toList) :
    c.isDigit = true := by
  rw [toList_number] at h
  exact Nat.isDigit_of_mem_toDigits (by decide) (by decide) h

theorem number_injective : Function.Injective number := by
  intro m n h
  have digits : Nat.toDigits 10 m = Nat.toDigits 10 n := by
    rw [← toList_number, ← toList_number, h]
  exact Text.toDigits_injective (by decide) (by decide) digits

def GoesOn (x : List Char) : Prop := ∃ c cs, x = c :: cs ∧ (c = ',' ∨ c = '\n')

/-- What is written for two things, inside of something else, is the same for one of them only. -/
def Apart {α : Type*} (write : α → String) (a b : α) : Prop :=
  ∀ ⦃x y : List Char⦄, GoesOn x → GoesOn y →
    (write a).toList ++ x = (write b).toList ++ y → a = b ∧ x = y

theorem takeWhile_number (n : ℕ) {x : List Char} (hx : GoesOn x) :
    ((number n).toList ++ x).takeWhile Char.isDigit = (number n).toList := by
  have stops : ∀ c, x.head? = some c → c.isDigit = false := by
    obtain ⟨c, cs, rfl, rfl | rfl⟩ := hx
    · rintro d ⟨⟩
      rfl
    · rintro d ⟨⟩
      rfl
  rw [Lexeme.takeWhile_append_stop stops, List.takeWhile_eq_self_iff]
  exact fun c hc => isDigit_of_mem_number hc

theorem apart_number (m n : ℕ) : Apart number m n := by
  intro x y hx hy same
  have digits : (number m).toList = (number n).toList := by
    rw [← takeWhile_number m hx, ← takeWhile_number n hy, same]
  rw [digits] at same
  exact ⟨number_injective (String.toList_inj.1 digits), List.append_cancel_left same⟩

def following (closing : String) (depth : ℕ) : List String → List Char
  | [] => (newline depth).toList ++ closing.toList
  | item :: items =>
    ',' :: ((newline (depth + 1)).toList ++ (item.toList ++ following closing depth items))

variable {α : Type*} {write : α → String} {opening closing : String} {depth : ℕ}

theorem toList_newline (depth : ℕ) :
    (newline depth).toList = '\n' :: List.replicate (2 * depth) ' ' := String.toList_ofList

theorem goesOn_following (items : List String) (x : List Char) :
    GoesOn (following closing depth items ++ x) := by
  cases items with
  | nil =>
    rw [following, toList_newline]
    exact ⟨_, _, rfl, .inr rfl⟩
  | cons item items => exact ⟨_, _, rfl, .inl rfl⟩

theorem toList_block_cons (item : String) (items : List String) :
    (block opening closing depth (item :: items)).toList =
      opening.toList ++ ((newline (depth + 1)).toList ++
        (item.toList ++ following closing depth items)) := by
  have rest : (String.intercalate "," ((item :: items).map (newline (depth + 1) ++ ·))).toList ++
      ((newline depth).toList ++ closing.toList) =
        (newline (depth + 1)).toList ++ (item.toList ++ following closing depth items) := by
    induction items generalizing item with
    | nil => simp [following]
    | cons next items ih =>
      have later := ih next
      rw [String.toList_intercalate] at later ⊢
      simp only [List.map_cons, List.intercalate_cons_cons, String.toList_append, following,
        List.append_assoc] at later ⊢
      rw [later]
      rfl
  simp only [block, String.toList_append, List.append_assoc, rest]

/-- Where the first item is the same, the others are, and they end in the same place. -/
theorem following_inj {as bs : List α} {x y : List Char}
    (apart : ∀ a ∈ as, ∀ b ∈ bs, Apart write a b)
    (h : following closing depth (as.map write) ++ x =
      following closing depth (bs.map write) ++ y) : as = bs ∧ x = y := by
  induction as generalizing bs with
  | nil =>
    cases bs with
    | nil => exact ⟨rfl, List.append_cancel_left h⟩
    | cons b bs =>
      rw [List.map_nil, following, toList_newline] at h
      cases List.head_eq_of_cons_eq h
  | cons a as ih =>
    cases bs with
    | nil =>
      rw [List.map_nil, following, toList_newline] at h
      cases List.head_eq_of_cons_eq h
    | cons b bs =>
      have here := apart a List.mem_cons_self b List.mem_cons_self
      simp only [List.map_cons, following, List.cons_append, List.append_assoc, List.cons.injEq,
        true_and, List.append_cancel_left_eq] at h
      obtain ⟨rfl, later⟩ := here (goesOn_following _ x) (goesOn_following _ y) h
      obtain ⟨rfl, rest⟩ := ih (fun a ha b hb =>
        apart a (List.mem_cons_of_mem _ ha) b (List.mem_cons_of_mem _ hb)) later
      exact ⟨rfl, rest⟩

/-- Between the same brackets the same text holds the same items. -/
theorem block_inj {as bs : List α} {x y : List Char}
    (closed : ∃ c cs, closing.toList = c :: cs ∧ c ≠ '\n')
    (apart : ∀ a ∈ as, ∀ b ∈ bs, Apart write a b)
    (h : (block opening closing depth (as.map write)).toList ++ x =
      (block opening closing depth (bs.map write)).toList ++ y) : as = bs ∧ x = y := by
  -- Where there is no item there is no new line either.
  have empty_ne (b : α) (bs : List α) (x y : List Char) :
      (block opening closing depth []).toList ++ x ≠
        (block opening closing depth ((b :: bs).map write)).toList ++ y := by
    obtain ⟨c, cs, mark, other⟩ := closed
    have empty : block opening closing depth [] = opening ++ closing := rfl
    rw [List.map_cons, toList_block_cons, toList_newline, empty, String.toList_append, mark]
    simp [other]
  cases as with
  | nil =>
    cases bs with
    | nil => exact ⟨rfl, List.append_cancel_left h⟩
    | cons b bs => exact absurd h (empty_ne b bs x y)
  | cons a as =>
    cases bs with
    | nil => exact absurd h.symm (empty_ne a as y x)
    | cons b bs =>
      rw [List.map_cons, List.map_cons, toList_block_cons, toList_block_cons] at h
      simp only [List.append_assoc, List.append_cancel_left_eq] at h
      have here := apart a List.mem_cons_self b List.mem_cons_self
      obtain ⟨rfl, later⟩ := here (goesOn_following _ x) (goesOn_following _ y) h
      obtain ⟨rfl, rest⟩ := following_inj (fun a ha b hb =>
        apart a (List.mem_cons_of_mem _ ha) b (List.mem_cons_of_mem _ hb)) later
      exact ⟨rfl, rest⟩

def member (m : String × String) : String := string m.1 ++ ": " ++ m.2

theorem array_inj {items others : List String} {x y : List Char}
    (apart : ∀ i ∈ items, ∀ j ∈ others, Apart id i j)
    (h : (array depth items).toList ++ x = (array depth others).toList ++ y) :
    items = others ∧ x = y := by
  rw [array, array, ← items.map_id, ← others.map_id] at h
  exact block_inj ⟨_, _, rfl, by decide⟩ apart h

theorem apart_member {m n : String × String} (h : Apart id m.2 n.2) : Apart member m n := by
  intro x y hx hy same
  simp only [member, String.toList_append, List.append_assoc] at same
  obtain ⟨names, same⟩ := selfDelimiting_string same
  obtain ⟨values, rest⟩ := h hx hy (List.append_cancel_left same)
  exact ⟨Prod.ext names values, rest⟩

theorem object_inj {members others : List (String × String)} {x y : List Char}
    (apart : ∀ m ∈ members, ∀ n ∈ others, Apart id m.2 n.2)
    (h : (object depth members).toList ++ x = (object depth others).toList ++ y) :
    members = others ∧ x = y :=
  block_inj ⟨_, _, rfl, by decide⟩ (fun m hm n hn => apart_member (apart m hm n hn)) h

inductive Written : ℕ → String → Prop where
  | string (d : ℕ) (s : String) : Written d (string s)
  | number (d n : ℕ) : Written d (number n)
  | array {d : ℕ} {items : List String} (h : ∀ i ∈ items, Written (d + 1) i) :
      Written d (array d items)
  | object {d : ℕ} {members : List (String × String)} (h : ∀ m ∈ members, Written (d + 1) m.2) :
      Written d (object d members)

/-- What the first character tells of a value; all digits tell the same. -/
def lead (cs : List Char) : Option Char := cs.head?.map fun c => if c.isDigit then '0' else c

@[simp] theorem lead_string (s : String) (x : List Char) :
    lead ((string s).toList ++ x) = some '"' := by
  rw [string, String.toList_ofList]
  rfl

@[simp] theorem lead_number (n : ℕ) (x : List Char) :
    lead ((number n).toList ++ x) = some '0' := by
  cases written : (number n).toList with
  | nil => exact absurd ((toList_number n).symm.trans written) Nat.toDigits_ne_nil
  | cons c cs =>
    have first : c.isDigit = true := isDigit_of_mem_number (written ▸ List.mem_cons_self)
    simp [lead, first]

theorem lead_block (items : List String) (x : List Char) {c : Char} (hc : c.isDigit = false)
    (ho : opening.toList = [c]) :
    lead ((block opening closing depth items).toList ++ x) = some c := by
  cases items with
  | nil =>
    have empty : block opening closing depth [] = opening ++ closing := rfl
    rw [empty, String.toList_append, ho]
    simp [lead, hc]
  | cons item items =>
    rw [toList_block_cons, ho]
    simp [lead, hc]

@[simp] theorem lead_array (items : List String) (x : List Char) :
    lead ((array depth items).toList ++ x) = some '[' := lead_block items x (by decide) rfl

@[simp] theorem lead_object (members : List (String × String)) (x : List Char) :
    lead ((object depth members).toList ++ x) = some '\x7b' := lead_block _ x (by decide) rfl

/-- Two values at one depth are written the same only if they are the same. -/
theorem Written.apart {s t : String} (hs : Written depth s) (ht : Written depth t) :
    Apart id s t := by
  intro x y hx hy same
  simp only [id] at same
  induction hs generalizing t x y with
  | string d s =>
    cases ht with
    | string d t =>
      obtain ⟨rfl, rest⟩ := selfDelimiting_string same
      exact ⟨rfl, rest⟩
    | _ => exact absurd (congrArg lead same) (by simp)
  | number d m =>
    cases ht with
    | number d n =>
      obtain ⟨rfl, rest⟩ := apart_number m n hx hy same
      exact ⟨rfl, rest⟩
    | _ => exact absurd (congrArg lead same) (by simp)
  | array h ih =>
    cases ht with
    | array h' =>
      obtain ⟨rfl, rest⟩ := array_inj (fun i hi j hj x y hx hy same =>
        ih i hi (h' j hj) hx hy same) same
      exact ⟨rfl, rest⟩
    | _ => exact absurd (congrArg lead same) (by simp)
  | object h ih =>
    cases ht with
    | object h' =>
      obtain ⟨rfl, rest⟩ := object_inj (fun m hm n hn x y hx hy same =>
        ih m hm (h' n hn) hx hy same) same
      exact ⟨rfl, rest⟩
    | _ => exact absurd (congrArg lead same) (by simp)

/-- An object tells what it was written from if its members do. -/
theorem object_injective {members : α → List (String × String)}
    (hw : ∀ a, ∀ m ∈ members a, Written (depth + 1) m.2) (hm : Function.Injective members) :
    Function.Injective fun a => object depth (members a) := by
  intro a b h
  have same : (object depth (members a)).toList ++ [] = (object depth (members b)).toList ++ [] :=
    congrArg (String.toList · ++ []) h
  obtain ⟨equal, -⟩ := object_inj (fun m hm n hn => (hw a m hm).apart (hw b n hn)) same
  exact hm equal

/-- A list tells what it was written from if each of its elements does. -/
theorem array_injective (hw : ∀ a, Written (depth + 1) (write a))
    (hi : Function.Injective write) :
    Function.Injective fun as : List α => array depth (as.map write) := by
  have written (as : List α) : ∀ item ∈ as.map write, Written (depth + 1) item :=
    List.forall_mem_map.2 fun a _ => hw a
  intro as bs h
  have same : (array depth (as.map write)).toList ++ [] =
      (array depth (bs.map write)).toList ++ [] := congrArg (String.toList · ++ []) h
  obtain ⟨equal, -⟩ :=
    array_inj (fun i hi j hj => (written as i hi).apart (written bs j hj)) same
  exact hi.list_map equal

end Json

end Offside
