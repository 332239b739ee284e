import Mathlib.Data.List.DropRight
import Offside.Interactive.Completion
import Offside.Proofs.Bytes
import Offside.Proofs.Highlighting

/-! # Completions

The word at a place in a line is the longest run of word characters that ends there. It begins where
a character begins, so every cut that is made on the way, in the line and in the words that are
known, is between characters. What is offered is what the known words add to it, and the hint is the
first of that which is more than nothing. -/

namespace Offside

namespace Interactive

open Text (byteCount byteSlice? cut?)

variable {line known rest : String} {pos : ℕ} {before behind word : List Char}

structure IsLastWord (text word : List Char) : Prop where
  suffix : word <:+ text
  completable : ∀ c ∈ word, isCompletable c = true
  longest : ∀ w, w <:+ text → (∀ c ∈ w, isCompletable c = true) → w <:+ word

def beforeWord (cs : List Char) : List Char := cs.rdropWhile isCompletable

theorem beforeWord_append (cs : List Char) : beforeWord cs ++ wordEnding cs = cs :=
  List.rdropWhile_append_rtakeWhile

theorem isCompletable_of_mem {cs : List Char} {c : Char} (h : c ∈ wordEnding cs) :
    isCompletable c = true := List.mem_rtakeWhile_imp h

theorem isLastWord_wordEnding (cs : List Char) : IsLastWord cs (wordEnding cs) where
  suffix := ⟨beforeWord cs, beforeWord_append cs⟩
  completable _ := isCompletable_of_mem
  longest w hw hc := by
    obtain ⟨front, rfl⟩ := hw
    have all : ∀ c ∈ w.reverse, isCompletable c = true := fun c h => hc c (List.mem_reverse.1 h)
    rw [wordEnding, List.reverse_append, List.takeWhile_append_of_pos all, List.reverse_append,
      List.reverse_reverse]
    exact List.suffix_append _ _

theorem byteCount_word (h : ∀ c ∈ word, isCompletable c = true) :
    byteCount word = word.length := by
  apply Text.byteCount_eq_length
  intro c hc
  have inner : Lexeme.isInner c = true := by
    have completable := h c hc
    rw [isCompletable, Bool.or_eq_true, Bool.or_eq_true, beq_iff_eq, beq_iff_eq] at completable
    obtain (letter | rfl) | rfl := completable
    · exact Lexeme.isInner_of_isAlphanum letter
    · rfl
    · rfl
  have := (Lexeme.ascii_of_isInner inner).2
  omega

theorem wordStart_eq (h : line.toList = before ++ behind) :
    wordStart line (byteCount before) = byteCount (beforeWord before) := by
  have split := congrArg byteCount (beforeWord_append before)
  rw [Text.byteCount_append] at split
  rw [wordStart, h, Text.takeBytes_append]
  omega

def charPlaces (start : ℕ) : List Char → List (ℕ × Char)
  | [] => []
  | c :: cs => (start, c) :: charPlaces (start + c.utf8Size) cs

theorem charPlaces_append (start : ℕ) (cs ds : List Char) :
    charPlaces start (cs ++ ds) = charPlaces start cs ++ charPlaces (start + byteCount cs) ds := by
  induction cs generalizing start with
  | nil => rfl
  | cons c cs ih => simp [charPlaces, byteCount, ih, Nat.add_assoc]

theorem snd_mem_of_mem_charPlaces {start : ℕ} {cs : List Char} {p : ℕ × Char}
    (h : p ∈ charPlaces start cs) : p.2 ∈ cs := by
  induction cs generalizing start with
  | nil => cases h
  | cons c cs ih =>
    rcases List.mem_cons.1 h with rfl | later
    · exact List.mem_cons_self
    · exact List.mem_cons_of_mem c (ih later)

/-- Where the word begins that ends at byte `pos`: behind the last character before `pos` that is
none of a word. Nothing if the line cannot be cut at `pos`. -/
def slicedWordStart? (line : List Char) (pos : ℕ) : Option ℕ :=
  (byteSlice? line 0 pos).map fun before =>
    ((charPlaces 0 before).reverse.find? fun p => !isCompletable p.2).elim 0
      fun p => p.1 + p.2.utf8Size

theorem slicedWordStart?_eq (before behind : List Char) :
    slicedWordStart? (before ++ behind) (byteCount before) =
      some (byteCount (beforeWord before)) := by
  have inWord : (charPlaces (0 + byteCount (beforeWord before)) (wordEnding before)).reverse.find?
      (fun p => !isCompletable p.2) = none := by
    apply List.find?_eq_none.2
    intro p hp
    have completable := isCompletable_of_mem (snd_mem_of_mem_charPlaces (List.mem_reverse.1 hp))
    simp [completable]
  rw [slicedWordStart?, Text.byteSlice?_zero, Option.map_some]
  conv_lhs => rw [← beforeWord_append before]
  rw [charPlaces_append, List.reverse_append, List.find?_append, inWord, Option.none_or]
  rcases List.eq_nil_or_concat (beforeWord before) with empty | ⟨front, last, split⟩
  · rw [empty]
    rfl
  · have foreign : isCompletable last = false := by
      have ends := List.rdropWhile_last_not isCompletable before
      change ∀ h : beforeWord before ≠ [], ¬isCompletable ((beforeWord before).getLast h) at ends
      simpa [split] using ends
    rw [split, List.concat_eq_append, charPlaces_append, List.reverse_append, Text.byteCount_append]
    simp [charPlaces, foreign, byteCount]

def slicedWord? (line : List Char) (pos : ℕ) : Option (List Char) :=
  (slicedWordStart? line pos).bind fun start => byteSlice? line start pos

theorem slicedWord?_eq (before behind : List Char) :
    slicedWord? (before ++ behind) (byteCount before) = some (wordEnding before) := by
  have cut := Text.byteSlice?_append (beforeWord before) (wordEnding before) behind
  rw [beforeWord_append] at cut
  rw [slicedWord?, slicedWordStart?_eq, Option.bind_some, cut]

def slicedRest? (word : List Char) (known : String) : Option (List Char) :=
  byteSlice? known.toList (byteCount word) (byteCount known.toList)

theorem slicedRest?_eq (h : word.isPrefixOf known.toList = true) :
    slicedRest? word known = some (known.toList.drop word.length) := by
  obtain ⟨rest, split⟩ := List.isPrefixOf_iff_prefix.1 h
  have cut := Text.byteSlice?_append word rest []
  rw [slicedRest?, ← split, List.drop_left]
  rwa [List.append_nil] at cut

def Candidate.of (word : List Char) (known : String) : Candidate :=
  ⟨known, String.ofList (known.toList.drop word.length)⟩

def offered (word : List Char) : List String :=
  knownWords.filter fun known => word.isPrefixOf known.toList

theorem map_extension? (word : List Char) (known : String) :
    (extension? word known).map (fun rest => Candidate.mk known (String.ofList rest)) =
      (Option.guard (fun k => word.isPrefixOf k.toList) known).map (Candidate.of word) := by
  unfold extension? Option.guard
  split <;> rfl

theorem candidates_eq (h : line.toList = before ++ behind) :
    candidates line (byteCount before) =
      if wordEnding before = [] then []
      else (offered (wordEnding before)).map (Candidate.of (wordEnding before)) := by
  rw [candidates, h, Text.takeBytes_append]
  cases wordEnding before with
  | nil => rfl
  | cons c cs =>
    rw [if_neg (List.cons_ne_nil c cs), offered, ← List.filterMap_eq_filter, List.map_filterMap]
    simp only [map_extension?]

def isLonger (word : List Char) (known : String) : Bool :=
  word.isPrefixOf known.toList && decide (word.length < known.toList.length)

theorem filter_extension? (word : List Char) (known : String) :
    (extension? word known).filter (fun rest => !rest.isEmpty) =
      (Option.guard (isLonger word) known).map fun k => k.toList.drop word.length := by
  have nonempty : (!(known.toList.drop word.length).isEmpty) =
      decide (word.length < known.toList.length) := by
    rw [Bool.eq_iff_iff]
    simp
  cases begins : word.isPrefixOf known.toList with
  | false => simp [extension?, isLonger, begins]
  | true =>
    simp only [extension?, isLonger, begins, if_true, Option.filter_some, nonempty, Bool.true_and,
      Option.guard, Option.map_if]

theorem extension_eq (line : String) :
    extension line =
      if (wordEnding line.toList).length < 2 then none
      else (knownWords.find? (isLonger (wordEnding line.toList))).map fun known =>
        (Candidate.of (wordEnding line.toList) known).replacement := by
  simp only [extension, filter_extension?, ← List.findSome?_guard, List.map_findSome?,
    Function.comp_def, Option.map_map, Candidate.of]

theorem find?_replacement (word : List Char) :
    (((offered word).map (Candidate.of word)).map Candidate.replacement).find? (· ≠ "") =
      (knownWords.find? (isLonger word)).map fun known =>
        (Candidate.of word known).replacement := by
  have longer (k : String) : decide (word.isPrefixOf k.toList = true ∧
      decide ((Candidate.of word k).replacement ≠ "") = true) = isLonger word k := by
    rw [Bool.eq_iff_iff]
    simp [Candidate.of, isLonger]
  simp only [List.map_map, List.find?_map, offered, List.find?_filter, Function.comp_apply, longer]
  rfl

/-- What the hint takes from the known words is the first that completion adds there. -/
theorem extension_eq_find? (h : line.toList = before) :
    extension line =
      if 2 ≤ (wordEnding before).length then
        ((candidates line (byteCount before)).map Candidate.replacement).find? (· ≠ "")
      else none := by
  rw [extension_eq, candidates_eq (h.trans before.append_nil.symm), h]
  rcases Nat.lt_or_ge (wordEnding before).length 2 with short | long
  · rw [if_pos short, if_neg short.not_ge]
  · have nonempty : wordEnding before ≠ [] := List.ne_nil_of_length_pos (Nat.zero_lt_of_lt long)
    rw [if_neg long.not_gt, if_pos long, if_neg nonempty, find?_replacement]

def slicedCandidate? (word : List Char) (known : String) : Option Candidate :=
  (slicedRest? word known).map fun rest => ⟨known, String.ofList rest⟩

def slicedCandidates? (line : List Char) (pos : ℕ) : Option (ℕ × List Candidate) :=
  (slicedWord? line pos).bind fun word =>
    if word.isEmpty then some (pos, [])
    else ((offered word).mapM (slicedCandidate? word)).map fun found => (pos, found)

theorem mapM_slicedCandidate? {ks : List String} (h : ∀ k ∈ ks, word.isPrefixOf k.toList = true) :
    ks.mapM (slicedCandidate? word) = some (ks.map (Candidate.of word)) := by
  induction ks with
  | nil => rfl
  | cons k ks ih =>
    obtain ⟨first, later⟩ := List.forall_mem_cons.1 h
    rw [List.mapM_cons, slicedCandidate?, slicedRest?_eq first, ih later]
    rfl

theorem slicedCandidates?_eq (h : line.toList = before ++ behind) :
    slicedCandidates? line.toList (byteCount before) =
      some (byteCount before, candidates line (byteCount before)) := by
  have begins : ∀ k ∈ offered (wordEnding before), (wordEnding before).isPrefixOf k.toList = true :=
    fun k hk => (List.mem_filter.1 hk).2
  rw [candidates_eq h, slicedCandidates?, h, slicedWord?_eq, Option.bind_some,
    mapM_slicedCandidate? begins]
  simp only [List.isEmpty_iff]
  split <;> rfl

/-- As `hint`, with every cut made at a byte and lengths counted in bytes. -/
def slicedHint? (line : List Char) (pos : ℕ) : Option (Option String) :=
  if pos < byteCount line then some none
  else
    (slicedWord? line (byteCount line)).bind fun word =>
      if byteCount word < 2 then some none
      else
        match knownWords.find? fun known =>
            word.isPrefixOf known.toList && decide (byteCount word < byteCount known.toList) with
        | none => some none
        | some known =>
          (slicedRest? word known).map fun rest => some (Terminal.dimmed (String.ofList rest))

theorem isLonger_eq (word : List Char) (known : String) :
    (word.isPrefixOf known.toList && decide (byteCount word < byteCount known.toList)) =
      isLonger word known := by
  rw [isLonger]
  cases begins : word.isPrefixOf known.toList with
  | false => rfl
  | true =>
    obtain ⟨rest, split⟩ := List.isPrefixOf_iff_prefix.1 begins
    have counts := Text.byteCount_append word rest
    rw [← split, counts, List.length_append]
    cases rest with
    | nil => simp [byteCount]
    | cons c cs => simp [byteCount, Nat.add_pos_left c.utf8Size_pos]

theorem slicedHint?_eq (line : String) (pos : ℕ) :
    slicedHint? line.toList pos = some (hint line pos) := by
  rw [slicedHint?, hint, Text.utf8ByteSize_eq]
  split_ifs with inside
  · rfl
  · have whole := slicedWord?_eq line.toList []
    rw [List.append_nil] at whole
    have size := byteCount_word fun c => @isCompletable_of_mem line.toList c
    rw [whole, Option.bind_some, size, extension_eq]
    split_ifs with short
    · rfl
    · simp only [← size, isLonger_eq]
      cases found : knownWords.find? (isLonger (wordEnding line.toList)) with
      | none => rfl
      | some known =>
        have begins := (Bool.and_eq_true _ _ ▸ List.find?_some found).1
        simp only [slicedRest?_eq begins]
        rfl

theorem not_mem_extension (h : extension line = some rest) : '\x1b' ∉ rest.toList := by
  have known : ∀ k ∈ knownWords, '\x1b' ∉ k.toList := by decide
  rw [extension_eq] at h
  split_ifs at h
  obtain ⟨k, found, rfl⟩ := Option.map_eq_some_iff.1 h
  rw [Candidate.of, String.toList_ofList]
  exact fun inside => known k (List.mem_of_find?_eq_some found) (List.mem_of_mem_drop inside)

theorem stripped_hint (line : String) (pos : ℕ) :
    (hint line pos).map (fun shown => String.ofList (Terminal.stripped shown.toList)) =
      if pos < line.utf8ByteSize then none else extension line := by
  rw [hint]
  split_ifs
  · rfl
  · cases h : extension line with
    | none => rfl
    | some rest =>
      have shown : Terminal.unstyled (Terminal.dimmed rest).toList = rest.toList :=
        (Terminal.Style.faint.shows_paint (not_mem_extension h)).unstyled_eq
      have strip := Terminal.stripped_eq_unstyled (shown ▸ not_mem_extension h)
      rw [Option.map_some, Option.map_some, strip, shown, String.ofList_toList]

/-- Completion offers the known words that begin with the word at the cursor and says of each what
it adds; at the end of a line the hint shows the first of that which is not empty, if the word has
two characters. No cut falls inside of a character. -/
theorem completion_exact (h : cut? line.toList pos = some (before, behind)) :
    let word := wordEnding before
    let added := (candidates line pos).map Candidate.replacement
    IsLastWord before word ∧
    byteSlice? line.toList (wordStart line pos) pos = some word ∧
    slicedWordStart? line.toList pos = some (wordStart line pos) ∧
    slicedCandidates? line.toList pos = some (pos, candidates line pos) ∧
    (candidates line pos).map Candidate.display =
      (if word = [] then [] else knownWords.filter fun known => word.isPrefixOf known.toList) ∧
    (∀ c ∈ candidates line pos, word ++ c.replacement.toList = c.display.toList) ∧
    slicedHint? line.toList pos = some (hint line pos) ∧
    (hint line pos).map (fun shown => String.ofList (Terminal.stripped shown.toList)) =
      if pos = line.utf8ByteSize ∧ 2 ≤ word.length then added.find? (· ≠ "") else none := by
  intro word added
  obtain ⟨split, rfl⟩ := Text.cut?_eq_some_iff.1 h
  have offers := candidates_eq split
  refine ⟨isLastWord_wordEnding before, ?_, ?_, slicedCandidates?_eq split, ?_, ?_,
    slicedHint?_eq line _, ?_⟩
  · have cut := Text.byteSlice?_append (beforeWord before) word behind
    rwa [beforeWord_append, ← split, ← wordStart_eq split] at cut
  · rw [split, slicedWordStart?_eq, ← wordStart_eq split]
  · rw [offers]
    split_ifs
    · rfl
    · rw [List.map_map]
      exact List.map_id _
  · rw [offers]
    split_ifs
    · exact List.forall_mem_nil _
    · intro c hc
      obtain ⟨known, hk, rfl⟩ := List.mem_map.1 hc
      obtain ⟨rest, begins⟩ := List.isPrefixOf_iff_prefix.1 (List.mem_filter.1 hk).2
      rw [Candidate.of, String.toList_ofList, ← begins, List.drop_left]
  · have size : line.utf8ByteSize = byteCount before + byteCount behind := by
      rw [Text.utf8ByteSize_eq, split, Text.byteCount_append]
    rw [stripped_hint]
    cases behind with
    | cons c cs =>
      have inside : byteCount before < line.utf8ByteSize := by
        have := c.utf8Size_pos
        rw [size, byteCount]
        omega
      rw [if_pos inside, if_neg fun atEnd => inside.ne atEnd.1]
    | nil =>
      rw [List.append_nil] at split
      have atEnd : byteCount before = line.utf8ByteSize := size.symm
      rw [if_neg atEnd.not_lt, extension_eq_find? split]
      exact if_congr (and_iff_right atEnd).symm rfl rfl

/-- A letter outside of ASCII is in no word; here one of two bytes is in front of the word. -/
theorem completion_exact_behind_letter :
    cut? "añ.m".toList 5 = some ("añ.m".toList, []) ∧ wordStart "añ.m" 5 = 3 ∧
      slicedCandidates? "añ.m".toList 5 = some (5, [⟨".mode", "ode"⟩]) ∧
      (hint "añ.m" 5).map (fun shown => String.ofList (Terminal.stripped shown.toList)) =
        some "ode" := by
  have cut : cut? "añ.m".toList 5 = some ("añ.m".toList, []) := by decide
  obtain ⟨-, -, start, offers, -, -, -, shown⟩ := completion_exact cut
  have begins : slicedWordStart? "añ.m".toList 5 = some 3 := by decide
  have added : candidates "añ.m" 5 = [⟨".mode", "ode"⟩] := by decide
  refine ⟨cut, Option.some.inj (start.symm.trans begins), offers.trans (by rw [added]), ?_⟩
  rw [shown, added]
  decide

end Interactive

end Offside
