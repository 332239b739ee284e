import Offside.Program

/-! # Dealing results out

The texts of the readable sources are tokenized apart from their names, and the results are dealt
back along the list of all sources. There is a result for each readable source and none besides, so
every report is what its source alone comes to. -/

namespace Offside

def Source.Troubled (s : Source) : Prop :=
  (∃ message, s.text = .error message) ∨
    ∃ text, s.text = .ok text ∧ (tokenize text).isClean = false

namespace Report

def alone (s : Source) : Report :=
  match s.text with
  | .error message => ⟨s.name, .error message, []⟩
  | .ok text => ⟨s.name, .tokens (Offside.tokenize text).tokens, (Offside.tokenize text).diagnostics⟩

/-- Deals `spare` out wherever a result is missing. The results that are left over come last. -/
def dealWith (spare : Lexed) : List Source → List Lexed → List Report × List Lexed
  | [], results => ([], results)
  | s :: sources, results =>
    match s.text, results with
    | .error message, results =>
      let later := dealWith spare sources results
      (unreadable s.name message :: later.1, later.2)
    | .ok _, l :: results =>
      let later := dealWith spare sources results
      (ofLexed s.name l :: later.1, later.2)
    | .ok _, [] =>
      let later := dealWith spare sources []
      (ofLexed s.name spare :: later.1, later.2)

theorem deal_eq (sources : List Source) (results : List Lexed) :
    deal sources results = (dealWith (Offside.tokenize "") sources results).1 := by
  induction sources generalizing results with
  | nil => rfl
  | cons s sources ih =>
    unfold deal dealWith
    cases hs : s.text with
    | error message => exact congrArg (unreadable s.name message :: ·) (ih results)
    | ok text =>
      cases results with
      | nil => exact congrArg (ofLexed s.name (Offside.tokenize "") :: ·) (ih [])
      | cons l results => exact congrArg (ofLexed s.name l :: ·) (ih results)

theorem tokenizeAll_cons (text : String) (texts : List String) :
    tokenizeAll (text :: texts) = Offside.tokenize text :: tokenizeAll texts := rfl

theorem texts_cons_error {s : Source} {message : String} (h : s.text = .error message)
    (sources : List Source) : texts (s :: sources) = texts sources := by
  rw [texts, List.filterMap_cons, h]
  rfl

theorem texts_cons_ok {s : Source} {text : String} (h : s.text = .ok text)
    (sources : List Source) : texts (s :: sources) = text :: texts sources := by
  rw [texts, List.filterMap_cons, h]
  rfl

/-- Each readable source takes the result of its own text, and what comes behind stays. -/
theorem dealWith_texts (spare : Lexed) (sources : List Source) (more : List Lexed) :
    dealWith spare sources (tokenizeAll (texts sources) ++ more) = (sources.map alone, more) := by
  induction sources with
  | nil => rfl
  | cons s sources ih =>
    unfold dealWith
    cases hs : s.text with
    | error message =>
      have here : alone s = unreadable s.name message := by rw [alone, hs]; rfl
      rw [texts_cons_error hs, List.map_cons, here]
      simp only [ih]
    | ok text =>
      have here : alone s = ofLexed s.name (Offside.tokenize text) := by rw [alone, hs]; rfl
      rw [texts_cons_ok hs, List.map_cons, here]
      simp only [tokenizeAll_cons, List.cons_append, ih]

theorem tokenize_eq_map (sources : List Source) : tokenize sources = sources.map alone := by
  have dealt := dealWith_texts (Offside.tokenize "") sources []
  rw [List.append_nil] at dealt
  rw [tokenize, deal_eq, dealt]

theorem hasProblems_alone (s : Source) : (alone s).hasProblems = true ↔ s.Troubled := by
  unfold alone hasProblems Source.Troubled
  cases hs : s.text with
  | error message => simp
  | ok text => simp [Lexed.isClean]

end Report

/-- Reports stand in the order of the sources, each with what its source alone comes to: whatever
stands in for a missing result is never dealt out, and no result is left over. The program fails if
and only if there is no text for a source or something is wrong with the text. -/
theorem reports_aligned (sources : List Source) :
    Report.tokenize sources = sources.map Report.alone ∧
    (∀ spare, Report.dealWith spare sources (tokenizeAll (Report.texts sources)) =
      (Report.tokenize sources, [])) ∧
    (∀ results, Report.deal sources results =
      (Report.dealWith (tokenize "") sources results).1) ∧
    ((∃ r ∈ Report.tokenize sources, r.hasProblems = true) ↔ ∃ s ∈ sources, s.Troubled) ∧
    ∀ config l, l.parse = false →
      ((Program.report config l sources).code = 1 ↔
        ∃ r ∈ Report.tokenize sources, r.hasProblems = true) := by
  have aligned := Report.tokenize_eq_map sources
  refine ⟨aligned, ?_, Report.deal_eq sources, ?_, ?_⟩
  · intro spare
    have dealt := Report.dealWith_texts spare sources []
    rwa [List.append_nil, ← aligned] at dealt
  · rw [aligned]
    constructor
    · rintro ⟨r, hr, problems⟩
      obtain ⟨s, hs, rfl⟩ := List.mem_map.1 hr
      exact ⟨s, hs, (Report.hasProblems_alone s).1 problems⟩
    · rintro ⟨s, hs, troubled⟩
      exact ⟨_, List.mem_map_of_mem hs, (Report.hasProblems_alone s).2 troubled⟩
  · intro config l tokens
    have shown : Program.reports l sources = Report.tokenize sources := by
      rw [Program.reports, tokens, if_neg Bool.false_ne_true]
    rw [Program.report, shown, ← List.any_eq_true]
    by_cases problems : (Report.tokenize sources).any Report.hasProblems = true
    · simp [problems]
    · simp [problems]

/-- An unreadable file before and between two readable ones, of which one is not clean. -/
theorem reports_aligned_unreadable :
    CommandLine.empty.parse = false ∧
      (Program.report .defaults .empty
        [⟨"a", .error "gone"⟩, ⟨"b", .ok "x ;"⟩, ⟨"c", .error "gone"⟩, ⟨"d", .ok ""⟩]).code = 1 := by
  have quiet : CommandLine.empty.parse = false := rfl
  refine ⟨quiet, ?_⟩
  have aligned := reports_aligned
    [⟨"a", .error "gone"⟩, ⟨"b", .ok "x ;"⟩, ⟨"c", .error "gone"⟩, ⟨"d", .ok ""⟩]
  obtain ⟨-, -, -, troubled, code⟩ := aligned
  apply (code .defaults .empty quiet).2
  apply troubled.2
  exact ⟨_, List.mem_cons_self, .inl ⟨_, rfl⟩⟩

end Offside
