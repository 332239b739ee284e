import Offside.Lexed
import Offside.Proofs.Moves

/-! # Runs

All that a lexer has still to give. A token stream hands out the run of its lexer, whether token by
token or at once, so statements about whole texts are statements about runs. -/

namespace Offside

namespace Lexer

structure Run where
  tokens : List Token
  diagnostics : List Diagnostic
  /-- The lexer with nothing left to read. -/
  last : Lexer

def Run.after (tokens : List Token) (diagnostics : List Diagnostic) (r : Run) : Run :=
  { r with tokens := tokens ++ r.tokens, diagnostics := diagnostics ++ r.diagnostics }

def run (l : Lexer) : Run :=
  match _h : l.step with
  | .exhausted last => ⟨[], [], last⟩
  | .found tokens diagnostics next => .after tokens diagnostics next.run
  termination_by l.budget
  decreasing_by exact (step_spends ‹_›).1

theorem run_of_exhausted {l last : Lexer} (h : l.step = .exhausted last) :
    l.run = ⟨[], [], last⟩ := by
  rw [run]
  split <;> simp_all

theorem run_of_found {l next : Lexer} {ts ds} (h : l.step = .found ts ds next) :
    l.run = .after ts ds next.run := by
  rw [run]
  split
  · simp_all
  · next k =>
    rw [h] at k
    cases k
    rfl

theorem reads_run (l : Lexer) :
    Reads l l.run.tokens l.run.diagnostics l.run.last ∧ l.run.last.cursor.rest = [] := by
  fun_induction run l with
  | case1 l last h =>
    exact ⟨reads_of_exhausted h, rest_of_exhausted h⟩
  | case2 l ts ds next h ih => exact ⟨(reads_of_found h).trans ih.1, ih.2⟩

theorem Reads.run_eq {l m : Lexer} {ts ds} (h : Reads l ts ds m) : l.run = .after ts ds m.run := by
  obtain ⟨hl, ended⟩ := reads_run l
  obtain ⟨hm, ends⟩ := reads_run m
  obtain ⟨ht, hd, hn⟩ := hl.unique (h.trans hm) ended ends
  cases hr : l.run
  simp_all [Run.after]

theorem run_of_rest_nil {l : Lexer} (h : l.cursor.rest = []) : l.run = ⟨[], [], l⟩ :=
  run_of_exhausted (step_of_rest_nil h)

theorem Reads.run_eq_of_rest_nil {l m : Lexer} {ts ds} (h : Reads l ts ds m)
    (hm : m.cursor.rest = []) : l.run = ⟨ts, ds, m⟩ := by
  rw [h.run_eq, run_of_rest_nil hm]
  simp [Run.after]

end Lexer

namespace TokenStream

def drained (s : TokenStream) : TokenStream :=
  ⟨s.lexer.run.last, s.diagnostics ++ s.lexer.run.diagnostics, [], true⟩

theorem recorded_append (a : Array Diagnostic) (ds es : List Diagnostic) :
    a ++ ds ++ es = a ++ (ds ++ es) :=
  Array.ext' (by simp)

/-- A batch and what the lexer gives after it make up what the lexer gave before. -/
theorem nextBatch_run (s : TokenStream) :
    s.lexer.run.tokens = s.nextBatch.1.getD [] ++ s.nextBatch.2.lexer.run.tokens ∧
      s.diagnostics ++ s.lexer.run.diagnostics =
        s.nextBatch.2.diagnostics ++ s.nextBatch.2.lexer.run.diagnostics ∧
      s.lexer.run.last = s.nextBatch.2.lexer.run.last ∧
      (s.nextBatch.1 = none → s.nextBatch.2.lexer.cursor.rest = []) := by
  fun_induction nextBatch s with
  | case1 s lexer h =>
    have hr := Lexer.rest_of_exhausted h
    simp [Lexer.run_of_exhausted h, Lexer.run_of_rest_nil hr, hr]
  | case2 s ds lexer h ih =>
    rw [Lexer.run_of_found h]
    simpa [record, Lexer.Run.after, recorded_append] using ih
  | case3 s t ts ds lexer h =>
    rw [Lexer.run_of_found h]
    simp [record, Lexer.Run.after, recorded_append]

inductive Handed (s : TokenStream) : Option Token × TokenStream → Prop where
  | waited {t ts} (hw : s.waiting = t :: ts) : Handed s (some t, { s with waiting := ts })
  | finished (hw : s.waiting = []) (hf : s.finished = true) : Handed s (none, s)
  | found {t ts next} (hw : s.waiting = []) (hf : s.finished = false)
      (hb : s.nextBatch = (some (t :: ts), next)) : Handed s (some t, { next with waiting := ts })
  | ended {next} (hw : s.waiting = []) (hf : s.finished = false)
      (hb : s.nextBatch = (none, next)) :
      Handed s (some (.synthetic .eof next.pos), { next with finished := true })

theorem handed (s : TokenStream) : Handed s s.next? := by
  unfold next?
  split
  · next hw => exact .waited hw
  · next hw =>
    split
    · next hf => exact .finished hw hf
    · next hf =>
      rw [Bool.not_eq_true] at hf
      split
      · next hb => exact .found hw hf hb
      · next hb => exact absurd (by rw [hb]) (nextBatch_budget s).2.1
      · next hb => exact .ended hw hf hb

/-- Either a token of the run is handed out, or the run is over and its end is. -/
theorem next?_run {s : TokenStream} (hf : s.finished = false) :
    (∃ t next, s.next? = (some t, next) ∧ next.finished = false ∧ next.drained = s.drained ∧
      s.waiting ++ s.lexer.run.tokens = t :: (next.waiting ++ next.lexer.run.tokens)) ∨
    (s.next? = (some (.synthetic .eof s.lexer.run.last.cursor.pos), s.drained) ∧
      s.waiting ++ s.lexer.run.tokens = []) := by
  obtain ⟨ht, hd, hl, hr⟩ := nextBatch_run s
  obtain ⟨-, -, hw, hfin⟩ := nextBatch_budget s
  have step := handed s
  generalize s.next? = result at step ⊢
  cases step with
  | @waited t ts hwait => exact .inl ⟨t, _, rfl, hf, rfl, by simp [hwait]⟩
  | finished hwait hf' =>
    rw [hf] at hf'
    cases hf'
  | @found t ts next hwait _ hb =>
    simp only [hb, Option.getD_some] at ht hd hl hfin
    refine .inl ⟨t, _, rfl, hfin.trans hf, ?_, by simp [hwait, ht]⟩
    simp [drained, hd, hl]
  | @ended next hwait _ hb =>
    simp only [hb, Option.getD_none, List.nil_append, forall_const] at ht hd hl hr hw
    rw [Lexer.run_of_rest_nil hr] at ht hd hl
    refine .inr ⟨?_, by simp [hwait, ht]⟩
    simp [pos, drained, hl, hd, hw, hwait]

theorem drainOnto_eq (read : List Token) (s : TokenStream) (hf : s.finished = false) :
    s.drainOnto read = (read.reverse ++ (s.waiting ++ s.lexer.run.tokens ++
      [.synthetic .eof s.lexer.run.last.cursor.pos]), s.drained) := by
  fun_induction drainOnto read s with
  | case1 read s t next h ih =>
    obtain ⟨u, m, hn, hmf, hd, ht⟩ | ⟨hn, ht⟩ := next?_run hf
    · obtain ⟨rfl, rfl⟩ : u = t ∧ m = next := by simpa [h] using hn.symm
      have hl : m.lexer.run.last = s.lexer.run.last := congrArg lexer hd
      rw [ih hmf, ht, hd, hl]
      simp
    · obtain ⟨rfl, rfl⟩ : .synthetic .eof s.lexer.run.last.cursor.pos = t ∧ s.drained = next := by
        simpa [h] using hn.symm
      rw [drainOnto]
      simp [next?, drained, ht]
  | case2 read s next h =>
    obtain ⟨u, m, hn, -⟩ | ⟨hn, -⟩ := next?_run hf <;> simp [h] at hn

theorem tokens_eq {s : TokenStream} (hf : s.finished = false) :
    s.tokens = (s.waiting ++ s.lexer.run.tokens ++
      [.synthetic .eof s.lexer.run.last.cursor.pos], s.drained) :=
  drainOnto_eq [] s hf

end TokenStream

theorem tokenize_eq (source : String) :
    tokenize source =
      let run := (Lexer.start (.ofList source.toList)).run
      ⟨run.tokens ++ [.synthetic .eof run.last.cursor.pos], run.diagnostics⟩ := by
  have h := TokenStream.tokens_eq (s := TokenStream.ofString source) rfl
  simp only [tokenize, h]
  simp [TokenStream.ofString, TokenStream.ofCursor, TokenStream.drained]

end Offside
