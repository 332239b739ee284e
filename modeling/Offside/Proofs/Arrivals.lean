import Mathlib.Data.List.Nodup
import Mathlib.Logic.Relation
import Offside.Program

/-! # Arrivals

Files are read all at once, each by a task of its own, and the tasks end in any order: whichever is
still running may be the next one. Each brings the number of its file along, so what they bring can
be put in order again, also where one file is named twice. -/

namespace Offside

namespace Program

abbrev ReadTask := ℕ × String

/-- What a task brings. Files may change while others are read: `found` is how each task finds
them. -/
def ReadTask.brings (found : ℕ → Files) (task : ReadTask) : ℕ × Source :=
  (task.1, sourceOf (found task.1) task.2)

def readTasks (names : List String) : List ReadTask := names.zipIdx.map Prod.swap

/-- The tasks that are still running, and what the others brought, in the order in which they
ended. -/
structure Arrivals where
  running : List ReadTask
  read : List (ℕ × Source)

namespace Arrivals

inductive Step (found : ℕ → Files) : Arrivals → Arrivals → Prop where
  | ends (before after : List ReadTask) (task : ReadTask) (read : List (ℕ × Source)) :
      Step found ⟨before ++ task :: after, read⟩ ⟨before ++ after, read ++ [task.brings found]⟩

abbrev Run (found : ℕ → Files) : Arrivals → Arrivals → Prop := Relation.ReflTransGen (Step found)

def all (found : ℕ → Files) (a : Arrivals) : List (ℕ × Source) :=
  a.read ++ a.running.map (ReadTask.brings found)

variable {found : ℕ → Files} {a b : Arrivals}

theorem Step.all_perm (h : Step found a b) : (b.all found).Perm (a.all found) := by
  cases h with
  | ends before after task read =>
    simp only [all, List.map_append, List.map_cons, List.append_assoc, List.singleton_append]
    exact List.perm_middle.symm.append_left read

theorem Run.all_perm (h : Run found a b) : (b.all found).Perm (a.all found) := by
  induction h with
  | refl => exact List.Perm.refl _
  | tail _ step ih => exact step.all_perm.trans ih

/-- Whatever order the running tasks could end in, there is a run in which they do. -/
theorem exists_run {running : List ReadTask} {later : List (ℕ × Source)}
    (h : later.Perm (running.map (ReadTask.brings found))) (read : List (ℕ × Source)) :
    Run found ⟨running, read⟩ ⟨[], read ++ later⟩ := by
  induction later generalizing running read with
  | nil =>
    obtain rfl : running = [] := List.map_eq_nil_iff.1 (List.nil_perm.1 h)
    rw [List.append_nil]
  | cons next later ih =>
    obtain ⟨task, ran, rfl⟩ := List.mem_map.1 (h.subset List.mem_cons_self)
    obtain ⟨before, after, rfl⟩ := List.append_of_mem ran
    have rest : later.Perm ((before ++ after).map (ReadTask.brings found)) := by
      rw [List.map_append, List.map_cons] at h
      rw [List.map_append]
      exact (h.trans List.perm_middle).cons_inv
    have onward := ih rest (read ++ [task.brings found])
    rw [List.append_assoc] at onward
    exact .head (.ends before after task read) onward

/-- All tasks have ended after exactly those runs in which each has brought its own. -/
theorem run_iff_perm {running : List ReadTask} {read : List (ℕ × Source)} :
    Run found ⟨running, []⟩ ⟨[], read⟩ ↔ read.Perm (running.map (ReadTask.brings found)) := by
  constructor
  · intro h
    have perm := h.all_perm
    rwa [all, all, List.map_nil, List.append_nil, List.nil_append] at perm
  · intro h
    exact exists_run h []

end Arrivals

theorem mergeSort_eq_of_perm {read sorted : List (ℕ × Source)}
    (hs : sorted.Pairwise fun a b => a.1 < b.1) (h : read.Perm sorted) :
    (read.mergeSort fun a b => a.1 ≤ b.1) = sorted := by
  have numbers : (sorted.map Prod.fst).Nodup := (List.pairwise_map.2 hs).imp Nat.ne_of_lt
  have perm := (List.mergeSort_perm read fun a b => decide (a.1 ≤ b.1)).trans h
  have ordered : (read.mergeSort fun a b => a.1 ≤ b.1).Pairwise
      fun a b => decide (a.1 ≤ b.1) = true := by
    apply List.pairwise_mergeSort
    · intro a b c hab hbc
      exact decide_eq_true (Nat.le_trans (of_decide_eq_true hab) (of_decide_eq_true hbc))
    · intro a b
      simpa using Nat.le_total a.1 b.1
  apply perm.eq_of_pairwise _ (ordered.imp of_decide_eq_true) (hs.imp Nat.le_of_lt)
  intro a b ha hb hab hba
  exact List.inj_on_of_nodup_map numbers (perm.subset ha) hb (Nat.le_antisymm hab hba)

theorem pairwise_readTasks (names : List String) :
    (readTasks names).Pairwise fun a b => a.1 < b.1 := by
  rw [readTasks, List.pairwise_map]
  have places : (names.zipIdx.map Prod.snd).Pairwise (· < ·) := by
    rw [List.zipIdx_map_snd]
    exact List.pairwise_lt_range'
  exact List.pairwise_map.1 places

theorem sourceOf_eq (files : Files) (name : String) : sourceOf files name = ⟨name,
    (files name).mapError fun fault => "failed to read " ++ name ++ ": " ++ fault.message⟩ := by
  unfold sourceOf
  cases files name <;> rfl

/-- What the tasks bring in any order, put in order. -/
theorem arrange_of_perm (found : ℕ → Files) (names : List String) {read : List (ℕ × Source)}
    (h : read.Perm ((readTasks names).map (ReadTask.brings found))) :
    arrange read = names.mapIdx fun i name => sourceOf (found i) name := by
  have sorted : ((readTasks names).map (ReadTask.brings found)).Pairwise fun a b => a.1 < b.1 :=
    List.pairwise_map.2 (pairwise_readTasks names)
  rw [arrange, mergeSort_eq_of_perm sorted h, readTasks, List.map_map, List.map_map,
    List.mapIdx_eq_zipIdx_map]
  rfl

/-- Where all tasks find the same files, one way to read them is one after the other. -/
theorem readFiles_eq (files : Files) (names : List String) :
    readFiles files names = (readTasks names).map (ReadTask.brings fun _ => files) := by
  rw [readTasks, List.map_map]
  rfl

end Program

open Program

/-- The tasks can end in every order. In whatever order they do, there is one source for each name,
in the order of the names, with its own name and its own text or fault, though a name may be there
more than once; and the sources of the program are these. -/
theorem arrange_any_order (found : ℕ → Files) (names : List String) (read : List (ℕ × Source)) :
    let source (files : Files) (name : String) : Source :=
      ⟨name, (files name).mapError fun fault =>
        "failed to read " ++ name ++ ": " ++ fault.message⟩
    (Arrivals.Run found ⟨readTasks names, []⟩ ⟨[], read⟩ ↔
      read.Perm ((readTasks names).map (ReadTask.brings found))) ∧
    (read.Perm ((readTasks names).map (ReadTask.brings found)) →
      arrange read = names.mapIdx fun i name => source (found i) name) ∧
    ∀ s l, Program.sources s l =
      (l.eval.map fun code => ⟨evalName, .ok code⟩).toList ++ l.files.map (source s.files) := by
  intro source
  have own (files : Files) : sourceOf files = source files := funext (sourceOf_eq files)
  refine ⟨Arrivals.run_iff_perm, fun h => ?_, fun s l => ?_⟩
  · simp only [arrange_of_perm found names h, own]
  · have arranged := arrange_of_perm (fun _ => s.files) l.files (.refl _)
    have unnumbered : l.files.mapIdx (fun _ name => source s.files name) =
        l.files.map (source s.files) := List.ext_getElem (by simp) (by simp)
    rw [Program.sources, readFiles_eq, arranged, own, unnumbered]

/-- A file that is named twice and changes in between, and one that is not there. -/
theorem arrange_any_order_twice :
    let found : ℕ → Files := fun i name =>
      if name = "b" then .ok (if i = 2 then "new" else "old") else .error .notFound
    let read : List (ℕ × Source) := [(2, ⟨"b", .ok "new"⟩), (0, ⟨"b", .ok "old"⟩),
      (1, ⟨"a", .error "failed to read a: No such file or directory (os error 2)"⟩)]
    read.Perm ((readTasks ["b", "a", "b"]).map (ReadTask.brings found)) ∧
      arrange read = [⟨"b", .ok "old"⟩,
        ⟨"a", .error "failed to read a: No such file or directory (os error 2)"⟩,
        ⟨"b", .ok "new"⟩] := by
  intro found read
  have perm : read.Perm ((readTasks ["b", "a", "b"]).map (ReadTask.brings found)) :=
    @List.perm_append_comm _ [read[0]] [read[1], read[2]]
  exact ⟨perm, (arrange_any_order found ["b", "a", "b"] read).2.1 perm⟩

end Offside
