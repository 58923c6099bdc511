/-
  IbTrader.Lib.ReadModifyWrite

  Concurrent read-modify-write operations on one stored document.

  An operation GETs the whole document, computes from the copy it read and SETs
  the result; both accesses are atomic, other operations may run in between.  An
  operation may hold a lock from its GET to its SET, and it may find nothing to
  do and never write.

  What is compared is a view of the document: the part of it that matters, such
  that what an operation leaves in it depends on it alone (`Respects`).  If no SET lands between an
  operation's GET and SET that changes the view (`Undisturbed`), the view is at
  every moment what the finished operations leave when run one after the other,
  in the order they finished (`view_eq_serial`).  Operations that all hold one
  lock are never disturbed (`undisturbed_of_one_lock`).
-/

import Mathlib.Data.List.AList

namespace IbTrader.Lib

/-- Operations on a document: what each writes given what it read (`none` writes
    nothing), and the lock it holds meanwhile. -/
structure Operations (σ ι lock : Type*) where
  apply : ι → σ → Option σ
  lockOf : ι → Option lock

/-- The stored document, the copies read by the operations in flight, and the
    operations finished so far. -/
structure Shared (σ ι : Type*) where
  store : σ
  inFlight : AList (fun _ : ι => σ)
  finished : List ι := []

/-- An atomic access of an operation. -/
inductive Access (ι : Type*) where
  | get (op : ι)
  | set (op : ι)
  deriving DecidableEq, Repr

namespace Operations

variable {σ ι lock κ : Type*} [DecidableEq ι] [DecidableEq lock] (ops : Operations σ ι lock)

/-- The operation's lock is not held by an operation in flight. -/
def lockFree (r : Shared σ ι) (op : ι) : Prop :=
  ∀ other ∈ r.inFlight.keys, ops.lockOf op ≠ none → ops.lockOf other ≠ ops.lockOf op

instance (r : Shared σ ι) (op : ι) : Decidable (ops.lockFree r op) :=
  inferInstanceAs (Decidable (∀ other ∈ r.inFlight.keys, _ → _))

/-- One access; `none` when it cannot happen. -/
def step (r : Shared σ ι) : Access ι → Option (Shared σ ι)
  | .get op =>
    if op ∈ r.inFlight.keys ∨ ¬ops.lockFree r op then none
    else match ops.apply op r.store with
      | none => some { r with finished := r.finished ++ [op] }
      | some _ => some { r with inFlight := r.inFlight.insert op r.store }
  | .set op =>
    match r.inFlight.lookup op with
    | none => none
    | some copy =>
      (ops.apply op copy).map fun doc =>
        { store := doc, inFlight := r.inFlight.erase op, finished := r.finished ++ [op] }

/-- A list of accesses. -/
def run : Shared σ ι → List (Access ι) → Option (Shared σ ι)
  | r, [] => some r
  | r, a :: as => (ops.step r a).bind fun r' => run r' as

/-- The operations one after the other. -/
def serial (s : σ) (order : List ι) : σ :=
  order.foldl (fun s op => (ops.apply op s).getD s) s

/-- The operations that were started. -/
def started (as : List (Access ι)) : List ι :=
  as.filterMap fun
    | .get op => some op
    | .set _ => none

/-- The access is a GET, or the SET of an operation whose copy shows the view
    that is in the store. -/
def Undisturbed (view : σ → κ) (r : Shared σ ι) : Access ι → Prop
  | .get _ => True
  | .set op => ∀ copy ∈ r.inFlight.lookup op, view copy = view r.store

/-- Every access of the run is undisturbed. -/
def UndisturbedRun (view : σ → κ) : Shared σ ι → List (Access ι) → Prop
  | _, [] => True
  | r, a :: as =>
    Undisturbed view r a ∧ ∀ r' ∈ ops.step r a, UndisturbedRun view r' as

instance [DecidableEq κ] (view : σ → κ) (r : Shared σ ι) (a : Access ι) :
    Decidable (Undisturbed view r a) :=
  match a with
  | .get _ => isTrue trivial
  | .set op => inferInstanceAs (Decidable (∀ copy ∈ r.inFlight.lookup op, _))

instance decidableUndisturbedRun [DecidableEq κ] (view : σ → κ) :
    ∀ (r : Shared σ ι) (as : List (Access ι)), Decidable (ops.UndisturbedRun view r as)
  | _, [] => isTrue trivial
  | r, a :: as =>
    have := fun r' => decidableUndisturbedRun view r' as
    inferInstanceAs (Decidable (Undisturbed view r a ∧ ∀ r' ∈ ops.step r a, _))

/-- What an operation leaves in the view depends on the view alone. -/
def Respects (view : σ → κ) : Prop :=
  ∀ op s s', view s = view s' →
    view ((ops.apply op s).getD s) = view ((ops.apply op s').getD s')

variable {ops}

/-- The two outcomes of a GET. -/
theorem step_get {r r' : Shared σ ι} {op : ι} (h : ops.step r (.get op) = some r') :
    op ∉ r.inFlight.keys ∧ ops.lockFree r op ∧
      ((ops.apply op r.store = none ∧ r' = { r with finished := r.finished ++ [op] }) ∨
        r' = { r with inFlight := r.inFlight.insert op r.store }) := by
  simp only [step] at h
  split at h
  · cases h
  · rename_i hfree
    rw [not_or, not_not] at hfree
    refine ⟨hfree.1, hfree.2, ?_⟩
    split at h
    · rename_i hnone
      cases h
      exact .inl ⟨hnone, rfl⟩
    · cases h
      exact .inr rfl

/-- The outcome of a SET. -/
theorem step_set {r r' : Shared σ ι} {op : ι} (h : ops.step r (.set op) = some r') :
    ∃ copy doc, r.inFlight.lookup op = some copy ∧ ops.apply op copy = some doc ∧
      r' = { store := doc, inFlight := r.inFlight.erase op, finished := r.finished ++ [op] } := by
  simp only [step] at h
  split at h
  · cases h
  · rename_i copy hcopy
    obtain ⟨doc, hdoc, rfl⟩ := Option.map_eq_some_iff.mp h
    exact ⟨copy, doc, hcopy, hdoc, rfl⟩

omit [DecidableEq ι] [DecidableEq lock] in
theorem serial_concat (s : σ) (order : List ι) (op : ι) :
    ops.serial s (order ++ [op]) =
      (ops.apply op (ops.serial s order)).getD (ops.serial s order) := by
  simp [serial]

/-- One undisturbed access keeps the view that of the finished operations. -/
theorem step_view {view : σ → κ} (h : ops.Respects view) {s : σ} {r r' : Shared σ ι}
    {a : Access ι} (hstep : ops.step r a = some r') (hgood : Undisturbed view r a)
    (hview : view r.store = view (ops.serial s r.finished)) :
    view r'.store = view (ops.serial s r'.finished) := by
  cases a with
  | get op =>
    obtain ⟨-, -, ⟨hnone, rfl⟩ | rfl⟩ := step_get hstep
    · -- an operation that has nothing to do finishes where it read
      have hact := h op r.store (ops.serial s r.finished) hview
      rw [hnone, Option.getD_none] at hact
      rw [serial_concat]
      exact hact
    · exact hview
  | set op =>
    obtain ⟨copy, doc, hcopy, hdoc, rfl⟩ := step_set hstep
    have hact := h op copy (ops.serial s r.finished) ((hgood copy hcopy).trans hview)
    rw [hdoc, Option.getD_some] at hact
    rw [serial_concat]
    exact hact

/-- One access moves one operation. -/
theorem step_finished {r r' : Shared σ ι} {a : Access ι} (hstep : ops.step r a = some r')
    (as : List ι) (hperm : (r.finished ++ r.inFlight.keys).Perm as) :
    (r'.finished ++ r'.inFlight.keys).Perm (as ++ started [a]) := by
  cases a with
  | get op =>
    have hstarted : started [Access.get op] = [op] := rfl
    obtain ⟨hnew, -, ⟨-, rfl⟩ | rfl⟩ := step_get hstep
    · rw [hstarted, List.append_assoc]
      refine List.Perm.trans ?_ (hperm.append_right [op])
      rw [List.append_assoc]
      exact List.Perm.append_left _ List.perm_append_comm
    · rw [hstarted, AList.keys_insert, List.erase_of_not_mem hnew]
      refine List.Perm.trans ?_ (hperm.append_right [op])
      rw [List.append_assoc]
      exact List.Perm.append_left _ (List.perm_append_singleton op _).symm
  | set op =>
    have hstarted : started [Access.set op] = [] := rfl
    obtain ⟨copy, doc, hcopy, -, rfl⟩ := step_set hstep
    have hmem : op ∈ r.inFlight.keys := by
      rw [← AList.mem_keys, ← AList.lookup_isSome, hcopy]
      rfl
    rw [hstarted, List.append_nil, AList.keys_erase, List.append_assoc]
    refine List.Perm.trans ?_ hperm
    exact List.Perm.append_left _ (List.perm_cons_erase hmem).symm

/-- In an undisturbed run the view is, in every state reached, that of the
    finished operations run one after the other. -/
theorem view_eq_serial {view : σ → κ} (h : ops.Respects view)
    (as : List (Access ι)) :
    ∀ {s : σ} {r r' : Shared σ ι}, ops.run r as = some r' → ops.UndisturbedRun view r as →
      view r.store = view (ops.serial s r.finished) →
      view r'.store = view (ops.serial s r'.finished) := by
  induction as with
  | nil =>
    intro s r r' hrun _ hview
    cases hrun
    exact hview
  | cons a as ih =>
    intro s r r' hrun hgood hview
    obtain ⟨r₁, hstep, hrest⟩ := Option.bind_eq_some_iff.mp hrun
    exact ih hrest (hgood.2 r₁ hstep) (step_view h hstep hgood.1 hview)

/-- The operations started are those finished and those in flight. -/
theorem finished_perm_started (as : List (Access ι)) :
    ∀ {r r' : Shared σ ι} (base : List ι), ops.run r as = some r' →
      (r.finished ++ r.inFlight.keys).Perm base →
      (r'.finished ++ r'.inFlight.keys).Perm (base ++ started as) := by
  induction as with
  | nil =>
    intro r r' base hrun hperm
    cases hrun
    have hnil : started ([] : List (Access ι)) = [] := rfl
    rw [hnil, List.append_nil]
    exact hperm
  | cons a as ih =>
    intro r r' base hrun hperm
    obtain ⟨r₁, hstep, hrest⟩ := Option.bind_eq_some_iff.mp hrun
    have hstarted : started (a :: as) = started [a] ++ started as := by
      cases a <;> rfl
    rw [hstarted, ← List.append_assoc]
    exact ih _ hrest (step_finished hstep base hperm)

/-- At most one operation is in flight, and its copy is the stored document. -/
structure Exclusive (r : Shared σ ι) : Prop where
  one : r.inFlight.keys.length ≤ 1
  copy_eq : ∀ op copy, r.inFlight.lookup op = some copy → copy = r.store

omit [DecidableEq lock] in
theorem exclusive_of_none {r : Shared σ ι} (h : r.inFlight.keys = []) : Exclusive r where
  one := by rw [h]; exact Nat.zero_le 1
  copy_eq := by
    intro op copy hlookup
    have hmem : op ∈ r.inFlight.keys := by
      rw [← AList.mem_keys, ← AList.lookup_isSome, hlookup]
      rfl
    rw [h] at hmem
    cases hmem

/-- Operations that all hold one lock take turns. -/
theorem Exclusive.step {key : lock} (hlock : ∀ op, ops.lockOf op = some key) {r r' : Shared σ ι}
    (h : Exclusive r) {a : Access ι} (hstep : ops.step r a = some r') : Exclusive r' := by
  cases a with
  | get op =>
    obtain ⟨hnew, hfree, ⟨-, rfl⟩ | rfl⟩ := step_get hstep
    · exact ⟨h.one, h.copy_eq⟩
    · have hempty : r.inFlight.keys = [] := by
        rw [List.eq_nil_iff_forall_not_mem]
        intro other hother
        have hne : ops.lockOf op ≠ none := by
          rw [hlock]
          exact Option.some_ne_none key
        exact hfree other hother hne (by rw [hlock, hlock])
      refine ⟨?_, ?_⟩
      · rw [AList.keys_insert, hempty]
        exact le_refl 1
      · intro op' copy hlookup
        by_cases hop : op' = op
        · subst hop
          rw [AList.lookup_insert] at hlookup
          cases hlookup
          rfl
        · rw [AList.lookup_insert_ne hop] at hlookup
          exact h.copy_eq op' copy hlookup
  | set op =>
    obtain ⟨copy, doc, hlookup, -, rfl⟩ := step_set hstep
    have hmem : op ∈ r.inFlight.keys := by
      rw [← AList.mem_keys, ← AList.lookup_isSome, hlookup]
      rfl
    have hone := h.one
    refine exclusive_of_none ?_
    rw [AList.keys_erase, ← List.length_eq_zero_iff, List.length_erase_of_mem hmem]
    omega

/-- Operations that all hold one lock are never disturbed. -/
theorem undisturbed_of_one_lock {view : σ → κ} {key : lock}
    (hlock : ∀ op, ops.lockOf op = some key) (as : List (Access ι)) :
    ∀ {r : Shared σ ι}, Exclusive r → ops.UndisturbedRun view r as := by
  induction as with
  | nil => intro r _; trivial
  | cons a as ih =>
    intro r h
    refine ⟨?_, fun r' hstep => ih (h.step hlock hstep)⟩
    cases a with
    | get op => trivial
    | set op =>
      intro copy hlookup
      rw [h.copy_eq op copy hlookup]

end Operations

end IbTrader.Lib
