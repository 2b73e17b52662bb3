import Mathlib

/-!
# Guarded runs of a labelled transition system

A system is given by a partial step function: `step s a = some s'` when the label `a` is enabled in
`s` and leads to `s'`.  Nondeterminism is carried by the labels, so one list of labels is one
interleaving.  The only induction over runs is `Reaches.invariant`; every safety theorem is then a
statement about one step.
-/

namespace Runs

open AList

variable {σ α : Type*}

/-- Execute a list of labels, stopping at the first disabled one. -/
def run (step : σ → α → Option σ) : σ → List α → Option σ
  | s, [] => some s
  | s, a :: rest => (step s a).bind (fun t => run step t rest)

theorem run_nil (step : σ → α → Option σ) (s : σ) : run step s [] = some s := rfl

/-- The guard that every step meets. -/
def Always (_ : σ) (_ : α) : Prop := True

/-- Some run from `s₀` to the indexed state takes only steps that meet `ok`. -/
inductive Reaches (step : σ → α → Option σ) (ok : σ → α → Prop) (s₀ : σ) : σ → Prop
  | start : Reaches step ok s₀ s₀
  | next {s t : σ} {a : α}
      (before : Reaches step ok s₀ s)
      (hok : ok s a)
      (hstep : step s a = some t) : Reaches step ok s₀ t

variable {step : σ → α → Option σ} {ok : σ → α → Prop} {s₀ s t : σ}

variable {Inv : σ → Prop} {acts : List α} {ok' : σ → α → Prop}

/-- **The invariant rule.**  What holds initially and is kept by every guarded
step holds in every state a guarded run reaches. -/
theorem Reaches.invariant (hreach : Reaches step ok s₀ s) (hinit : Inv s₀)
    (hkeep : ∀ s a t, Inv s → ok s a → step s a = some t → Inv t) : Inv s := by
  induction hreach with
  | start => exact hinit
  | next _ hok hstep ih => exact hkeep _ _ _ ih hok hstep

/-- Guarded runs can be continued by guarded runs. -/
theorem Reaches.trans (hfirst : Reaches step ok s₀ s) (hsecond : Reaches step ok s t) :
    Reaches step ok s₀ t := by
  induction hsecond with
  | start => exact hfirst
  | next _ hok hstep ih => exact ih.next hok hstep

/-- Every label meets the guard in the state it is executed in. -/
def Guarded (step : σ → α → Option σ) (ok : σ → α → Prop) : σ → List α → Prop
  | _, [] => True
  | s, a :: rest =>
    ok s a ∧
      match step s a with
      | none => True
      | some t => Guarded step ok t rest

instance instDecidableGuarded (step : σ → α → Option σ) (ok : σ → α → Prop)
    [∀ s a, Decidable (ok s a)] : ∀ (s : σ) (acts : List α), Decidable (Guarded step ok s acts)
  | _, [] => isTrue trivial
  | s, a :: rest =>
    match hstep : step s a with
    | none => decidable_of_iff (ok s a) (by simp [Guarded, hstep])
    | some t =>
      have := instDecidableGuarded step ok t rest
      decidable_of_iff (ok s a ∧ Guarded step ok t rest) (by simp [Guarded, hstep])

/-- A successful execution whose labels meet the guard is a guarded run. -/
theorem reaches_of_guarded (hguarded : Guarded step ok s acts) (hrun : run step s acts = some t) :
    Reaches step ok s t := by
  induction acts generalizing s with
  | nil =>
    simp only [run, Option.some.injEq] at hrun
    exact hrun ▸ Reaches.start
  | cons a rest ih =>
    obtain ⟨middle, hstep, hrest⟩ := Option.bind_eq_some_iff.mp hrun
    obtain ⟨hok, hafter⟩ := hguarded
    rw [hstep] at hafter
    have hfirst : Reaches step ok s middle := Reaches.next Reaches.start hok hstep
    exact hfirst.trans (ih hafter hrest)

open List

theorem run_append (first second : List α) :
    run step s (first ++ second) = (run step s first).bind (run step · second) := by
  induction first generalizing s with
  | nil => rfl
  | cons a rest ih => simp only [cons_append, run, ih, Option.bind_assoc]

/-- What the guard says of the labels holds of each of them. -/
theorem forall_of_guarded {P : α → Prop} (hok : ∀ s a, ok s a → P a)
    (hguarded : Guarded step ok s acts) (hrun : run step s acts = some t) : ∀ a ∈ acts, P a := by
  induction acts generalizing s with
  | nil => exact fun _ hmem => (nomatch hmem)
  | cons a rest ih =>
    obtain ⟨middle, hstep, hrest⟩ := Option.bind_eq_some_iff.mp hrun
    obtain ⟨hnow, hafter⟩ := hguarded
    rw [hstep] at hafter
    exact forall_mem_cons.mpr ⟨hok s a hnow, ih hafter hrest⟩

/-- Labels that meet the guard in every state. -/
theorem guarded_of_forall (hok : ∀ a ∈ acts, ∀ s, ok s a) (s : σ) : Guarded step ok s acts := by
  induction acts generalizing s with
  | nil => trivial
  | cons a rest ih =>
    refine ⟨hok a mem_cons_self s, ?_⟩
    cases step s a with
    | none => trivial
    | some t => exact ih (fun b hb => hok b (mem_cons_of_mem a hb)) t

/-- Labels that meet two guards meet both at once. -/
theorem Guarded.and (h : Guarded step ok s acts) (h' : Guarded step ok' s acts) :
    Guarded step (fun s a => ok s a ∧ ok' s a) s acts := by
  induction acts generalizing s with
  | nil => trivial
  | cons a rest ih =>
    obtain ⟨hnow, hlater⟩ := h
    obtain ⟨hnow', hlater'⟩ := h'
    refine ⟨⟨hnow, hnow'⟩, ?_⟩
    cases hstep : step s a with
    | none => trivial
    | some t =>
      rw [hstep] at hlater hlater'
      exact ih hlater hlater'

/-- **Exchanging guards.**  Two guards that agree where an invariant holds agree
along every run from there, if steps that meet the second one keep the invariant. -/
theorem guarded_congr {base : σ → α → Prop} (hiff : ∀ s a, Inv s → base s a → (ok s a ↔ ok' s a))
    (hkeep : ∀ s a t, Inv s → base s a → ok' s a → step s a = some t → Inv t) (hinit : Inv s)
    (hbase : Guarded step base s acts) : Guarded step ok s acts ↔ Guarded step ok' s acts := by
  induction acts generalizing s with
  | nil => exact Iff.rfl
  | cons a rest ih =>
    obtain ⟨hnow, hlater⟩ := hbase
    unfold Guarded
    rw [hiff s a hinit hnow]
    refine and_congr_right (fun hok => ?_)
    cases hstep : step s a with
    | none => exact Iff.rfl
    | some t =>
      rw [hstep] at hlater
      exact ih (hkeep s a t hinit hnow hok hstep) hlater

/-- A successful execution is a run under the trivial guard. -/
theorem reaches_of_run (hrun : run step s acts = some t) : Reaches step Always s t :=
  reaches_of_guarded (guarded_of_forall (fun _ _ _ => trivial) s) hrun

/-- **Kept by the guard.**  If steps keep what is right exactly when they meet the guard, and
nothing puts it right again, a run ends right exactly when it meets the guard. -/
theorem guarded_iff_kept {base : σ → α → Prop} {Right : σ → Prop} (hinit : Inv s)
    (hbase : Guarded step base s acts)
    (hinv : ∀ s a t, Inv s → base s a → step s a = some t → Inv t)
    (hkept : ∀ s a t, Inv s → base s a → step s a = some t → (Right t ↔ Right s ∧ ok s a))
    (hrun : run step s acts = some t) : Right t ↔ Right s ∧ Guarded step ok s acts := by
  induction acts generalizing s with
  | nil =>
    cases hrun
    exact (and_iff_left trivial).symm
  | cons a rest ih =>
    obtain ⟨middle, hstep, hrest⟩ := Option.bind_eq_some_iff.mp hrun
    obtain ⟨hnow, hlater⟩ := hbase
    rw [hstep] at hlater
    rw [ih (hinv s a middle hinit hnow hstep) hlater hrest, hkept s a middle hinit hnow hstep,
      and_assoc, Guarded, hstep]

/-- **Right along the way.**  If steps that meet the guard keep an invariant that is right, and
the others lead to something that is not, then a run is right after each of its beginnings
exactly when it meets the guard. -/
theorem guarded_iff_prefixes {Right : σ → Prop} (hinit : Inv s) (hright : ∀ s, Inv s → Right s)
    (hkeep : ∀ s a t, Inv s → ok s a → step s a = some t → Inv t)
    (hbreak : ∀ s a t, Inv s → ¬ ok s a → step s a = some t → ¬ Right t)
    (hrun : run step s acts = some t) :
    (∀ n u, run step s (acts.take n) = some u → Right u) ↔ Guarded step ok s acts := by
  induction acts generalizing s with
  | nil =>
    refine ⟨fun _ => trivial, fun _ n u hu => ?_⟩
    rw [take_nil, run_nil] at hu
    cases hu
    exact hright s hinit
  | cons a rest ih =>
    obtain ⟨middle, hstep, hrest⟩ := Option.bind_eq_some_iff.mp hrun
    have hfirst : ∀ n, run step s ((a :: rest).take (n + 1)) = run step middle (rest.take n) :=
      fun n => congrArg (Option.bind · _) hstep
    constructor
    · intro hall
      have hok : ok s a := by
        by_contra hnot
        exact hbreak s a middle hinit hnot hstep (hall 1 middle (hfirst 0))
      refine ⟨hok, ?_⟩
      rw [hstep]
      exact (ih (hkeep s a middle hinit hok hstep) hrest).mp
        (fun n u hu => hall (n + 1) u ((hfirst n).trans hu))
    · intro hguarded n u hu
      obtain ⟨hok, hlater⟩ := hguarded
      rw [hstep] at hlater
      cases n with
      | zero =>
        cases hu
        exact hright s hinit
      | succ n =>
        exact (ih (hkeep s a middle hinit hok hstep) hrest).mpr hlater n u
          ((hfirst n).symm.trans hu)

/-! ## Task pools

Concurrent tasks are kept in a pool: which task, if any, runs under which
identifier.  A step of one task replaces that task, removes it, or adds
another one; facts about all tasks follow the pool. -/

/-- The running tasks by identifier. -/
abbrev Pool (τ : Type*) := AList (fun _ : Nat => τ)

namespace Pool

variable {τ : Type*} {P Q : τ → Prop} {pool : Pool τ} {id other : Nat} {task found : τ}

/-- The pool with the given task under the identifier. -/
def put (pool : Pool τ) (id : Nat) (task : τ) : Pool τ := pool.insert id task

/-- The pool without the task under the identifier. -/
def drop (pool : Pool τ) (id : Nat) : Pool τ := pool.erase id

/-- Every running task has the property. -/
def All (P : τ → Prop) (pool : Pool τ) : Prop := ∀ id task, pool.lookup id = some task → P task

@[simp]
theorem put_self (pool : Pool τ) (id : Nat) (task : τ) : (pool.put id task).lookup id = some task :=
  lookup_insert pool

@[simp]
theorem put_ne (pool : Pool τ) (task : τ) (hne : other ≠ id) :
    (pool.put id task).lookup other = pool.lookup other :=
  lookup_insert_ne hne

@[simp]
theorem drop_self (pool : Pool τ) (id : Nat) : (pool.drop id).lookup id = none :=
  lookup_erase id pool

@[simp]
theorem drop_ne (pool : Pool τ) (hne : other ≠ id) :
    (pool.drop id).lookup other = pool.lookup other :=
  lookup_erase_ne hne

@[grind =]
theorem lookup_put (pool : Pool τ) (id other : Nat) (task : τ) :
    (pool.put id task).lookup other = if other = id then some task else pool.lookup other := by
  split
  · next h => rw [h, put_self]
  · next h => rw [put_ne pool task h]

@[grind =]
theorem lookup_drop (pool : Pool τ) (id other : Nat) :
    (pool.drop id).lookup other = if other = id then none else pool.lookup other := by
  split
  · next h => rw [h, drop_self]
  · next h => rw [drop_ne pool h]

/-- The pool with every task changed. -/
def map (f : τ → τ) (pool : Pool τ) : Pool τ where
  entries := pool.entries.map (Sigma.map (fun key => key) (fun _ => f))
  nodupKeys := List.NodupKeys.map₂ (fun _ => f) pool.entries pool.nodupKeys

@[grind =]
theorem lookup_map (f : τ → τ) (pool : Pool τ) (id : Nat) :
    (pool.map f).lookup id = (pool.lookup id).map f :=
  dlookup_map₂ (f := fun _ => f) id

/-- An identifier names one task. -/
theorem lookup_unique (hfirst : pool.lookup id = some task)
    (hsecond : pool.lookup id = some found) : found = task :=
  Option.some.inj (hsecond.symm.trans hfirst)

/-- A task of a changed pool is the new one, or it was there before. -/
theorem put_eq_some (h : (pool.put id task).lookup other = some found) :
    (other = id ∧ found = task) ∨ (other ≠ id ∧ pool.lookup other = some found) := by
  by_cases hid : other = id
  · subst hid
    rw [put_self] at h
    cases h
    exact .inl ⟨rfl, rfl⟩
  · rw [put_ne pool task hid] at h
    exact .inr ⟨hid, h⟩

theorem drop_eq_some (h : (pool.drop id).lookup other = some found) :
    other ≠ id ∧ pool.lookup other = some found := by
  by_cases hid : other = id
  · subst hid
    rw [drop_self] at h
    cases h
  · rw [drop_ne pool hid] at h
    exact ⟨hid, h⟩

theorem All.put (hall : pool.All P) (htask : P task) : (pool.put id task).All P := by
  intro other found hfound
  rcases put_eq_some hfound with ⟨_, rfl⟩ | ⟨_, hold⟩
  · exact htask
  · exact hall other found hold

theorem All.drop (hall : pool.All P) : (pool.drop id).All P := by
  intro other found hfound
  exact hall other found (drop_eq_some hfound).2

/-- Some running task has the property. -/
def Any (P : τ → Prop) (pool : Pool τ) : Prop := ∃ id task, pool.lookup id = some task ∧ P task

/-- Another task is still there if the one that is replaced did not have the property, or its
successor has it too. -/
theorem Any.put (hany : pool.Any P) (hkeep : ∀ old, pool.lookup id = some old → P old → P task) :
    (pool.put id task).Any P := by
  obtain ⟨other, found, hfound, hP⟩ := hany
  by_cases hid : other = id
  · subst hid
    exact ⟨other, task, put_self pool other task, hkeep found hfound hP⟩
  · exact ⟨other, found, (put_ne pool task hid).trans hfound, hP⟩

theorem Any.drop (hany : pool.Any P) (hlookup : pool.lookup id = some task) (hnot : ¬ P task) :
    (pool.drop id).Any P := by
  obtain ⟨other, found, hfound, hP⟩ := hany
  have hid : other ≠ id := by
    intro h
    subst h
    exact hnot (lookup_unique hlookup hfound ▸ hP)
  exact ⟨other, found, (drop_ne pool hid).trans hfound, hP⟩

/-- A property of all tasks of a given pool can be checked entry by entry. -/
theorem all_of_entries (h : ∀ entry ∈ pool.entries, P entry.2) : pool.All P := by
  intro other found hfound
  exact h ⟨other, found⟩ (mem_lookup_iff.mp hfound)

instance [DecidablePred P] : Decidable (pool.All P) :=
  decidable_of_iff (∀ entry ∈ pool.entries, P entry.2)
    ⟨all_of_entries, fun h entry hentry => h entry.1 entry.2 (mem_lookup_iff.mpr hentry)⟩

/-! ### Counting tasks -/

/-- How many running tasks have the property. -/
def count (P : Nat → τ → Bool) (pool : Pool τ) : Nat :=
  pool.entries.countP (fun entry => P entry.1 entry.2)

section Count

variable {A B : Nat → τ → Bool}

theorem count_congr (h : ∀ id task, pool.lookup id = some task → A id task = B id task) :
    pool.count A = pool.count B := by
  refine countP_congr (fun entry hentry => ?_)
  rw [h entry.1 entry.2 (mem_lookup_iff.mpr hentry)]

theorem count_pos (hlookup : pool.lookup id = some task) (htask : A id task = true) :
    0 < pool.count A :=
  countP_pos_iff.mpr ⟨⟨id, task⟩, mem_lookup_iff.mp hlookup, htask⟩

theorem count_eq_zero (h : ∀ id task, pool.lookup id = some task → A id task = false) :
    pool.count A = 0 := by
  refine countP_eq_zero.mpr (fun entry hentry => ?_)
  rw [h entry.1 entry.2 (mem_lookup_iff.mpr hentry)]
  exact Bool.false_ne_true

theorem count_put_new (hnew : pool.lookup id = none) :
    (pool.put id task).count A = pool.count A + (A id task).toNat := by
  have hentries : (pool.put id task).entries = ⟨id, task⟩ :: pool.entries :=
    entries_insert_of_notMem (lookup_eq_none.mp hnew)
  rw [count, hentries, countP_cons, count]
  cases A id task <;> rfl

/-- A task that leaves takes its contribution with it. -/
theorem count_drop (hlookup : pool.lookup id = some task) :
    (pool.drop id).count A + (A id task).toNat = pool.count A := by
  have hkeys : id ∈ pool.entries.keys := lookup_isSome.mp (by rw [hlookup]; rfl)
  obtain ⟨old, before, after, _, hentries, herase⟩ := exists_of_kerase hkeys
  have hold : old = task := by
    have hmem : old ∈ pool.lookup id := mem_lookup_iff.mpr (by rw [hentries]; simp)
    exact Option.some.inj (hmem.symm.trans hlookup)
  have hdrop : (pool.drop id).entries = before ++ after := herase
  have hnat : ∀ b : Bool, (if b = true then 1 else 0) = b.toNat := by decide
  rw [count, count, hdrop, hentries, hold]
  simp only [countP_cons, countP_append, hnat]
  omega

/-- Replacing a task replaces its contribution. -/
theorem count_put (hlookup : pool.lookup id = some task) :
    (pool.put id found).count A + (A id task).toNat = pool.count A + (A id found).toNat := by
  have hdrop := count_drop (A := A) hlookup
  have hput : (pool.put id found).count A = (pool.drop id).count A + (A id found).toNat := by
    rw [count, put, entries_insert, countP_cons, count]
    cases A id found <;> rfl
  omega

end Count

end Pool

end Runs
