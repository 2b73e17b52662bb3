import FerrumProxy.GuardedRuns

/-!
# What a history of events leaves

A fact that events set and clear holds after a history if it was set and not cleared since
(`Since`); a value that events write is the last one written (`lastOf`).  Where what an event writes
depends on the state, the history is a run.
-/

namespace Runs

open List

section Since

variable {ε β : Type} (sets clears : ε → Prop) (initially : Prop)

/-- An event has set the fact and none has cleared it since, or it held from the start and
none has cleared it. -/
def Since (events : List ε) : Prop :=
  (∃ before event after, events = before ++ event :: after ∧ sets event ∧
      ∀ later ∈ after, ¬ clears later) ∨
    (initially ∧ ∀ event ∈ events, ¬ clears event)

variable {sets clears initially}

theorem since_nil : Since sets clears initially [] ↔ initially := by
  constructor
  · intro h
    rcases h with ⟨before, event, after, hnil, _⟩ | ⟨h, _⟩
    · simp at hnil
    · exact h
  · intro h
    exact .inr ⟨h, fun _ hmem => (nomatch hmem)⟩

theorem since_snoc {events : List ε} {last : ε} :
    Since sets clears initially (events ++ [last]) ↔
      sets last ∨ (Since sets clears initially events ∧ ¬ clears last) := by
  constructor
  · intro h
    rcases h with ⟨before, event, after, heq, hset, hkept⟩ | ⟨hinit, hkept⟩
    · rcases eq_nil_or_concat after with rfl | ⟨init, final, rfl⟩
      · obtain ⟨_, hlast⟩ := append_inj' heq rfl
        cases hlast
        exact .inl hset
      · rw [concat_eq_append, ← cons_append, ← append_assoc] at heq
        obtain ⟨hevents, hlast⟩ := append_inj' heq rfl
        cases hlast
        refine .inr ⟨.inl ⟨before, event, init, hevents, hset, fun later hlater => ?_⟩, ?_⟩
        · exact hkept later (by simp [hlater])
        · exact hkept last (by simp)
    · exact .inr ⟨.inr ⟨hinit, fun event hevent => hkept event (by simp [hevent])⟩,
        hkept last (by simp)⟩
  · intro h
    rcases h with hset | ⟨⟨before, event, after, rfl, hset, hkept⟩ | ⟨hinit, hkept⟩, hlast⟩
    · exact .inl ⟨events, last, [], rfl, hset, fun _ hmem => (nomatch hmem)⟩
    · refine .inl ⟨before, event, after ++ [last], by simp, hset, fun later hlater => ?_⟩
      rcases mem_append.mp hlater with hlater | hlater
      · exact hkept later hlater
      · rwa [mem_singleton.mp hlater]
    · refine .inr ⟨hinit, fun event hevent => ?_⟩
      rcases mem_append.mp hevent with hevent | hevent
      · exact hkept event hevent
      · rwa [mem_singleton.mp hevent]

/-- The value that was written last. -/
def lastOf (writes : ε → Option β) (initial : β) (events : List ε) : β :=
  (events.filterMap writes).getLastD initial

theorem lastOf_snoc (writes : ε → Option β) (initial : β) (events : List ε) (last : ε) :
    lastOf writes initial (events ++ [last]) =
      (writes last).getD (lastOf writes initial events) := by
  rw [lastOf, filterMap_append]
  cases hwrites : writes last with
  | none => simp [lastOf, hwrites]
  | some value => simp [hwrites]

end Since

/-! ## The last write of a run -/

section Writes

variable {σ α γ : Type*} {step : σ → α → Option σ} {value : σ → γ} {writes : σ → α → Option γ}

/-- The step writes nothing. -/
def Unwritten (writes : σ → α → Option γ) (s : σ) (a : α) : Prop := writes s a = none

variable {acts : List α} {s t : σ}

/-- **The last write.**  A value in the last state of a run was there from the start, or some
step has written it; no step has written anything since. -/
theorem written_last (hstep : ∀ s a t, step s a = some t → value t = (writes s a).getD (value s))
    (hrun : run step s acts = some t) :
    (value t = value s ∧ Guarded step (Unwritten writes) s acts) ∨
      ∃ before a after middle next, acts = before ++ a :: after ∧
        run step s before = some middle ∧ step middle a = some next ∧
        writes middle a = some (value t) ∧ run step next after = some t ∧
        Guarded step (Unwritten writes) next after := by
  induction acts generalizing s with
  | nil =>
    cases hrun
    exact .inl ⟨rfl, trivial⟩
  | cons a rest ih =>
    obtain ⟨next, hnext, hrest⟩ := Option.bind_eq_some_iff.mp hrun
    rcases ih hrest with ⟨hkept, hquiet⟩ | ⟨before, b, after, middle, other, rfl, hbefore, hlater⟩
    · have hvalue := hstep s a next hnext
      cases hwrites : writes s a with
      | none =>
        rw [hwrites, Option.getD_none] at hvalue
        refine .inl ⟨hkept.trans hvalue, hwrites, ?_⟩
        rw [hnext]
        exact hquiet
      | some written =>
        rw [hwrites, Option.getD_some] at hvalue
        exact .inr ⟨[], a, rest, s, next, rfl, rfl, hnext, by rw [hwrites, hkept, hvalue],
          hrest, hquiet⟩
    · refine .inr ⟨a :: before, b, after, middle, other, rfl, ?_, hlater⟩
      rw [run, hnext]
      exact hbefore

end Writes

/-! ## What the steps of a run take and give -/

section Logs

variable {σ α β γ : Type*} {step : σ → α → Option σ}

/-- What the steps of a run note, one after another. -/
def logged (step : σ → α → Option σ) (notes : σ → α → List β) : σ → List α → List β
  | _, [] => []
  | s, a :: rest => notes s a ++ ((step s a).elim [] (fun t => logged step notes t rest))

variable {notes : σ → α → List β} {acts : List α} {s t : σ}

theorem mem_logged {x : β} (hmem : x ∈ logged step notes s acts) :
    ∃ before a after t, acts = before ++ a :: after ∧ run step s before = some t ∧
      x ∈ notes t a := by
  induction acts generalizing s with
  | nil => cases hmem
  | cons a rest ih =>
    rcases mem_append.mp hmem with hnow | hlater
    · exact ⟨[], a, rest, s, rfl, rfl, hnow⟩
    · cases hstep : step s a with
      | none =>
        rw [hstep] at hlater
        cases hlater
      | some t =>
        rw [hstep] at hlater
        obtain ⟨before, b, after, u, rfl, hrun, hnotes⟩ := ih hlater
        refine ⟨a :: before, b, after, u, rfl, ?_, hnotes⟩
        rw [run, hstep]
        exact hrun

/-- What a step keeps of a state and what was noted before it, a run keeps. -/
theorem logged_invariant {Inv : σ → List β → Prop}
    (hstep : ∀ s log a t, Inv s log → step s a = some t → Inv t (log ++ notes s a)) {log : List β}
    (hinit : Inv s log) (hrun : run step s acts = some t) :
    Inv t (log ++ logged step notes s acts) := by
  induction acts generalizing s log with
  | nil =>
    cases hrun
    rw [logged, append_nil]
    exact hinit
  | cons a rest ih =>
    obtain ⟨next, hnext, hrest⟩ := Option.bind_eq_some_iff.mp hrun
    have hlater := ih (hstep s log a next hinit hnext) hrest
    rw [logged, hnext, Option.elim_some, ← append_assoc]
    exact hlater

/-- **Conservation.**  If each step hands over what it gives out of what was held and what it
takes, in order, then so does a run. -/
theorem logged_balance (takes gives : σ → α → List β) (held : σ → List β)
    (hstep : ∀ s a t, step s a = some t → held s ++ takes s a = gives s a ++ held t)
    (hrun : run step s acts = some t) :
    held s ++ logged step takes s acts = logged step gives s acts ++ held t := by
  induction acts generalizing s with
  | nil =>
    cases hrun
    rw [logged, logged, append_nil, nil_append]
  | cons a rest ih =>
    obtain ⟨next, hnext, hrest⟩ := Option.bind_eq_some_iff.mp hrun
    calc held s ++ logged step takes s (a :: rest)
        = held s ++ takes s a ++ logged step takes next rest := by
          rw [logged, hnext, append_assoc]
          rfl
      _ = gives s a ++ (held next ++ logged step takes next rest) := by
          rw [hstep s a next hnext, append_assoc]
      _ = logged step gives s (a :: rest) ++ held t := by
          rw [ih hrest, logged, hnext, append_assoc]
          rfl

/-- Notes that depend on the labels alone. -/
theorem logged_of_run (notes : α → List β) (hrun : run step s acts = some t) :
    logged step (fun _ a => notes a) s acts = acts.flatMap notes := by
  induction acts generalizing s with
  | nil => rfl
  | cons a rest ih =>
    obtain ⟨next, hnext, hrest⟩ := Option.bind_eq_some_iff.mp hrun
    rw [logged, hnext, Option.elim_some, ih hrest, flatMap_cons]

theorem logged_map (notes : σ → α → List β) (f : β → γ) (s : σ) (acts : List α) :
    logged step (fun s a => (notes s a).map f) s acts = (logged step notes s acts).map f := by
  induction acts generalizing s with
  | nil => rfl
  | cons a rest ih =>
    rw [logged, logged, map_append]
    cases step s a with
    | none => rfl
    | some t => exact congrArg _ (ih t)

end Logs

end Runs
