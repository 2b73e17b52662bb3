import FerrumProxy.PairedRuns

/-!
# Steps that nobody should notice

Some labels of a system count as hidden: whether they occur or not should make no difference to what
its observers get and to what they can look at.
-/

namespace Runs

variable {σ α β κ γ : Type*} (step : σ → α → Option (σ × List β)) (hidden : σ → α → Prop)
  [∀ s a, Decidable (hidden s a)] [DecidableEq κ] (key : β → κ) (view : σ → γ)

/-- The labels of a run that are not hidden where they are executed. -/
def visible : σ → List α → List α
  | _, [] => []
  | s, a :: rest =>
    let later :=
      match step s a with
      | some (t, _) => visible t rest
      | none => rest
    if hidden s a then later else a :: later

/-- What the observer with the key gets. -/
def received (k : κ) (out : List β) : List β := out.filter (fun b => key b == k)

/-- Every observer has got the same, and what is in view is the same. -/
def LooksSame (s : σ) (first second : List α) : Prop :=
  (∀ k, (transcript step s first).map (received key k) =
      (transcript step s second).map (received key k)) ∧
    (run (silent step) s first).map view = (run (silent step) s second).map view

variable {step hidden key view} {s t : σ} {a : α} {out : List β} {acts : List α}

theorem silent_eq_some (hstep : step s a = some (t, out)) : silent step s a = some t :=
  silent_eq_some_iff.mpr ⟨out, hstep⟩

theorem visible_of_hidden (hhidden : hidden s a) (hstep : step s a = some (t, out)) :
    visible step hidden s (a :: acts) = visible step hidden t acts := by
  rw [visible, hstep, if_pos hhidden]

theorem visible_of_not_hidden (hvisible : ¬ hidden s a) (hstep : step s a = some (t, out)) :
    visible step hidden s (a :: acts) = a :: visible step hidden t acts := by
  rw [visible, hstep, if_neg hvisible]

theorem run_cons (hrun : run (silent step) s (a :: acts) = some t) :
    ∃ next out, step s a = some (next, out) ∧ run (silent step) next acts = some t := by
  obtain ⟨next, hnext, hrest⟩ := Option.bind_eq_some_iff.mp hrun
  obtain ⟨out, hstep⟩ := silent_eq_some_iff.mp hnext
  exact ⟨next, out, hstep, hrest⟩

variable {later first second : List α} {t₁ t₂ : σ}

open List

section

variable (hrun : run (silent step) s acts = some t)

include hrun

theorem visible_append :
    visible step hidden s (acts ++ later) =
      visible step hidden s acts ++ visible step hidden t later := by
  induction acts generalizing s with
  | nil =>
    cases hrun
    rfl
  | cons a rest ih =>
    obtain ⟨next, out, hstep, hrest⟩ := run_cons hrun
    by_cases hhidden : hidden s a
    · rw [cons_append, visible_of_hidden hhidden hstep, visible_of_hidden hhidden hstep, ih hrest]
    · rw [cons_append, visible_of_not_hidden hhidden hstep,
        visible_of_not_hidden hhidden hstep, ih hrest, cons_append]

/-- One more hidden label. -/
theorem visible_concat (hhidden : hidden t a) :
    visible step hidden s (acts ++ [a]) = visible step hidden s acts := by
  rw [visible_append hrun, visible, if_pos hhidden]
  split <;> exact append_nil _

theorem exists_prefix_visible (hsplit : visible step hidden s acts = first ++ later) :
    ∃ before, before <+: acts ∧ visible step hidden s before = first := by
  induction acts generalizing s first with
  | nil =>
    obtain ⟨rfl, _⟩ := append_eq_nil_iff.mp hsplit.symm
    exact ⟨[], prefix_rfl, rfl⟩
  | cons a rest ih =>
    obtain ⟨next, out, hstep, hrest⟩ := run_cons hrun
    by_cases hhidden : hidden s a
    · rw [visible_of_hidden hhidden hstep] at hsplit
      obtain ⟨before, hbefore, hvisible⟩ := ih hrest hsplit
      exact ⟨a :: before, cons_prefix_cons.mpr ⟨rfl, hbefore⟩,
        (visible_of_hidden hhidden hstep).trans hvisible⟩
    · cases first with
      | nil => exact ⟨[], nil_prefix, rfl⟩
      | cons b first =>
        rw [visible_of_not_hidden hhidden hstep, cons_append] at hsplit
        obtain ⟨rfl, htail⟩ := List.cons.inj hsplit
        obtain ⟨before, hbefore, hvisible⟩ := ih hrest htail
        refine ⟨a :: before, cons_prefix_cons.mpr ⟨rfl, hbefore⟩, ?_⟩
        rw [visible_of_not_hidden hhidden hstep, hvisible]

theorem transcript_append :
    transcript step s (acts ++ later) =
      (transcript step s acts).bind (fun out => (transcript step t later).map (out ++ ·)) := by
  induction acts generalizing s with
  | nil =>
    cases hrun
    simp [transcript]
  | cons a rest ih =>
    obtain ⟨next, out, hstep, hrest⟩ := run_cons hrun
    rw [cons_append, transcript, transcript, hstep, Option.bind_some, Option.bind_some, ih hrest]
    cases transcript step next rest with
    | none => rfl
    | some first =>
      cases transcript step t later with
      | none => rfl
      | some second => simp

theorem transcript_isSome : ∃ out, transcript step s acts = some out := by
  induction acts generalizing s with
  | nil => exact ⟨[], rfl⟩
  | cons a rest ih =>
    obtain ⟨next, out, hstep, hrest⟩ := run_cons hrun
    obtain ⟨later, hlater⟩ := ih hrest
    exact ⟨out ++ later, by rw [transcript, hstep, Option.bind_some, hlater]; rfl⟩

end

theorem run_initial {ok : σ → α → Prop} {before : List α} (hbefore : before <+: acts)
    (hrun : run (silent step) s acts = some t) (hguarded : Guarded (silent step) ok s acts) :
    (∃ middle, run (silent step) s before = some middle) ∧
      Guarded (silent step) ok s before := by
  induction before generalizing s acts with
  | nil => exact ⟨⟨s, rfl⟩, trivial⟩
  | cons a before ih =>
    cases acts with
    | nil => exact absurd (prefix_nil.mp hbefore) (cons_ne_nil a before)
    | cons b rest =>
      obtain ⟨rfl, hrest⟩ := cons_prefix_cons.mp hbefore
      obtain ⟨next, out, hstep, hlater⟩ := run_cons hrun
      obtain ⟨hok, hafter⟩ := hguarded
      rw [silent_eq_some hstep] at hafter
      obtain ⟨⟨middle, hmiddle⟩, hkept⟩ := ih hrest hlater hafter
      refine ⟨⟨middle, ?_⟩, hok, ?_⟩
      · rw [run, silent_eq_some hstep]
        exact hmiddle
      · rw [silent_eq_some hstep]
        exact hkept

theorem exists_not_ok {ok : σ → α → Prop} (hrun : run (silent step) s acts = some t)
    (hnot : ¬ Guarded (silent step) ok s acts) :
    ∃ before a after middle, acts = before ++ a :: after ∧
      run (silent step) s before = some middle ∧ ¬ ok middle a ∧
      ∃ next out, step middle a = some (next, out) := by
  induction acts generalizing s with
  | nil => exact absurd trivial hnot
  | cons a rest ih =>
    obtain ⟨next, out, hstep, hrest⟩ := run_cons hrun
    by_cases hok : ok s a
    · have hlater : ¬ Guarded (silent step) ok next rest := by
        intro hguarded
        refine hnot ⟨hok, ?_⟩
        rw [silent_eq_some hstep]
        exact hguarded
      obtain ⟨before, b, after, middle, rfl, hbefore, hfound⟩ := ih hrest hlater
      refine ⟨a :: before, b, after, middle, rfl, ?_, hfound⟩
      rw [run, silent_eq_some hstep]
      exact hbefore
    · exact ⟨[], a, rest, s, rfl, rfl, hok, next, out, hstep⟩

section Rule

variable {ok : σ → α → Prop} (hignored : ∀ s a, hidden s a → ok s a → step s a = some (s, []))
include hignored

/-- Hidden steps that change nothing can be left out. -/
theorem run_visible (hrun : run (silent step) s acts = some t)
    (hguarded : Guarded (silent step) ok s acts) :
    run (silent step) s (visible step hidden s acts) = some t ∧
      transcript step s (visible step hidden s acts) = transcript step s acts := by
  induction acts generalizing s with
  | nil => exact ⟨hrun, rfl⟩
  | cons a rest ih =>
    obtain ⟨next, out, hstep, hrest⟩ := run_cons hrun
    obtain ⟨hok, hafter⟩ := hguarded
    rw [silent_eq_some hstep] at hafter
    obtain ⟨hrun', htranscript⟩ := ih hrest hafter
    by_cases hhidden : hidden s a
    · have hsame := hignored s a hhidden hok
      rw [hstep] at hsame
      cases hsame
      rw [visible_of_hidden hhidden hstep, transcript, hstep, htranscript]
      exact ⟨hrun', by simp⟩
    · rw [visible_of_not_hidden hhidden hstep, run, silent_eq_some hstep, transcript, transcript,
        hstep, Option.bind_some, Option.bind_some, Option.bind_some, htranscript]
      exact ⟨hrun', rfl⟩

/-- **Runs that take no notice of hidden labels look the same.** -/
theorem looksSame_of_guarded (hfirst : run (silent step) s first = some t₁)
    (hsecond : run (silent step) s second = some t₂)
    (hsame : visible step hidden s first = visible step hidden s second)
    (hguarded₁ : Guarded (silent step) ok s first) (hguarded₂ : Guarded (silent step) ok s second) :
    LooksSame step key view s first second := by
  obtain ⟨hrun₁, htranscript₁⟩ := run_visible hignored hfirst hguarded₁
  obtain ⟨hrun₂, htranscript₂⟩ := run_visible hignored hsecond hguarded₂
  rw [hsame] at hrun₁ htranscript₁
  refine ⟨fun k => ?_, ?_⟩
  · rw [← htranscript₁, ← htranscript₂]
  · rw [hfirst, hsecond, ← hrun₁, ← hrun₂]

/-- **When a run looks like one that takes no notice of hidden labels.** -/
theorem looksSame_iff
    (hheard : ∀ s a t out, ¬ ok s a → step s a = some (t, out) → hidden s a ∧ out ≠ [])
    (hfirst : run (silent step) s first = some t₁)
    (hsecond : run (silent step) s second = some t₂)
    (hsame : visible step hidden s first = visible step hidden s second)
    (hquiet : Guarded (silent step) ok s second) :
    (∀ p₁ p₂, p₁ <+: first → p₂ <+: second →
        visible step hidden s p₁ = visible step hidden s p₂ → LooksSame step key view s p₁ p₂) ↔
      Guarded (silent step) ok s first := by
  constructor
  · intro hlooks
    by_contra hnot
    obtain ⟨before, a, after, middle, rfl, hbefore, hnotOk, next, out, hstep⟩ :=
      exists_not_ok hfirst hnot
    obtain ⟨hhidden, hout⟩ := hheard middle a next out hnotOk hstep
    -- the prefixes before and after the hidden step have the same visible labels
    have hvisible := visible_concat hbefore hhidden
    rw [visible_append hbefore] at hsame
    obtain ⟨p₂, hp₂, hp₂visible⟩ := exists_prefix_visible hsecond hsame.symm
    have hshort := (hlooks before p₂ (prefix_append _ _) hp₂ hp₂visible.symm).1
    have hlong := (hlooks (before ++ [a]) p₂ ⟨after, by simp⟩ hp₂
      (hvisible.trans hp₂visible.symm)).1
    obtain ⟨earlier, hearlier⟩ := transcript_isSome hbefore
    obtain ⟨b, more, rfl⟩ := exists_cons_of_ne_nil hout
    have hgrown := (hlong (key b)).trans (hshort (key b)).symm
    rw [transcript_append hbefore, hearlier, transcript, hstep] at hgrown
    simp [transcript, received] at hgrown
  · intro hguarded p₁ p₂ hp₁ hp₂ hvisible
    obtain ⟨⟨m₁, hm₁⟩, hguarded₁⟩ := run_initial hp₁ hfirst hguarded
    obtain ⟨⟨m₂, hm₂⟩, hguarded₂⟩ := run_initial hp₂ hsecond hquiet
    exact looksSame_of_guarded hignored hm₁ hm₂ hvisible hguarded₁ hguarded₂

end Rule

end Runs
