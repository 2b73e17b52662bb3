import FerrumProxy.GuardedRuns

/-!
# Two runs in lockstep

A system that answers its environment is given by a step function that also yields the outputs of
the step.  Two runs over the same labels are compared by a relation between their states.
-/

namespace Runs

open AList Option

/-! ## Transcripts -/

section Transcripts

variable {σ α β : Type*}

/-- What a list of labels puts out, if all of them are enabled. -/
def transcript (step : σ → α → Option (σ × List β)) : σ → List α → Option (List β)
  | _, [] => some []
  | s, a :: rest =>
    (step s a).bind (fun next => (transcript step next.1 rest).map (next.2 ++ ·))

/-- The steps without their outputs. -/
def silent (step : σ → α → Option (σ × List β)) (s : σ) (a : α) : Option σ :=
  (step s a).map Prod.fst

theorem silent_eq_some_iff {step : σ → α → Option (σ × List β)} {s t : σ} {a : α} :
    silent step s a = some t ↔ ∃ out, step s a = some (t, out) := by
  rw [silent, map_eq_some_iff]
  constructor
  · intro ⟨⟨next, out⟩, hstep, hnext⟩
    exact ⟨out, by rw [hstep, ← hnext]⟩
  · intro ⟨out, hstep⟩
    exact ⟨(t, out), hstep, rfl⟩

/-- Related states take related steps with outputs of one length, and the outputs
are the same exactly if the label meets the guard. -/
def Lockstep (step : σ → α → Option (σ × List β)) (R : σ → σ → Prop) (admissible : α → Prop)
    (ok : σ → α → Prop) : Prop :=
  ∀ s₁ s₂ a t₁ out₁, R s₁ s₂ → admissible a → step s₁ a = some (t₁, out₁) →
    ∃ t₂ out₂, step s₂ a = some (t₂, out₂) ∧ R t₁ t₂ ∧ out₁.length = out₂.length ∧
      (out₁ = out₂ ↔ ok s₁ a)

variable {step : σ → α → Option (σ × List β)} {R : σ → σ → Prop} {admissible : α → Prop}
  {ok : σ → α → Prop}

/-- **The lockstep rule.** -/
theorem transcript_eq_iff (hlockstep : Lockstep step R admissible ok) {acts : List α} {s₁ s₂ : σ}
    {out₁ : List β} (hrelated : R s₁ s₂) (hacts : ∀ a ∈ acts, admissible a)
    (hrun : transcript step s₁ acts = some out₁) :
    ∃ out₂, transcript step s₂ acts = some out₂ ∧
      (out₁ = out₂ ↔ Guarded (silent step) ok s₁ acts) := by
  induction acts generalizing s₁ s₂ out₁ with
  | nil =>
    cases hrun
    exact ⟨[], rfl, fun _ => trivial, fun _ => rfl⟩
  | cons a rest ih =>
    obtain ⟨⟨t₁, now₁⟩, hstep₁, hlater⟩ := bind_eq_some_iff.mp hrun
    obtain ⟨later₁, hrest₁, rfl⟩ := map_eq_some_iff.mp hlater
    obtain ⟨t₂, now₂, hstep₂, hrelated', hlength, hnow⟩ :=
      hlockstep s₁ s₂ a t₁ now₁ hrelated (hacts a List.mem_cons_self) hstep₁
    obtain ⟨later₂, hrest₂, hlater⟩ :=
      ih hrelated' (fun b hb => hacts b (List.mem_cons_of_mem a hb)) hrest₁
    refine ⟨now₂ ++ later₂, ?_, ?_⟩
    · rw [transcript, hstep₂, bind_some, hrest₂, map_some]
    · have hsplit : now₁ ++ later₁ = now₂ ++ later₂ ↔ now₁ = now₂ ∧ later₁ = later₂ :=
        ⟨fun h => List.append_inj h hlength, fun h => by rw [h.1, h.2]⟩
      simp only [hsplit, hnow, hlater, Guarded, silent, hstep₁, map_some]

end Transcripts

theorem rel_map {α β γ δ : Type*} {R : α → β → Prop} {S : γ → δ → Prop} {a : Option α}
    {b : Option β} {f : α → γ} {g : β → δ} (h : Rel R a b)
    (hfg : ∀ x y, R x y → S (f x) (g y)) : Rel S (a.map f) (b.map g) := by
  cases h with
  | none => exact .none
  | some hxy => exact .some (hfg _ _ hxy)

/-! ## Maps with the same keys -/

section Maps

variable {κ τ : Type*} [DecidableEq κ]

/-- The maps have the same keys, and related values under each of them. -/
def Matched (R : τ → τ → Prop) (first second : AList (fun _ : κ => τ)) : Prop :=
  ∀ k, Rel R (first.lookup k) (second.lookup k)

namespace Matched

variable {R : τ → τ → Prop} {first second : AList (fun _ : κ => τ)} {k : κ} {a b : τ}

section

variable (h : Matched R first second)

include h

theorem lookup_cases (k : κ) :
    (first.lookup k = none ∧ second.lookup k = none) ∨
      ∃ a b, first.lookup k = some a ∧ second.lookup k = some b ∧ R a b := by
  have hrel := h k
  generalize first.lookup k = left at hrel ⊢
  generalize second.lookup k = right at hrel ⊢
  cases hrel with
  | none => exact .inl ⟨rfl, rfl⟩
  | some hab => exact .inr ⟨_, _, rfl, rfl, hab⟩

theorem isSome_eq (k : κ) : (first.lookup k).isSome = (second.lookup k).isSome := by
  rcases h.lookup_cases k with ⟨hfirst, hsecond⟩ | ⟨a, b, hfirst, hsecond, _⟩ <;>
    simp [hfirst, hsecond]

theorem isNone_eq (k : κ) : (first.lookup k).isNone = (second.lookup k).isNone := by
  rw [← not_isSome, ← not_isSome, h.isSome_eq]

/-- What is stored on one side has its counterpart on the other. -/
theorem exists_right (hlookup : first.lookup k = some a) :
    ∃ b, second.lookup k = some b ∧ R a b := by
  rcases h.lookup_cases k with ⟨hfirst, _⟩ | ⟨a', b, hfirst, hsecond, hab⟩
  · cases hlookup.symm.trans hfirst
  · cases hlookup.symm.trans hfirst
    exact ⟨b, hsecond, hab⟩

theorem exists_left (hlookup : second.lookup k = some b) :
    ∃ a, first.lookup k = some a ∧ R a b := by
  rcases h.lookup_cases k with ⟨_, hsecond⟩ | ⟨a, b', hfirst, hsecond, hab⟩
  · cases hlookup.symm.trans hsecond
  · cases hlookup.symm.trans hsecond
    exact ⟨a, hfirst, hab⟩

theorem insert (hab : R a b) : Matched R (first.insert k a) (second.insert k b) := by
  intro other
  by_cases hother : other = k
  · rw [hother, lookup_insert, lookup_insert]
    exact .some hab
  · rw [lookup_insert_ne hother, lookup_insert_ne hother]
    exact h other

theorem erase : Matched R (first.erase k) (second.erase k) := by
  intro other
  by_cases hother : other = k
  · rw [hother, lookup_erase, lookup_erase]
    exact .none
  · rw [lookup_erase_ne hother, lookup_erase_ne hother]
    exact h other

theorem keys_perm : first.keys.Perm second.keys := by
  rw [List.perm_ext_iff_of_nodup first.keys_nodup second.keys_nodup]
  intro k
  rw [← mem_keys, ← mem_keys, ← lookup_isSome, ← lookup_isSome, h.isSome_eq]

theorem length_eq : first.entries.length = second.entries.length := by
  have hlength := h.keys_perm.length_eq
  simpa [keys, List.keys] using hlength

end

end Matched

end Maps

end Runs
