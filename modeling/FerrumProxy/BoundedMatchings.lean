import Mathlib

/-!
# Matchings of bounded size

A relation says which claimant can use which resource, and a matching serves some claimants at
once, each with a resource of its own.  `AtMost E n` is carried through steps that add a resource,
serve a claimant, or take claimants and resources away.
-/

namespace Matchings

variable {α β : Type*} {E E' : α → β → Prop} {M N : Finset (α × β)} {m n : Nat}

/-- Related pairs, no two of which share a component. -/
structure IsMatching (E : α → β → Prop) (M : Finset (α × β)) : Prop where
  related : ∀ e ∈ M, E e.1 e.2
  left : Set.InjOn Prod.fst (M : Set (α × β))
  right : Set.InjOn Prod.snd (M : Set (α × β))

/-- No matching has more than `n` pairs. -/
def AtMost (E : α → β → Prop) (n : Nat) : Prop := ∀ M, IsMatching E M → M.card ≤ n

/-- Some pairs of a matching of one relation, if they are related by another,
are a matching of that one. -/
theorem IsMatching.restrict (h : IsMatching E M) (hsub : N ⊆ M)
    (hrelated : ∀ e ∈ N, E' e.1 e.2) : IsMatching E' N where
  related := hrelated
  left := h.left.mono (Finset.coe_subset.mpr hsub)
  right := h.right.mono (Finset.coe_subset.mpr hsub)

/-- A matching can be extended by a related pair with new components. -/
theorem IsMatching.insert [DecidableEq (α × β)] (h : IsMatching E M) {a₀ : α} {b₀ : β}
    (hpair : E a₀ b₀) (hfresh : ∀ e ∈ M, e.1 ≠ a₀ ∧ e.2 ≠ b₀) :
    IsMatching E (insert (a₀, b₀) M) := by
  have hnotin : (a₀, b₀) ∉ (M : Set (α × β)) := fun hmem => (hfresh _ hmem).1 rfl
  refine ⟨?_, ?_, ?_⟩
  · intro e he
    rcases Finset.mem_insert.mp he with rfl | hmem
    · exact hpair
    · exact h.related e hmem
  · rw [Finset.coe_insert, Set.injOn_insert hnotin]
    refine ⟨h.left, ?_⟩
    intro himage
    obtain ⟨e, he, hfst⟩ := himage
    exact (hfresh e he).1 hfst
  · rw [Finset.coe_insert, Set.injOn_insert hnotin]
    refine ⟨h.right, ?_⟩
    intro himage
    obtain ⟨e, he, hsnd⟩ := himage
    exact (hfresh e he).2 hsnd

/-- Fewer related pairs, smaller matchings. -/
theorem AtMost.mono (h : AtMost E n) (hrelated : ∀ a b, E' a b → E a b) (hle : n ≤ m) :
    AtMost E' m := by
  intro M hM
  have hmatching : IsMatching E M :=
    hM.restrict (Finset.Subset.refl M) (fun e he => hrelated _ _ (hM.related e he))
  exact (h M hmatching).trans hle

/-- A matching has at most as many pairs as there are claimants. -/
theorem atMost_claimants (S : Finset α) (h : ∀ a b, E a b → a ∈ S) : AtMost E S.card := by
  intro M hM
  apply Finset.card_le_card_of_injOn Prod.fst _ hM.left
  intro e he
  exact h _ _ (hM.related e he)

/-- One more resource serves one more claimant at most. -/
theorem AtMost.addResource (h : AtMost E n) (b₀ : β)
    (hrelated : ∀ a b, E' a b → E a b ∨ b = b₀) : AtMost E' (n + 1) := by
  classical
  intro M hM
  have hold : (M.filter (fun e => ¬ e.2 = b₀)).card ≤ n := by
    apply h
    apply hM.restrict (Finset.filter_subset _ _)
    intro e he
    obtain ⟨hmem, hne⟩ := Finset.mem_filter.mp he
    exact (hrelated _ _ (hM.related e hmem)).resolve_right hne
  have hnew : (M.filter (fun e => e.2 = b₀)).card ≤ 1 := by
    apply Finset.card_le_one.mpr
    intro e he f hf
    obtain ⟨hmemE, hE⟩ := Finset.mem_filter.mp he
    obtain ⟨hmemF, hF⟩ := Finset.mem_filter.mp hf
    exact hM.right hmemE hmemF (hE.trans hF.symm)
  have hsplit := Finset.card_filter_add_card_filter_not (s := M) (fun e => e.2 = b₀)
  omega

/-- Serving a claimant with a resource it can use takes one off the bound. -/
theorem AtMost.serve (h : AtMost E (n + 1)) {a₀ : α} {b₀ : β} (hpair : E a₀ b₀)
    (hrelated : ∀ a b, E' a b → E a b ∧ a ≠ a₀ ∧ b ≠ b₀) : AtMost E' n := by
  classical
  intro M hM
  have hfresh : ∀ e ∈ M, e.1 ≠ a₀ ∧ e.2 ≠ b₀ :=
    fun e he => (hrelated _ _ (hM.related e he)).2
  have hmatching : IsMatching E M :=
    hM.restrict (Finset.Subset.refl M) (fun e he => (hrelated _ _ (hM.related e he)).1)
  have hcard := h _ (hmatching.insert hpair hfresh)
  rw [Finset.card_insert_of_notMem (fun hmem => (hfresh _ hmem).1 rfl)] at hcard
  exact Nat.le_of_succ_le_succ hcard

/-- With bound zero nobody can be served. -/
theorem AtMost.not_related (h : AtMost E 0) (a : α) (b : β) : ¬ E a b := by
  classical
  intro hpair
  have hempty : IsMatching E (∅ : Finset (α × β)) := ⟨by simp, by simp, by simp⟩
  have hcard := h _ (hempty.insert hpair (fun e he => absurd he (Finset.notMem_empty e)))
  rw [Finset.card_insert_of_notMem (Finset.notMem_empty _)] at hcard
  exact Nat.not_succ_le_zero _ hcard

end Matchings
