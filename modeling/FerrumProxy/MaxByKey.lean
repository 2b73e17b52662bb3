import Mathlib

/-!
# The last of the greatest

`maxBy le` scans a list and keeps the greatest item so far; of items that are equally great the
later one wins.
-/

namespace Lists

open List

section MaxBy

variable {α : Type} (le : α → α → Bool)

def maxStep (best : Option α) (a : α) : Option α :=
  match best with
  | none => some a
  | some b => if le b a then some a else some b

def maxBy (xs : List α) : Option α := xs.foldl (maxStep le) none

/-- Any two items compare, ties allowed. -/
structure IsRank : Prop where
  total : ∀ a b, le a b = true ∨ le b a = true
  trans : ∀ {a b c}, le a b = true → le b c = true → le a c = true

variable {le} {xs ys : List α}

theorem IsRank.refl (h : IsRank le) (a : α) : le a a = true := (h.total a a).elim id id

/-- What the scan keeps is as great as all it has seen. -/
theorem IsRank.foldl_maxStep (h : IsRank le) (best : α) (xs : List α) :
    ∃ m, xs.foldl (maxStep le) (some best) = some m ∧ m ∈ best :: xs ∧
      ∀ a ∈ best :: xs, le a m = true := by
  induction xs generalizing best with
  | nil =>
    refine ⟨best, rfl, mem_cons_self, fun a ha => ?_⟩
    rw [mem_singleton.mp ha]
    exact h.refl best
  | cons x rest ih =>
    cases hle : le best x with
    | true =>
      obtain ⟨m, hm, hmem, hseen⟩ := ih x
      refine ⟨m, ?_, mem_cons_of_mem best hmem, fun a ha => ?_⟩
      · rw [foldl_cons, maxStep, if_pos hle, hm]
      · rcases mem_cons.mp ha with rfl | ha
        · exact h.trans hle (hseen x mem_cons_self)
        · exact hseen a ha
    | false =>
      obtain ⟨m, hm, hmem, hseen⟩ := ih best
      have hbest : le best m = true := hseen best mem_cons_self
      have hx : le x best = true :=
        (h.total best x).resolve_left (fun htrue => Bool.noConfusion (hle.symm.trans htrue))
      refine ⟨m, ?_, ?_, fun a ha => ?_⟩
      · rw [foldl_cons, maxStep, if_neg (by rw [hle]; exact Bool.false_ne_true), hm]
      · rcases mem_cons.mp hmem with rfl | hmem
        · exact mem_cons_self
        · exact mem_cons_of_mem _ (mem_cons_of_mem _ hmem)
      · rcases mem_cons.mp ha with rfl | ha
        · exact hbest
        · rcases mem_cons.mp ha with rfl | ha
          · exact h.trans hx hbest
          · exact hseen a (mem_cons_of_mem _ ha)

/-- **The result is a member that no other exceeds.** -/
theorem IsRank.maxBy_spec (h : IsRank le) {m : α} (hm : maxBy le xs = some m) :
    m ∈ xs ∧ ∀ a ∈ xs, le a m = true := by
  cases xs with
  | nil => cases hm
  | cons x rest =>
    obtain ⟨greatest, hgreatest, hmem, hseen⟩ := h.foldl_maxStep x rest
    obtain rfl : greatest = m := Option.some.inj (hgreatest.symm.trans hm)
    exact ⟨hmem, hseen⟩

theorem IsRank.maxBy_eq_none (h : IsRank le) (hm : maxBy le xs = none) : xs = [] := by
  cases xs with
  | nil => rfl
  | cons x rest =>
    obtain ⟨greatest, hgreatest, _⟩ := h.foldl_maxStep x rest
    cases hgreatest.symm.trans hm

/-- **Without ties the order of the list does not matter.** -/
theorem IsRank.maxBy_perm (h : IsRank le) (hperm : xs.Perm ys)
    (hties : ∀ a ∈ xs, ∀ b ∈ xs, le a b = true → le b a = true → a = b) :
    maxBy le xs = maxBy le ys := by
  cases hx : maxBy le xs with
  | none =>
    obtain rfl := h.maxBy_eq_none hx
    rw [nil_perm.mp hperm]
    rfl
  | some m =>
    cases hy : maxBy le ys with
    | none =>
      obtain rfl := h.maxBy_eq_none hy
      rw [perm_nil.mp hperm] at hx
      cases hx
    | some n =>
      obtain ⟨hmem, hall⟩ := h.maxBy_spec hx
      obtain ⟨hnmem, hnall⟩ := h.maxBy_spec hy
      have hn : n ∈ xs := hperm.mem_iff.mpr hnmem
      rw [hties m hmem n hn (hnall m (hperm.mem_iff.mp hmem)) (hall n hn)]

end MaxBy

end Lists
