import Mathlib

/-!
# Lists of records with keys

`upsert` changes the first record with a key, or appends a new one.  The first record with
another key stays as it is, and keys that were distinct stay distinct.
-/

namespace Lists

variable {α κ : Type*} [DecidableEq κ] (key : α → κ)

/-- The first record with the key. -/
def firstWith (k : κ) (xs : List α) : Option α := xs.find? (fun x => key x = k)

def upsert (k : κ) (change : α → α) (fresh : α) : List α → List α
  | [] => [fresh]
  | x :: rest => if key x = k then change x :: rest else x :: upsert k change fresh rest

variable {key} {k other : κ} {change : α → α} {fresh : α} {xs : List α}

theorem firstWith_cons (x : α) (rest : List α) :
    firstWith key k (x :: rest) = if key x = k then some x else firstWith key k rest := by
  rw [firstWith, List.find?_cons]
  by_cases h : key x = k
  · simp [h]
  · simp [h, firstWith]

open List

section

variable (hchange : ∀ x, key (change x) = key x) (hfresh : key fresh = k)

include hchange hfresh

theorem firstWith_upsert :
    firstWith key k (upsert key k change fresh xs) =
      some ((firstWith key k xs).elim fresh change) := by
  induction xs with
  | nil => rw [upsert, firstWith_cons, if_pos hfresh]; rfl
  | cons x rest ih =>
    rw [upsert, firstWith_cons]
    split
    · next h => rw [firstWith_cons, hchange, if_pos h]; rfl
    · next h => rw [firstWith_cons, if_neg h, ih]

theorem firstWith_upsert_ne (hne : other ≠ k) :
    firstWith key other (upsert key k change fresh xs) = firstWith key other xs := by
  induction xs with
  | nil => rw [upsert, firstWith_cons, if_neg (fun h => hne (h.symm.trans hfresh))]
  | cons x rest ih =>
    rw [upsert, firstWith_cons]
    split
    · next h =>
      have hx : key x ≠ other := fun hother => hne (hother.symm.trans h)
      rw [firstWith_cons, hchange, if_neg hx, if_neg hx]
    · rw [firstWith_cons, ih]

theorem mem_map_key_upsert :
    other ∈ (upsert key k change fresh xs).map key ↔ other = k ∨ other ∈ xs.map key := by
  induction xs with
  | nil => simp [upsert, hfresh]
  | cons x rest ih =>
    rw [upsert]
    split
    · next h =>
      rw [map_cons, map_cons, mem_cons, mem_cons, hchange, h]
      grind
    · rw [map_cons, mem_cons, ih, map_cons, mem_cons]
      grind

theorem nodup_upsert (h : (xs.map key).Nodup) : ((upsert key k change fresh xs).map key).Nodup := by
  induction xs with
  | nil => exact nodup_singleton _
  | cons x rest ih =>
    obtain ⟨hx, hrest⟩ := nodup_cons.mp h
    rw [upsert]
    split
    · rw [map_cons, hchange]
      exact nodup_cons.mpr ⟨hx, hrest⟩
    · next hne =>
      refine nodup_cons.mpr ⟨?_, ih hrest⟩
      rw [mem_map_key_upsert hchange hfresh]
      exact fun hmem => hmem.elim hne hx

end

end Lists
