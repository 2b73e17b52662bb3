import FerrumProxy.GuardedRuns

/-!
# Concurrent read-modify-write without a lock

Several requests share one document.  Each reads it once and either answers at once or computes a
new document, writes it and answers.  Reads and writes of different requests interleave in any
order, so a write can overwrite what another request has written after the read.
-/

namespace Updates

variable {R D A : Type*}

/-- What a request does with the document it has read. -/
inductive Reaction (D A : Type*)
  | answer (a : A)
  | write (d : D) (a : A)

open List Function

section Serial

variable (react : R → D → Reaction D A)

/-- One request, served alone: its answer and the document it leaves. -/
def serve (request : R) (d : D) : A × D :=
  match react request d with
  | .answer a => (a, d)
  | .write written a => (a, written)

/-- Requests served one after the other. -/
def serveAll : List R → D → List A × D
  | [], d => ([], d)
  | request :: rest, d =>
    let first := serve react request d
    let later := serveAll rest first.2
    (first.1 :: later.1, later.2)

theorem serveAll_cons (request : R) (rest : List R) (d : D) :
    serveAll react (request :: rest) d =
      ((serve react request d).1 :: (serveAll react rest (serve react request d).2).1,
        (serveAll react rest (serve react request d).2).2) := rfl

theorem serveAll_concat (requests : List R) (last : R) (d : D) :
    serveAll react (requests ++ [last]) d =
      ((serveAll react requests d).1 ++ [(serve react last (serveAll react requests d).2).1],
        (serve react last (serveAll react requests d).2).2) := by
  induction requests generalizing d with
  | nil => rfl
  | cons request rest ih =>
    rw [cons_append, serveAll_cons, ih, serveAll_cons]
    rfl

variable {react}

/-- What every single request keeps, a sequence of them keeps. -/
theorem serveAll_invariant {Inv : D → Prop} {requests : List R} {d : D}
    (hkeep : ∀ request ∈ requests, ∀ d, Inv d → Inv (serve react request d).2) (hinit : Inv d) :
    Inv (serveAll react requests d).2 := by
  induction requests generalizing d with
  | nil => exact hinit
  | cons request rest ih =>
    have hfirst := hkeep request mem_cons_self d hinit
    exact ih (fun r hr => hkeep r (mem_cons_of_mem request hr)) hfirst

end Serial

/-! ### The machine -/

/-- How far a request has come. -/
inductive Phase (D A : Type*)
  | waiting
  /-- The document was read, and the other one is to be written. -/
  | writing (read written : D) (a : A)
  | answered (a : A)

/-- The document and its requests. -/
structure Shared (D A : Type*) where
  document : D
  phases : Nat → Phase D A

/-- Reads and writes. -/
inductive Action
  | read (i : Nat)
  | write (i : Nat)

def start (d : D) : Shared D A := ⟨d, fun _ => .waiting⟩

section Machine

variable (react : R → D → Reaction D A) (requests : List R)

/-- The phase of a request that has read the document. -/
def afterRead (request : R) (d : D) : Phase D A :=
  match react request d with
  | .answer a => .answered a
  | .write written a => .writing d written a

def step (s : Shared D A) : Action → Option (Shared D A)
  | .read i =>
    match requests[i]?, s.phases i with
    | some request, .waiting =>
      some { s with phases := Function.update s.phases i (afterRead react request s.document) }
    | _, _ => none
  | .write i =>
    match s.phases i with
    | .writing _ written a =>
      some ⟨written, Function.update s.phases i (.answered a)⟩
    | _ => none

/-- A write finds the document that its request has read. -/
def Undisturbed (s : Shared D A) : Action → Prop
  | .read _ => True
  | .write i => ∀ read written a, s.phases i = .writing read written a → s.document = read

/-- Everything a step can do. -/
inductive Change (s : Shared D A) : Action → Shared D A → Prop
  | answered {i : Fin requests.length} {a : A} (hwaiting : s.phases i = .waiting)
      (hreact : react (requests.get i) s.document = .answer a) :
      Change s (.read i) { s with phases := Function.update s.phases i (.answered a) }
  | loaded {i : Fin requests.length} {written : D} {a : A} (hwaiting : s.phases i = .waiting)
      (hreact : react (requests.get i) s.document = .write written a) :
      Change s (.read i)
        { s with phases := Function.update s.phases i (.writing s.document written a) }
  | wrote {i : Nat} {read written : D} {a : A} (hwriting : s.phases i = .writing read written a) :
      Change s (.write i) ⟨written, Function.update s.phases i (.answered a)⟩

/-- What the requests in flight are about to do, and an order in which the
answered ones could have been served. -/
structure Serialized (d₀ : D) (s : Shared D A) : Prop where
  inFlight : ∀ i read written a, s.phases i = .writing read written a →
    ∃ j : Fin requests.length, (j : Nat) = i ∧ react (requests.get j) read = .write written a
  served : ∃ order : List (Fin requests.length), order.Nodup ∧
    (∀ i : Fin requests.length, i ∈ order ↔ ∃ a, s.phases i = .answered a) ∧
    (serveAll react (order.map requests.get) d₀).2 = s.document ∧
    ∀ a ∈ (serveAll react (order.map requests.get) d₀).1, ∃ i : Fin requests.length,
      s.phases i = .answered a

end Machine

/-! ### Serializability -/

section Serializability

variable {react : R → D → Reaction D A} {requests : List R} {d₀ : D} {s t : Shared D A}
  {action : Action}

theorem change_of_step (hstep : step react requests s action = some t) :
    Change react requests s action t := by
  cases action with
  | read i =>
    dsimp only [step] at hstep
    split at hstep
    · rename_i request hrequest hwaiting
      obtain ⟨hi, hget⟩ := List.getElem?_eq_some_iff.mp hrequest
      cases hstep
      unfold afterRead
      cases hreact : react request s.document with
      | answer a =>
        exact Change.answered (i := ⟨i, hi⟩) hwaiting (by rw [← hreact, ← hget]; rfl)
      | write written a =>
        exact Change.loaded (i := ⟨i, hi⟩) hwaiting (by rw [← hreact, ← hget]; rfl)
    · cases hstep
  | write i =>
    dsimp only [step] at hstep
    split at hstep <;> cases hstep
    next hwriting => exact .wrote hwriting

theorem serialized_start (react : R → D → Reaction D A) (requests : List R) (d₀ : D) :
    Serialized react requests d₀ (start d₀) where
  inFlight i read written a h := by cases h
  served := by
    refine ⟨[], nodup_nil, fun i => ?_, rfl, fun a ha => ?_⟩
    · refine iff_of_false not_mem_nil (fun h => ?_)
      obtain ⟨a, ha⟩ := h
      cases ha
    · cases ha

theorem Serialized.answer {i : Fin requests.length} {a : A} {d : D}
    (hserialized : Serialized react requests d₀ s) (hopen : ∀ b, s.phases i ≠ .answered b)
    (hserve : serve react (requests.get i) s.document = (a, d)) :
    Serialized react requests d₀ ⟨d, update s.phases i (.answered a)⟩ where
  inFlight j read written b h := by
    dsimp only at h
    by_cases hj : j = i
    · subst hj
      rw [update_self] at h
      cases h
    · rw [update_of_ne hj] at h
      exact hserialized.inFlight j read written b h
  served := by
    obtain ⟨order, hnodup, hmem, hdocument, hanswers⟩ := hserialized.served
    have hnew : i ∉ order := fun hi => by
      obtain ⟨b, hb⟩ := (hmem i).mp hi
      exact hopen b hb
    have hkept : ∀ j : Fin requests.length, j ≠ i →
        update s.phases i (.answered a) j = s.phases j :=
      fun j hj => update_of_ne (Fin.val_ne_of_ne hj) _ _
    have hlast : serveAll react ((order ++ [i]).map requests.get) d₀ =
        ((serveAll react (order.map requests.get) d₀).1 ++ [a], d) := by
      rw [map_append, map_singleton, serveAll_concat, hdocument, hserve]
    refine ⟨order ++ [i], concat_eq_append ▸ hnodup.concat hnew, ?_, by rw [hlast], ?_⟩
    · intro j
      rw [mem_append, mem_singleton]
      by_cases hj : j = i
      · subst hj
        exact iff_of_true (.inr rfl) ⟨a, update_self _ _ _⟩
      · rw [or_iff_left hj, hmem]
        dsimp only
        rw [hkept j hj]
    · intro b hb
      rw [hlast] at hb
      rcases mem_append.mp hb with hold | hthis
      · obtain ⟨j, hj⟩ := hanswers b hold
        have hne : j ≠ i := fun heq => hopen b (heq ▸ hj)
        exact ⟨j, (hkept j hne).trans hj⟩
      · rw [mem_singleton.mp hthis]
        exact ⟨i, update_self _ _ _⟩

theorem Serialized.load {i : Fin requests.length} {written : D} {a : A}
    (hserialized : Serialized react requests d₀ s) (hopen : ∀ b, s.phases i ≠ .answered b)
    (hreact : react (requests.get i) s.document = .write written a) :
    Serialized react requests d₀
      { s with phases := update s.phases i (.writing s.document written a) } where
  inFlight j read written' b h := by
    dsimp only at h
    by_cases hj : j = i
    · subst hj
      rw [update_self] at h
      cases h
      exact ⟨i, rfl, hreact⟩
    · rw [update_of_ne hj] at h
      exact hserialized.inFlight j read written' b h
  served := by
    obtain ⟨order, hnodup, hmem, hdocument, hanswers⟩ := hserialized.served
    have hsame : ∀ (j : Fin requests.length) (b : A),
        update s.phases i (.writing s.document written a) j = .answered b ↔
          s.phases j = .answered b := by
      intro j b
      by_cases hj : j = i
      · subst hj
        rw [update_self]
        exact iff_of_false (fun h => by cases h) (hopen b)
      · rw [update_of_ne (Fin.val_ne_of_ne hj)]
    refine ⟨order, hnodup, fun j => ?_, hdocument, fun b hb => ?_⟩
    · simp only [hsame, hmem]
    · obtain ⟨j, hj⟩ := hanswers b hb
      exact ⟨j, (hsame j b).mpr hj⟩

theorem Change.serialized (hchange : Change react requests s action t)
    (hundisturbed : Undisturbed s action) (hserialized : Serialized react requests d₀ s) :
    Serialized react requests d₀ t := by
  cases hchange with
  | answered hwaiting hreact =>
    refine hserialized.answer (fun b hb => ?_) ?_
    · rw [hwaiting] at hb
      cases hb
    · unfold serve
      rw [hreact]
  | loaded hwaiting hreact =>
    refine hserialized.load (fun b hb => ?_) hreact
    rw [hwaiting] at hb
    cases hb
  | wrote hwriting =>
    obtain ⟨j, rfl, hreact⟩ := hserialized.inFlight _ _ _ _ hwriting
    refine hserialized.answer (fun b hb => ?_) ?_
    · rw [hwriting] at hb
      cases hb
    · -- the document is the one that the request has read
      unfold serve
      rw [hundisturbed _ _ _ hwriting, hreact]

theorem serialized_of_reaches
    (hreach : Runs.Reaches (step react requests) Undisturbed (start d₀) s) :
    Serialized react requests d₀ s :=
  hreach.invariant (serialized_start react requests d₀)
    (fun _ _ _ hserialized hok hstep => (change_of_step hstep).serialized hok hserialized)

/-- **Undisturbed writes are serializable.**  When all requests have answered, some
order of them leaves the same document, one after the other, and gives only
answers that were given. -/
theorem serializable (hreach : Runs.Reaches (step react requests) Undisturbed (start d₀) s)
    (hdone : ∀ i < requests.length, ∃ a, s.phases i = .answered a) :
    ∃ order : List R, order.Perm requests ∧ (serveAll react order d₀).2 = s.document ∧
      ∀ a ∈ (serveAll react order d₀).1, ∃ i < requests.length, s.phases i = .answered a := by
  obtain ⟨order, hnodup, hmem, hdocument, hanswers⟩ := (serialized_of_reaches hreach).served
  have hall : order.Perm (finRange requests.length) := by
    refine (perm_ext_iff_of_nodup hnodup (nodup_finRange _)).mpr (fun i => ?_)
    exact iff_of_true ((hmem i).mpr (hdone i i.isLt)) (mem_finRange i)
  have hperm := hall.map requests.get
  rw [map_get_finRange] at hperm
  refine ⟨order.map requests.get, hperm, hdocument, fun a ha => ?_⟩
  obtain ⟨i, hi⟩ := hanswers a ha
  exact ⟨i, i.isLt, hi⟩

end Serializability

end Updates
