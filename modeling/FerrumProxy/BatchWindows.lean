import Mathlib

/-!
# Batches that are flushed

Items are added to the batch of their key, and a flush makes a message of the whole batch of a
key.  An add that finds no batch opens a window for its key.
-/

namespace Batches

/-- How adds and messages are seen: their keys, the item that is added, and the items that a
message carries. -/
structure Scheme (α μ κ ι : Type*) where
  addKey : α → κ
  item : α → ι
  messageKey : μ → κ
  carries : μ → ι → Prop

/-- What is logged. -/
inductive Entry (α μ : Type*) where
  | added (add : α) (opens : Bool)
  | flushed (message : μ)

variable {α μ κ ι : Type*}

def Entry.message? : Entry α μ → Option μ
  | .added _ _ => none
  | .flushed message => some message

/-- The messages of a log. -/
def messages (log : List (Entry α μ)) : List μ := log.filterMap Entry.message?

open List Function

theorem mem_messages {log : List (Entry α μ)} {message : μ} :
    message ∈ messages log ↔ .flushed message ∈ log := by
  rw [messages, mem_filterMap]
  constructor
  · intro h
    obtain ⟨entry, hentry, hmessage⟩ := h
    cases entry with
    | added add opens => cases hmessage
    | flushed found =>
      cases hmessage
      exact hentry
  · exact fun h => ⟨.flushed message, h, rfl⟩

variable [DecidableEq κ] (scheme : Scheme α μ κ ι)

namespace Scheme

/-- The entry is an add that opens a window of the key. -/
def opens (key : κ) : Entry α μ → Bool
  | .added add opens => opens && scheme.addKey add = key
  | .flushed _ => false

/-- The beginning of a log, up to the next window of the key. -/
def window (key : κ) (log : List (Entry α μ)) : List (Entry α μ) :=
  log.takeWhile (fun entry => !scheme.opens key entry)

/-- The messages of the key. -/
def flushes (key : κ) (log : List (Entry α μ)) : List μ :=
  (messages log).filter (fun message => scheme.messageKey message = key)

/-- The batches after a log.  An add opens a window exactly when it finds no batch, and a message
carries the items of the batch it takes. -/
inductive Kept : List (Entry α μ) → (κ → Option (Set ι)) → Prop
  | nil : Kept [] (fun _ => none)
  | added {log : List (Entry α μ)} {batches : κ → Option (Set ι)} (add : α)
      (h : Kept log batches) :
      Kept (log ++ [.added add (batches (scheme.addKey add)).isNone])
        (Function.update batches (scheme.addKey add)
          (some (insert (scheme.item add) ((batches (scheme.addKey add)).getD ∅))))
  | flushed {log : List (Entry α μ)} {batches : κ → Option (Set ι)} {items : Set ι} (message : μ)
      (h : Kept log batches) (hbatch : batches (scheme.messageKey message) = some items)
      (hcarries : ∀ item, scheme.carries message item ↔ item ∈ items) :
      Kept (log ++ [.flushed message]) (Function.update batches (scheme.messageKey message) none)

/-- What has become of an add, given the log after it: no window of its key was opened and the
item is still in the batch, or the one message of the key in its window carries the item. -/
inductive Fate (batches : κ → Option (Set ι)) (add : α) (after : List (Entry α μ)) : Prop
  | waiting (hopen : scheme.window (scheme.addKey add) after = after)
      (hnone : scheme.flushes (scheme.addKey add) after = [])
      (items : Set ι) (hbatch : batches (scheme.addKey add) = some items)
      (hitem : scheme.item add ∈ items)
  | delivered (message : μ)
      (hone : scheme.flushes (scheme.addKey add) (scheme.window (scheme.addKey add) after) =
        [message])
      (hcarries : scheme.carries message (scheme.item add))
      (hclosed : scheme.window (scheme.addKey add) after = after →
        batches (scheme.addKey add) = none)

variable {scheme} {key : κ} {log before after : List (Entry α μ)} {entry : Entry α μ}
  {batches : κ → Option (Set ι)} {add : α}

theorem window_snoc_of_cut (hcut : scheme.window key log ≠ log) :
    scheme.window key (log ++ [entry]) = scheme.window key log := by
  rw [window, takeWhile_append, if_neg]
  · rfl
  · intro hlength
    exact hcut ((List.takeWhile_prefix _).eq_of_length hlength)

theorem window_snoc_of_whole (hwhole : scheme.window key log = log) :
    scheme.window key (log ++ [entry]) = log ++ if scheme.opens key entry then [] else [entry] := by
  have hlength : (log.takeWhile (fun entry => !scheme.opens key entry)).length = log.length :=
    congrArg length hwhole
  rw [window, takeWhile_append, if_pos hlength, takeWhile_cons]
  cases scheme.opens key entry <;> rfl

/-- The next window ends the one before. -/
theorem window_snoc_of_opens (hopens : scheme.opens key entry = true) :
    scheme.window key (log ++ [entry]) = scheme.window key log := by
  by_cases hwhole : scheme.window key log = log
  · rw [window_snoc_of_whole hwhole, if_pos hopens, append_nil, hwhole]
  · exact window_snoc_of_cut hwhole

theorem window_ne_snoc : scheme.window key log ≠ log ++ [entry] := by
  intro heq
  have hle := (List.takeWhile_prefix (l := log) (fun entry => !scheme.opens key entry)).length_le
  rw [← window, heq, length_append, length_singleton] at hle
  omega

theorem flushes_snoc :
    scheme.flushes key (log ++ [entry]) = scheme.flushes key log ++ scheme.flushes key [entry] := by
  rw [flushes, messages, filterMap_append, filter_append]
  rfl

/-- An entry that neither opens a window of the key nor flushes it changes nothing for the add,
as long as the batch keeps its items. -/
theorem Fate.snoc_quiet {later : κ → Option (Set ι)} (h : scheme.Fate batches add after)
    (hopens : scheme.opens (scheme.addKey add) entry = false)
    (hflush : scheme.flushes (scheme.addKey add) [entry] = [])
    (hkeeps : ∀ items, batches (scheme.addKey add) = some items →
      ∃ more, later (scheme.addKey add) = some more ∧ items ⊆ more)
    (hclosed : batches (scheme.addKey add) = none → later (scheme.addKey add) = none) :
    scheme.Fate later add (after ++ [entry]) := by
  cases h with
  | waiting hopen hnone items hbatch hitem =>
    obtain ⟨more, hmore, hsub⟩ := hkeeps items hbatch
    refine .waiting ?_ ?_ more hmore (hsub hitem)
    · rw [window_snoc_of_whole hopen, hopens]
      rfl
    · rw [flushes_snoc, hnone, hflush, append_nil]
  | delivered message hone hcarries hclosed' =>
    by_cases hwhole : scheme.window (scheme.addKey add) after = after
    · have hwindow : scheme.window (scheme.addKey add) (after ++ [entry]) = after ++ [entry] := by
        rw [window_snoc_of_whole hwhole, hopens]
        rfl
      refine .delivered message ?_ hcarries (fun _ => hclosed (hclosed' hwhole))
      rw [hwindow, flushes_snoc, hflush, ← hone, hwhole, append_nil]
    · refine .delivered message ?_ hcarries ?_
      · rw [window_snoc_of_cut hwhole, hone]
      · rw [window_snoc_of_cut hwhole]
        exact fun heq => absurd heq window_ne_snoc

theorem Fate.snoc_added (h : scheme.Fate batches add after) (other : α) :
    scheme.Fate (update batches (scheme.addKey other)
        (some (insert (scheme.item other) ((batches (scheme.addKey other)).getD ∅)))) add
      (after ++ [.added other (batches (scheme.addKey other)).isNone]) := by
  by_cases hkey : scheme.addKey other = scheme.addKey add
  · rw [hkey]
    cases hbatch : batches (scheme.addKey add) with
    | some items =>
      refine h.snoc_quiet rfl rfl ?_ ?_
      · intro found hfound
        cases hbatch.symm.trans hfound
        exact ⟨_, update_self _ _ _, Set.subset_insert _ _⟩
      · intro hnone
        cases hbatch.symm.trans hnone
    | none =>
      have hopens : scheme.opens (scheme.addKey add) (.added other true : Entry α μ) = true :=
        decide_eq_true hkey
      cases h with
      | waiting hopen hnone items hsome hitem => cases hbatch.symm.trans hsome
      | delivered message hone hcarries hclosed =>
        refine .delivered message ?_ hcarries ?_
        · rw [Option.isNone_none, window_snoc_of_opens hopens, hone]
        · rw [Option.isNone_none, window_snoc_of_opens hopens]
          exact fun heq => absurd heq window_ne_snoc
  · have hopens : ∀ opens : Bool,
        scheme.opens (scheme.addKey add) (.added other opens : Entry α μ) = false :=
      fun opens => by rw [Scheme.opens, decide_eq_false hkey, Bool.and_false]
    have hsame : ∀ batch, update batches (scheme.addKey other) batch (scheme.addKey add) =
        batches (scheme.addKey add) := fun batch => update_of_ne (Ne.symm hkey) _ _
    refine h.snoc_quiet (hopens _) rfl ?_ ?_
    · intro items hitems
      exact ⟨items, (hsame _).trans hitems, subset_rfl⟩
    · exact fun hnone => (hsame _).trans hnone

theorem Fate.snoc_flushed (h : scheme.Fate batches add after) {message : μ} {items : Set ι}
    (hbatch : batches (scheme.messageKey message) = some items)
    (hcarries : ∀ item, scheme.carries message item ↔ item ∈ items) :
    scheme.Fate (update batches (scheme.messageKey message) none) add
      (after ++ [.flushed message]) := by
  by_cases hkey : scheme.messageKey message = scheme.addKey add
  · have hflush : scheme.flushes (scheme.addKey add) [.flushed message] = [message] :=
      filter_cons_of_pos (decide_eq_true hkey)
    rw [hkey] at hbatch ⊢
    cases h with
    | waiting hopen hnone found hfound hitem =>
      cases hbatch.symm.trans hfound
      refine .delivered message ?_ ((hcarries _).mpr hitem) (fun _ => update_self _ _ _)
      rw [window_snoc_of_whole hopen]
      show scheme.flushes (scheme.addKey add) (after ++ [.flushed message]) = [message]
      rw [flushes_snoc, hnone, hflush, nil_append]
    | delivered earlier hone hearlier hclosed =>
      have hcut : scheme.window (scheme.addKey add) after ≠ after := by
        intro hwhole
        cases hbatch.symm.trans (hclosed hwhole)
      refine .delivered earlier ?_ hearlier ?_
      · rw [window_snoc_of_cut hcut, hone]
      · rw [window_snoc_of_cut hcut]
        exact fun heq => absurd heq window_ne_snoc
  · have hsame : update batches (scheme.messageKey message) none (scheme.addKey add) =
        batches (scheme.addKey add) := update_of_ne (Ne.symm hkey) _ _
    refine h.snoc_quiet rfl (filter_cons_of_neg (by simpa using hkey)) ?_ ?_
    · intro found hfound
      exact ⟨found, hsame.trans hfound, subset_rfl⟩
    · exact fun hnone => hsame.trans hnone

theorem fate_new (add : α) :
    scheme.Fate (update batches (scheme.addKey add)
        (some (insert (scheme.item add) ((batches (scheme.addKey add)).getD ∅)))) add [] :=
  .waiting rfl rfl _ (update_self _ _ _) (Set.mem_insert _ _)

theorem split_snoc {x : Entry α μ} (h : log ++ [entry] = before ++ x :: after) :
    (after = [] ∧ entry = x) ∨ ∃ init, after = init ++ [entry] ∧ log = before ++ x :: init := by
  rcases eq_nil_or_concat after with rfl | ⟨init, last, rfl⟩
  · obtain ⟨_, hlast⟩ := append_inj' h rfl
    cases hlast
    exact .inl ⟨rfl, rfl⟩
  · rw [concat_eq_append, ← cons_append, ← append_assoc] at h
    obtain ⟨hinit, hlast⟩ := append_inj' h rfl
    cases hlast
    exact .inr ⟨init, concat_eq_append, hinit⟩

/-- **Nothing is lost and nothing is doubled.**  Every add of a log waits in its batch, or was
delivered by the one flush in its window. -/
theorem Kept.fate (h : scheme.Kept log batches) {opens : Bool}
    (hlog : log = before ++ .added add opens :: after) : scheme.Fate batches add after := by
  induction h generalizing after with
  | nil => simp at hlog
  | added other hkept ih =>
    rcases split_snoc hlog with ⟨rfl, hlast⟩ | ⟨init, rfl, hinit⟩
    · cases hlast
      exact fate_new add
    · exact (ih hinit).snoc_added other
  | flushed message hkept hbatch hcarries ih =>
    rcases split_snoc hlog with ⟨rfl, hlast⟩ | ⟨init, rfl, hinit⟩
    · cases hlast
    · exact (ih hinit).snoc_flushed hbatch hcarries

end Scheme

end Batches
