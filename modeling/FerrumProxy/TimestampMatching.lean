import FerrumProxy.ConnectionBuffer

/-!
# Which timestamps match

A login is matched with the waiting connections, and a logout with the logins, whose timestamps are
less than half a minute away.  The distance is the absolute value of a difference of 64-bit
integers.  Both operations wrap around in a release build and stop the task in a checked one.
-/

namespace FerrumProxy

open Str

/-- The operation on integers, if its result is a 64-bit one. -/
def checkedInt64 (n : Int) : Option Int64 :=
  if Int64.minValue.toInt ≤ n ∧ n ≤ Int64.maxValue.toInt then some (Int64.ofInt n) else none

/-- `near` with overflow checks; `none` is a panic. -/
def nearChecked (existing timestamp : Int64) : Option Bool :=
  (checkedInt64 (existing.toInt - timestamp.toInt)).bind (fun difference =>
    (checkedInt64 difference.toInt.natAbs).map (fun distance =>
      decide (distance < timestampToleranceMs)))

/-- The distance of the integers. -/
def distance (existing timestamp : Int64) : Nat := (existing.toInt - timestamp.toInt).natAbs

def nearExact (existing timestamp : Int64) : Bool := decide (distance existing timestamp < 30000)

/-- The difference and its absolute value are 64-bit integers. -/
def Comparable (existing timestamp : Int64) : Prop := distance existing timestamp < 2 ^ 63

instance (existing timestamp : Int64) : Decidable (Comparable existing timestamp) :=
  inferInstanceAs (Decidable (_ < _))

theorem checkedInt64_eq {n : Int} (h : n.natAbs < 2 ^ 63) :
    ∃ m, checkedInt64 n = some m ∧ m.toInt = n := by
  have hrange : Int64.minValue.toInt ≤ n ∧ n ≤ Int64.maxValue.toInt := by
    simp only [Int64.toInt_minValue, Int64.toInt_maxValue]
    omega
  exact ⟨Int64.ofInt n, if_pos hrange, Int64.toInt_ofInt_of_le (by omega) (by omega)⟩

open Option

theorem toInt_of_checkedInt64 {n : Int} {m : Int64} (h : checkedInt64 n = some m) :
    m.toInt = n ∧ n < 2 ^ 63 := by
  simp only [checkedInt64, ite_none_right_eq_some, Option.some.injEq,
    Int64.toInt_minValue, Int64.toInt_maxValue] at h
  obtain ⟨hrange, rfl⟩ := h
  exact ⟨Int64.toInt_ofInt_of_le hrange.1 (by omega), by omega⟩

theorem nearChecked_eq (existing timestamp : Int64) :
    nearChecked existing timestamp =
      if Comparable existing timestamp then some (nearExact existing timestamp) else none := by
  by_cases h : Comparable existing timestamp
  · obtain ⟨difference, hdifference, hexact⟩ := checkedInt64_eq h
    obtain ⟨far, hfar, hvalue⟩ :=
      checkedInt64_eq (n := difference.toInt.natAbs) (by rw [Int.natAbs_natCast, hexact]; exact h)
    have hlt : far < timestampToleranceMs ↔ distance existing timestamp < 30000 := by
      rw [Int64.lt_iff_toInt_lt, hvalue, hexact]
      exact Int.ofNat_lt
    rw [if_pos h, nearChecked, hdifference, bind_some, hfar, map_some, nearExact]
    simp only [hlt]
  · rw [if_neg h, nearChecked, bind_eq_none_iff]
    intro difference hdifference
    rw [map_eq_none_iff, eq_none_iff_forall_ne_some]
    intro far hfar
    -- the absolute value fits, so the timestamps would be comparable
    have hbound := (toInt_of_checkedInt64 hfar).2
    rw [(toInt_of_checkedInt64 hdifference).1] at hbound
    exact h (Int.ofNat_lt.mp hbound)

theorem toInt_abs {n : Int64} (h : n.toInt.natAbs < 2 ^ 63) : n.abs.toInt = n.toInt.natAbs := by
  have habs : n.abs.toInt = n.toBitVec.abs.toInt := rfl
  have hne : n.toBitVec ≠ BitVec.intMin 64 := by
    intro hmin
    have hvalue : n.toInt = -2 ^ 63 := by
      rw [← Int64.toInt_toBitVec, hmin]
      decide
    rw [hvalue] at h
    exact absurd h (by decide)
  rw [habs, BitVec.toInt_abs_eq_natAbs, if_neg hne, Int64.toInt_toBitVec]

theorem near_eq {existing timestamp : Int64} (h : Comparable existing timestamp) :
    near existing timestamp = nearExact existing timestamp := by
  unfold Comparable distance at h
  have hdifference : (existing - timestamp).toInt = existing.toInt - timestamp.toInt := by
    rw [Int64.toInt_sub]
    exact Int.bmod_eq_of_le (by omega) (by omega)
  have hdistance := toInt_abs (n := existing - timestamp) (by rw [hdifference]; exact h)
  have hlt : (existing - timestamp).abs < timestampToleranceMs ↔
      distance existing timestamp < 30000 := by
    rw [Int64.lt_iff_toInt_lt, hdistance, hdifference]
    exact Int.ofNat_lt
  simp only [near, nearExact, hlt]

theorem comparable_of_nearExact {existing timestamp : Int64}
    (h : nearExact existing timestamp = true) : Comparable existing timestamp :=
  Nat.lt_trans (of_decide_eq_true h) (by decide)

/-! ## Walks with a check that may fail -/

section

variable {α : Type} (check : α → Option Bool)

/-- The elements that pass a check, which is made on all of them. -/
def filterChecked : List α → Option (List α)
  | [] => some []
  | a :: rest =>
    (check a).bind (fun keep =>
      (filterChecked rest).map (fun kept => if keep then a :: kept else kept))

/-- The first element that passes a check, which is made up to that one. -/
def findChecked : List α → Option (Option α)
  | [] => some none
  | a :: rest => (check a).bind (fun found => if found then some (some a) else findChecked rest)

variable {check} {p : α → Bool} {ok : α → Prop} [DecidablePred ok]
  (hcheck : ∀ a, check a = if ok a then some (p a) else none)

include hcheck

theorem filterChecked_eq (l : List α) :
    filterChecked check l = if ∀ a ∈ l, ok a then some (l.filter p) else none := by
  induction l with
  | nil => simp [filterChecked]
  | cons a rest ih =>
    simp only [filterChecked, hcheck, ih, List.forall_mem_cons, List.filter_cons]
    by_cases hok : ok a
    · by_cases hrest : ∀ b ∈ rest, ok b
      · simp only [if_pos hok, bind_some, if_pos hrest, map_some, if_pos (And.intro hok hrest)]
      · simp only [if_pos hok, bind_some, if_neg hrest, map_none,
          if_neg (fun h : ok a ∧ _ => hrest h.2)]
    · simp only [if_neg hok, bind_none, if_neg (fun h : ok a ∧ _ => hok h.1)]

/-- The check has to be possible on the elements before the first one that passes. -/
theorem findChecked_eq (hpass : ∀ a, p a = true → ok a) (l : List α) :
    findChecked check l =
      if ∀ a ∈ l.takeWhile (fun a => !p a), ok a then some (l.find? p) else none := by
  induction l with
  | nil => simp [findChecked]
  | cons a rest ih =>
    rw [findChecked, hcheck]
    cases hp : p a with
    | true => simp [hpass a hp, hp]
    | false =>
      simp only [List.find?_cons, List.takeWhile_cons, hp, Bool.not_false, if_true,
        List.forall_mem_cons, ih]
      by_cases hok : ok a <;> simp [hok]

omit [DecidablePred ok] hcheck in
/-- A search that decides right on those elements finds the same one. -/
theorem find?_eq_of_takeWhile {q : α → Bool} (hpass : ∀ a, p a = true → ok a)
    (hsame : ∀ a, ok a → q a = p a) {l : List α} (h : ∀ a ∈ l.takeWhile (fun a => !p a), ok a) :
    l.find? q = l.find? p := by
  induction l with
  | nil => rfl
  | cons a rest ih =>
    cases hp : p a with
    | true => simp [hsame a (hpass a hp), hp]
    | false =>
      simp only [List.takeWhile_cons, hp, Bool.not_false, if_true, List.forall_mem_cons] at h
      simp only [List.find?_cons, hsame a h.1, hp, ih h.2]

end

/-! ## The two operations -/

namespace PendingMap

variable (pending : PendingMap) (timestamp : Int64)

def processChecked : Option (List PendingEntry × PendingMap) :=
  (filterChecked (fun entry : Sigma _ => nearChecked entry.2.connection.timestamp timestamp)
    pending.entries).map (fun matched => pending.removeAll (matched.map Sigma.fst))

def processExact : List PendingEntry × PendingMap :=
  pending.removeAll (pending.keysFor (nearExact · timestamp))

end PendingMap

namespace TimestampPlayerMapper

variable (players : TimestampPlayerMapper) (walk : List Entry) (timestamp : Int64)
  (username : Text)

/-- What `register_logout` does with the entry that it has found. -/
def removeFound (found : Option Entry) : TimestampPlayerMapper :=
  match found with
  | some entry => players.erase entry.1
  | none => players

/-- The distance is computed for the entries of the user only. -/
def logoutChecked : Option TimestampPlayerMapper :=
  (findChecked (fun entry : Entry =>
    if entry.2.1 == username then nearChecked entry.2.2 timestamp else some false) walk).map
      players.removeFound

def isForExact (entry : Entry) : Bool := entry.2.1 == username && nearExact entry.2.2 timestamp

def logoutExact : TimestampPlayerMapper :=
  players.removeFound (walk.find? (isForExact timestamp username))

end TimestampPlayerMapper

open TimestampPlayerMapper

/-- The differences that a logout computes before it finds its login are small enough. -/
def LogoutComparable (walk : List Entry) (timestamp : Int64) (username : Text) : Prop :=
  ∀ entry ∈ walk.takeWhile (fun entry => !isForExact timestamp username entry),
    entry.2.1 = username → Comparable entry.2.2 timestamp

instance (walk : List Entry) (timestamp : Int64) (username : Text) :
    Decidable (LogoutComparable walk timestamp username) :=
  inferInstanceAs (Decidable (∀ entry ∈ _, _))

theorem processChecked_eq (pending : PendingMap) (timestamp : Int64) :
    pending.processChecked timestamp =
      if ∀ entry ∈ pending.entries, Comparable entry.2.connection.timestamp timestamp then
        some (pending.processExact timestamp)
      else none := by
  rw [PendingMap.processChecked, filterChecked_eq (fun entry => nearChecked_eq _ timestamp)]
  split <;> rfl

theorem processForTimestamp_eq {pending : PendingMap} {timestamp : Int64}
    (h : ∀ entry ∈ pending.entries, Comparable entry.2.connection.timestamp timestamp) :
    pending.processForTimestamp timestamp = pending.processExact timestamp := by
  rw [PendingMap.processForTimestamp, PendingMap.processExact, PendingMap.keysFor,
    PendingMap.keysFor, List.filter_congr (fun entry hmem => near_eq (h entry hmem))]

section

variable (players : TimestampPlayerMapper) (walk : List Entry) (timestamp : Int64)
  (username : Text)

theorem comparable_of_isForExact (entry : Entry) (h : isForExact timestamp username entry = true)
    (_ : entry.2.1 = username) : Comparable entry.2.2 timestamp :=
  comparable_of_nearExact (Bool.and_elim_right h)

theorem logoutChecked_eq :
    players.logoutChecked walk timestamp username =
      if LogoutComparable walk timestamp username then
        some (players.logoutExact walk timestamp username)
      else none := by
  have hcheck : ∀ entry : Entry,
      (if entry.2.1 == username then nearChecked entry.2.2 timestamp else some false) =
        if entry.2.1 = username → Comparable entry.2.2 timestamp then
          some (isForExact timestamp username entry)
        else none := by
    intro entry
    by_cases huser : entry.2.1 = username
    · simp [huser, nearChecked_eq, isForExact]
    · simp [huser, isForExact]
  rw [logoutChecked, findChecked_eq hcheck (comparable_of_isForExact timestamp username)]
  split
  · next h => exact (if_pos h).symm
  · next h => exact (if_neg h).symm

theorem registerLogout_eq (h : LogoutComparable walk timestamp username) :
    players.registerLogout walk timestamp username =
      players.logoutExact walk timestamp username := by
  have hsame : ∀ entry : Entry, (entry.2.1 = username → Comparable entry.2.2 timestamp) →
      isFor timestamp username entry = isForExact timestamp username entry := by
    intro entry hcomparable
    by_cases huser : entry.2.1 = username
    · rw [isFor, isForExact, near_eq (hcomparable huser)]
    · rw [isFor, isForExact, beq_eq_false_iff_ne.mpr huser, Bool.false_and, Bool.false_and]
  rw [registerLogout, logoutExact,
    find?_eq_of_takeWhile (comparable_of_isForExact timestamp username) hsame h]
  rfl

end

/-- In a checked build without a panic and in a wrapping one, logins and logouts match the
entries whose timestamps are less than the tolerance away, exactly when the distances that are
computed are below `2 ^ 63`. -/
theorem timestamps_match_iff (pending : PendingMap) (players : TimestampPlayerMapper)
    (walk : List Entry) (timestamp : Int64) (username : Text) :
    (pending.processChecked timestamp = some (pending.processExact timestamp) ∧
        pending.processForTimestamp timestamp = pending.processExact timestamp ↔
      ∀ entry ∈ pending.entries, Comparable entry.2.connection.timestamp timestamp) ∧
    (players.logoutChecked walk timestamp username =
          some (players.logoutExact walk timestamp username) ∧
        players.registerLogout walk timestamp username =
          players.logoutExact walk timestamp username ↔
      LogoutComparable walk timestamp username) := by
  rw [processChecked_eq, logoutChecked_eq]
  refine ⟨⟨fun h => ?_, fun h => ⟨if_pos h, processForTimestamp_eq h⟩⟩,
    ⟨fun h => ?_, fun h => ⟨if_pos h, registerLogout_eq players walk timestamp username h⟩⟩⟩
  · exact (ite_none_right_eq_some.mp h.1).1
  · exact (ite_none_right_eq_some.mp h.1).1

/-- A connection of November 2023. -/
def waiting : PendingMap :=
  AList.singleton (BufferState.rejoining 0).key ⟨BufferState.rejoining 1700000000000, 0⟩

/-- The difference is the smallest 64-bit integer, which is its own absolute value in a release
build; a checked build panics. -/
theorem far_login_matches :
    (waiting.processForTimestamp (-9223370336854775808)).1 =
        [⟨BufferState.rejoining 1700000000000, 0⟩] ∧
      (waiting.processExact (-9223370336854775808)).1 = [] ∧
      waiting.processChecked (-9223370336854775808) = none := by
  refine ⟨?_, ?_, ?_⟩ <;> decide +kernel

end FerrumProxy
