import FerrumProxy.PlayerMapper
import FerrumProxy.WebhookGroups

/-!
# Connections that wait for a login

`ConnectionBuffer` keeps a connection for half a minute, so that a login that the management
API is told of can be matched with it.  Each `add_pending` starts a timer that knows only the
key of the connection: its IP address, port and protocol.
-/

namespace FerrumProxy

open Str Runs

/-- `BUFFER_TIMEOUT`, in milliseconds. -/
def bufferTimeout : Nat := 30000

/-- A connection that waits for its login. -/
structure PendingConnection where
  ip : Text
  port : UInt16
  protocol : Protocol
  timestamp : Int64
  target : Text
  deriving DecidableEq

def PendingConnection.key (connection : PendingConnection) : Text :=
  connection.ip ++ ":".toList ++ Nat.toDigits 10 connection.port.toNat ++ ":".toList ++
    connection.protocol.label

/-- A connection of the map, with the number of its insertion, which the code does not have. -/
structure PendingEntry where
  connection : PendingConnection
  number : Nat
  deriving DecidableEq

abbrev PendingMap := AList (fun _ : Text => PendingEntry)

namespace PendingMap

/-- The values of the keys, taken out of the map one by one. -/
def removeAll (pending : PendingMap) : List Text → List PendingEntry × PendingMap
  | [] => ([], pending)
  | key :: keys =>
    let (removed, rest) := removeAll (pending.erase key) keys
    ((pending.lookup key).toList ++ removed, rest)

/-- The keys of the connections with a timestamp that matches. -/
def keysFor (pending : PendingMap) (matching : Int64 → Bool) : List Text :=
  (pending.entries.filter (fun entry => matching entry.2.connection.timestamp)).map Sigma.fst

def processForTimestamp (pending : PendingMap) (timestamp : Int64) :
    List PendingEntry × PendingMap :=
  pending.removeAll (pending.keysFor (near · timestamp))

theorem lookup_removeAll (keys : List Text) (pending : PendingMap) (key : Text) :
    (pending.removeAll keys).2.lookup key = if key ∈ keys then none else pending.lookup key := by
  induction keys generalizing pending with
  | nil => simp [removeAll]
  | cons first keys ih =>
    simp only [removeAll, ih, List.mem_cons]
    by_cases hkey : key = first
    · subst hkey
      simp
    · simp [hkey, AList.lookup_erase_ne hkey]

theorem mem_keysFor {pending : PendingMap} {matching : Int64 → Bool} {key : Text} :
    key ∈ pending.keysFor matching ↔ ∃ entry, pending.lookup key = some entry ∧
      matching entry.connection.timestamp = true := by
  simp only [keysFor, List.mem_map, List.mem_filter, ← Option.mem_def, AList.mem_lookup_iff]
  constructor
  · intro ⟨entry, ⟨hmem, hmatching⟩, hkey⟩
    subst hkey
    exact ⟨entry.2, hmem, hmatching⟩
  · intro ⟨entry, hmem, hmatching⟩
    exact ⟨⟨key, entry⟩, ⟨hmem, hmatching⟩, rfl⟩

/-- A login takes out what it matches. -/
theorem lookup_processForTimestamp {pending : PendingMap} {key : Text} {entry : PendingEntry}
    (h : pending.lookup key = some entry) (timestamp : Int64) :
    (pending.processForTimestamp timestamp).2.lookup key =
      if near entry.connection.timestamp timestamp then none else some entry := by
  rw [processForTimestamp, lookup_removeAll]
  simp only [mem_keysFor, h, Option.some.injEq, exists_eq_left']

end PendingMap

/-- A spawned task that is going to remove its key. -/
structure ExpiryTimer where
  key : Text
  due : Nat
  /-- The insertion that has started it; the code does not have it. -/
  number : Nat
  deriving DecidableEq

/-- The map of the connections, and the timers that run. -/
structure BufferState where
  pending : PendingMap := ∅
  timers : List ExpiryTimer := []
  now : Nat := 0
  inserted : Nat := 0

/-- What happens to the buffer. -/
inductive BufferEvent where
  /-- `add_pending`; its task begins to sleep after the delay. -/
  | add (connection : PendingConnection) (delay : Nat)
  | expire (timer : ExpiryTimer)
  | login (timestamp : Int64)
  | wait (elapsed : Nat)

namespace BufferState

def step (s : BufferState) : BufferEvent → Option BufferState
  | .add connection delay =>
    some { s with
      pending := s.pending.insert connection.key ⟨connection, s.inserted⟩
      timers := ⟨connection.key, s.now + delay + bufferTimeout, s.inserted⟩ :: s.timers
      inserted := s.inserted + 1 }
  | .expire timer =>
    if timer ∈ s.timers ∧ timer.due ≤ s.now then
      some { s with pending := s.pending.erase timer.key, timers := s.timers.erase timer }
    else none
  | .login timestamp => some { s with pending := (s.pending.processForTimestamp timestamp).2 }
  | .wait elapsed => some { s with now := s.now + elapsed }

/-- The event is a login that matches the entry, or the expiry of the entry's own timer. -/
def Ends (entry : PendingEntry) : BufferEvent → Prop
  | .login timestamp => near entry.connection.timestamp timestamp = true
  | .expire timer => timer.number = entry.number
  | _ => False

/-- A connection is added only if no timer of its key is running. -/
def Unhurried (s : BufferState) : BufferEvent → Prop
  | .add connection _ => ∀ timer ∈ s.timers, timer.key ≠ connection.key
  | _ => True

/-- The event neither matches the connection nor adds another one under its key. -/
def Spares (connection : PendingConnection) : BufferEvent → Prop
  | .add other _ => other.key ≠ connection.key
  | .login timestamp => near connection.timestamp timestamp = false
  | _ => True

instance (s : BufferState) (event : BufferEvent) : Decidable (Unhurried s event) := by
  cases event <;> unfold Unhurried <;> infer_instance

/-- The timers of a key that is in the map are those of its entry. -/
def OwnTimers (s : BufferState) : Prop :=
  ∀ key entry, s.pending.lookup key = some entry →
    ∀ timer ∈ s.timers, timer.key = key → timer.number = entry.number

/-- The connection is in the map until the limit, which no timer of its key is before. -/
def Waits (connection : PendingConnection) (number limit : Nat) (s : BufferState) : Prop :=
  (s.now < limit → s.pending.lookup connection.key = some ⟨connection, number⟩) ∧
    ∀ timer ∈ s.timers, timer.key = connection.key → limit ≤ timer.due

variable {s t u : BufferState} {event : BufferEvent}

/-! ## One step -/

theorem OwnTimers.step (h : OwnTimers s) (hok : Unhurried s event) (hstep : s.step event = some t) :
    OwnTimers t := by
  cases event with
  | add connection delay =>
    cases hstep
    intro key entry hlookup timer hmem hkey
    by_cases hsame : key = connection.key
    · subst hsame
      simp only [AList.lookup_insert, Option.some.injEq] at hlookup
      cases List.mem_cons.mp hmem with
      | inl hnew => rw [hnew, ← hlookup]
      | inr hold => exact absurd hkey (hok timer hold)
    · simp only [AList.lookup_insert_ne hsame] at hlookup
      cases List.mem_cons.mp hmem with
      | inl hnew =>
        rw [hnew] at hkey
        exact absurd hkey.symm hsame
      | inr hold => exact h key entry hlookup timer hold hkey
  | expire timer =>
    simp only [BufferState.step, Option.ite_none_right_eq_some, Option.some.injEq] at hstep
    obtain ⟨_, rfl⟩ := hstep
    intro key entry hlookup other hmem hkey
    by_cases hsame : key = timer.key
    · subst hsame
      simp at hlookup
    · simp only [AList.lookup_erase_ne hsame] at hlookup
      exact h key entry hlookup other (List.mem_of_mem_erase hmem) hkey
  | login timestamp =>
    cases hstep
    intro key entry hlookup
    simp only [PendingMap.processForTimestamp, PendingMap.lookup_removeAll,
      Option.ite_none_left_eq_some] at hlookup
    exact h key entry hlookup.2
  | wait elapsed =>
    cases hstep
    exact h

/-- What takes an entry out of the map is what its end may be. -/
theorem ends_of_removed (h : OwnTimers s) (hstep : s.step event = some t) {key : Text}
    {entry : PendingEntry} (hbefore : s.pending.lookup key = some entry)
    (hafter : t.pending.lookup key = none) : Ends entry event := by
  cases event with
  | add connection delay =>
    cases hstep
    by_cases hsame : key = connection.key
    · subst hsame
      simp at hafter
    · rw [AList.lookup_insert_ne hsame, hbefore] at hafter
      cases hafter
  | expire timer =>
    simp only [step, Option.ite_none_right_eq_some, Option.some.injEq] at hstep
    obtain ⟨⟨hmem, _⟩, rfl⟩ := hstep
    by_cases hsame : key = timer.key
    · exact h key entry hbefore timer hmem hsame.symm
    · rw [AList.lookup_erase_ne hsame, hbefore] at hafter
      cases hafter
  | login timestamp =>
    cases hstep
    have hnear : near entry.connection.timestamp timestamp = true := by
      simpa [PendingMap.lookup_processForTimestamp hbefore] using hafter
    exact hnear
  | wait elapsed =>
    cases hstep
    rw [hbefore] at hafter
    cases hafter

theorem Waits.step {connection : PendingConnection} {number limit : Nat}
    (h : Waits connection number limit s) (hspares : Spares connection event)
    (hstep : s.step event = some t) : Waits connection number limit t := by
  obtain ⟨hwaits, htimers⟩ := h
  cases event with
  | add other delay =>
    cases hstep
    refine ⟨fun hnow => ?_, fun timer hmem hkey => ?_⟩
    · rw [AList.lookup_insert_ne (Ne.symm hspares)]
      exact hwaits hnow
    · cases List.mem_cons.mp hmem with
      | inl hnew =>
        rw [hnew] at hkey
        exact absurd hkey hspares
      | inr hold => exact htimers timer hold hkey
  | expire timer =>
    simp only [BufferState.step, Option.ite_none_right_eq_some, Option.some.injEq] at hstep
    obtain ⟨⟨hmem, hdue⟩, rfl⟩ := hstep
    refine ⟨fun hnow => ?_, fun other hother => htimers other (List.mem_of_mem_erase hother)⟩
    -- a timer of the key is due only after the limit
    have hne : connection.key ≠ timer.key := by
      intro hkey
      have hlimit := htimers timer hmem hkey.symm
      simp only at hnow
      omega
    rw [AList.lookup_erase_ne hne]
    exact hwaits hnow
  | login timestamp =>
    cases hstep
    refine ⟨fun hnow => ?_, htimers⟩
    rw [PendingMap.lookup_processForTimestamp (hwaits hnow)]
    exact if_neg (Bool.eq_false_iff.mp hspares)
  | wait elapsed =>
    cases hstep
    exact ⟨fun hnow => hwaits (by simp only at hnow; omega), htimers⟩

theorem waits_of_add {connection : PendingConnection} {delay : Nat}
    (hok : Unhurried s (.add connection delay)) (hstep : s.step (.add connection delay) = some t) :
    Waits connection s.inserted (s.now + bufferTimeout) t := by
  cases hstep
  refine ⟨fun _ => AList.lookup_insert _, fun timer hmem hkey => ?_⟩
  cases List.mem_cons.mp hmem with
  | inl hnew =>
    rw [hnew]
    simp only
    omega
  | inr hold => exact absurd hkey (hok timer hold)

/-! ## Whole runs -/

/-- If every connection is added while no timer of its key is running, then an entry is removed
only by a login that matches it or by its own timer, and a connection that is added stays in the
map for the whole time-out unless a login matches it or it is added again. -/
theorem pending_lives_its_window {events : List BufferEvent}
    (hguarded : Guarded step Unhurried {} events) (hrun : run step {} events = some s) :
    (∀ event t key entry, s.step event = some t → s.pending.lookup key = some entry →
      t.pending.lookup key = none → Ends entry event) ∧
    ∀ connection delay t later u, Unhurried s (.add connection delay) →
      s.step (.add connection delay) = some t → run step t later = some u →
      (∀ event ∈ later, Spares connection event) → u.now < s.now + bufferTimeout →
      u.pending.lookup connection.key = some ⟨connection, s.inserted⟩ := by
  have hown : OwnTimers s := by
    refine (reaches_of_guarded hguarded hrun).invariant ?_ ?_
    · intro key entry hlookup
      cases hlookup
    · intro s event t h hok hstep
      exact h.step hok hstep
  constructor
  · intro event t key entry hstep hbefore hafter
    exact ends_of_removed hown hstep hbefore hafter
  · intro connection delay t later u hok hstep hlater hspares hnow
    have hreach : Reaches step (fun _ event => Spares connection event) t u :=
      reaches_of_guarded (guarded_of_forall (fun event hmem _ => hspares event hmem) t) hlater
    have hwaits : Waits connection s.inserted (s.now + bufferTimeout) u :=
      hreach.invariant (waits_of_add hok hstep) (fun _ _ _ h hspare hnext => h.step hspare hnext)
    exact hwaits.1 hnow

/-- A client that joins, and that joins again half a minute later from the same port. -/
def rejoining (timestamp : Int64) : PendingConnection where
  ip := "203.0.113.7".toList
  port := 50000
  protocol := .udp
  timestamp := timestamp
  target := "10.0.0.1:19132".toList

/-- A player who comes back when the first timer is over. -/
theorem pending_lives_its_window_rejoin :
    ∃ s : BufferState, run step {} [.add (rejoining 0) 0, .wait 30000,
        .expire ⟨(rejoining 0).key, 30000, 0⟩] = some s ∧
      ∀ t u, s.step (.add (rejoining 30000) 0) = some t → run step t [.wait 29999] = some u →
        u.pending.lookup (rejoining 30000).key = some ⟨rejoining 30000, 1⟩ := by
  refine ⟨_, rfl, fun t u ht hu => ?_⟩
  refine (@pending_lives_its_window _ [.add (rejoining 0) 0, .wait 30000,
    .expire ⟨(rejoining 0).key, 30000, 0⟩] (by decide +kernel) rfl).2 _ _ _ _ _
    (by decide +kernel) ht hu ?_ ?_
  · simp [Spares]
  · cases ht
    cases hu
    decide +kernel

/-- The connection is added again after ten seconds; the first timer, which is due twenty
seconds later, removes it. -/
theorem early_expiry :
    ∃ s t : BufferState, run step {} [.add (rejoining 0) 0, .wait 10000,
        .add (rejoining 10000) 0, .wait 20000] = some s ∧
      s.pending.lookup (rejoining 10000).key = some ⟨rejoining 10000, 1⟩ ∧
      s.step (.expire ⟨(rejoining 0).key, 30000, 0⟩) = some t ∧
      t.pending.lookup (rejoining 10000).key = none ∧ t.now < 10000 + bufferTimeout ∧
      ¬ Ends ⟨rejoining 10000, 1⟩ (.expire ⟨(rejoining 0).key, 30000, 0⟩) := by
  refine ⟨_, _, rfl, by decide +kernel, rfl, by decide +kernel, by decide +kernel, ?_⟩
  intro h
  cases h

end BufferState

end FerrumProxy
