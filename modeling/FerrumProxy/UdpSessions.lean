import FerrumProxy.GuardedRuns
import FerrumProxy.NetAddress

/-!
# The session table of a UDP listener

A UDP listener keeps one session for each peer.  The listener itself handles one datagram after
another, so `obtain_session` is a single task that takes the lock of the table several times; every
session has a receive task that runs beside it and that removes the session when it ends.  Each
access to the table is one step.

A reset removes the session of a peer and aborts its receive task.  The abort stops the task only at
an `await`: a task that is being polled at that moment may still leave its loop and remove whatever
session its peer has by then.
-/

namespace FerrumProxy

open Runs AList

def reconnectIdleThresholdMs : Nat := 3000
def establishedGraceMs : Nat := 5000
def fastReconnectIdleMs : Nat := 1000

/-- The silence of the session and the time since it was established, if it was. -/
def shouldReset (reconnectInfo : Option (Nat × Option Nat)) : Bool :=
  match reconnectInfo with
  | some (idle, some establishedAge) =>
    decide (reconnectIdleThresholdMs ≤ idle) ||
      (decide (establishedGraceMs ≤ establishedAge) && decide (fastReconnectIdleMs ≤ idle))
  | _ => false

/-- Where a receive task is. -/
inductive RecvPhase where
  /-- At an `await`, or not yet started. -/
  | suspended
  /-- Being polled, inside the loop. -/
  | running
  /-- Past the loop, before the removal. -/
  | leaving
  deriving DecidableEq

/-- A receive task. -/
structure RecvTask where
  peer : SocketAddr
  phase : RecvPhase
  aborted : Bool
  deriving DecidableEq

/-- The map of the sessions, their unfinished receive tasks and the metric.  A
session and its receive task have the same number. -/
structure SessionTable where
  sessions : AList (fun _ : SocketAddr => Nat)
  tasks : Pool RecvTask
  activeSessions : Nat
  next : Nat

namespace SessionTable

def empty : SessionTable := ⟨∅, ∅, 0, 0⟩

/-- `session_closed`: `checked_sub` keeps the metric at zero. -/
def sessionClosed (table : SessionTable) : SessionTable :=
  { table with activeSessions := table.activeSessions - 1 }

def abortRecvTask (table : SessionTable) (id : Nat) : SessionTable :=
  match table.tasks.lookup id with
  | some task => { table with tasks := table.tasks.put id { task with aborted := true } }
  | none => table

/-- The reset in `obtain_session`. -/
def reset (table : SessionTable) (peer : SocketAddr) : SessionTable :=
  match table.sessions.lookup peer with
  | some old =>
    (({ table with sessions := table.sessions.erase peer }).abortRecvTask old).sessionClosed
  | none => table

/-- The last critical section of `obtain_session`. -/
def insertNew (table : SessionTable) (peer : SocketAddr) : SessionTable :=
  match table.sessions.lookup peer with
  | some _ => table
  | none =>
    { sessions := table.sessions.insert peer table.next
      tasks := table.tasks.put table.next ⟨peer, .suspended, false⟩
      activeSessions := table.activeSessions + 1
      next := table.next + 1 }

/-- A receive task moves on to a phase. -/
def advance (table : SessionTable) (id : Nat) (task : RecvTask) (phase : RecvPhase) :
    SessionTable :=
  { table with tasks := table.tasks.put id { task with phase := phase } }

/-- A receive task ends without its clean-up. -/
def cancel (table : SessionTable) (id : Nat) : SessionTable :=
  { table with tasks := table.tasks.drop id }

/-- The end of `spawn_backend_recv`. -/
def cleanUp (table : SessionTable) (id : Nat) (task : RecvTask) : SessionTable :=
  let removed := (table.sessions.lookup task.peer).isSome
  let rest := { table with
    sessions := table.sessions.erase task.peer
    tasks := table.tasks.drop id }
  if removed then rest.sessionClosed else rest

end SessionTable

/-- Where the listener is in `obtain_session`. -/
inductive ListenerStage where
  | idle
  | looking (peer : SocketAddr)
  | resetting (peer : SocketAddr)
  | checking (peer : SocketAddr)
  | binding (peer : SocketAddr)
  | inserting (peer : SocketAddr)

/-- The table and the task of the listener. -/
structure UdpListener where
  table : SessionTable
  stage : ListenerStage

/-- The accesses to the table. -/
inductive ListenerAction where
  /-- A datagram of a peer needs a session. -/
  | receive (peer : SocketAddr) (isNewConn : Bool)
  /-- The clocks of the peer's session, if it has one, are read. -/
  | lookup (idle : Nat) (established : Option Nat)
  | reset
  | check
  | bindSocket (bound : Bool)
  | insert
  /-- A receive task is polled, comes to an `await`, leaves its loop. -/
  | poll (id : Nat)
  | await (id : Nat)
  | leave (id : Nat)
  /-- An aborted task ends at its `await`. -/
  | cancel (id : Nat)
  | cleanUp (id : Nat)

namespace UdpListener

def start : UdpListener := ⟨SessionTable.empty, .idle⟩

/-- A step of the receive task under a number. -/
def stepTask (listener : UdpListener) (id : Nat) (enabled : RecvTask → Bool)
    (change : RecvTask → SessionTable) : Option UdpListener :=
  match listener.table.tasks.lookup id with
  | some task => if enabled task then some { listener with table := change task } else none
  | none => none

def step (listener : UdpListener) : ListenerAction → Option UdpListener
  | .receive peer isNewConn =>
    match listener.stage with
    | .idle =>
      some { listener with stage := if isNewConn then .looking peer else .checking peer }
    | _ => none
  | .lookup idle established =>
    match listener.stage with
    | .looking peer =>
      let reconnectInfo :=
        (listener.table.sessions.lookup peer).map (fun _ => (idle, established))
      some { listener with
        stage := if shouldReset reconnectInfo then .resetting peer else .checking peer }
    | _ => none
  | .reset =>
    match listener.stage with
    | .resetting peer => some ⟨listener.table.reset peer, .checking peer⟩
    | _ => none
  | .check =>
    match listener.stage with
    | .checking peer =>
      match listener.table.sessions.lookup peer with
      | some _ => some { listener with stage := .idle }
      | none => some { listener with stage := .binding peer }
    | _ => none
  | .bindSocket bound =>
    match listener.stage with
    | .binding peer =>
      some { listener with stage := if bound then .inserting peer else .idle }
    | _ => none
  | .insert =>
    match listener.stage with
    | .inserting peer => some ⟨listener.table.insertNew peer, .idle⟩
    | _ => none
  | .poll id =>
    listener.stepTask id (fun task => task.phase == .suspended && !task.aborted)
      (listener.table.advance id · .running)
  | .await id =>
    listener.stepTask id (fun task => task.phase == .running)
      (listener.table.advance id · .suspended)
  | .leave id =>
    listener.stepTask id (fun task => task.phase == .running)
      (listener.table.advance id · .leaving)
  | .cancel id =>
    listener.stepTask id (fun task => task.phase == .suspended && task.aborted)
      (fun _ => listener.table.cancel id)
  | .cleanUp id =>
    listener.stepTask id (fun task => task.phase == .leaving) (listener.table.cleanUp id)

end UdpListener

open UdpListener

/-! ### What the table promises -/

/-- The clean-up that a receive task is about to make removes no session but its
own. -/
def SessionTable.OwnCleanUp (table : SessionTable) : Prop :=
  ∀ id task, table.tasks.lookup id = some task → task.phase = .leaving →
    ∀ removed, table.sessions.lookup task.peer = some removed → removed = id

/-- Every session has an unfinished receive task. -/
def SessionTable.Received (table : SessionTable) : Prop :=
  ∀ peer id, table.sessions.lookup peer = some id →
    ∃ task, table.tasks.lookup id = some task ∧ task.peer = peer

/-- What is promised of the table. -/
structure SessionTable.Consistent (table : SessionTable) : Prop where
  ownCleanUp : table.OwnCleanUp
  received : table.Received
  metric : table.activeSessions = table.sessions.keys.length

/-- The peer for which the action inserts a session. -/
def UdpListener.insertsFor (listener : UdpListener) : ListenerAction → Option SocketAddr
  | .insert =>
    match listener.stage with
    | .inserting peer => some peer
    | _ => none
  | _ => none

/-- A session is inserted only when no receive task of its peer is being polled. -/
def UdpListener.Unhurried (listener : UdpListener) (action : ListenerAction) : Prop :=
  ∀ peer ∈ listener.insertsFor action, ∀ entry ∈ listener.table.tasks.entries,
    entry.2.peer = peer → entry.2.phase = .suspended

instance (listener : UdpListener) (action : ListenerAction) :
    Decidable (listener.Unhurried action) :=
  inferInstanceAs (Decidable (∀ peer ∈ listener.insertsFor action, _))

/-! ### Every run -/

open SessionTable

section Invariants

variable {table : SessionTable} {peer : SocketAddr} {id : Nat} {task : RecvTask}

/-- What holds in every run, hurried or not: numbers are fresh, every session has
a receive task that nobody has aborted, and the metric counts the sessions. -/
structure SessionTable.Sound (table : SessionTable) : Prop where
  fresh : ∀ id task, table.tasks.lookup id = some task → id < table.next
  live : ∀ peer id, table.sessions.lookup peer = some id →
    ∃ task, table.tasks.lookup id = some task ∧ task.peer = peer ∧ task.aborted = false
  counted : table.activeSessions = table.sessions.keys.length

theorem sound_empty : empty.Sound where
  fresh id task h := by cases h
  live peer id h := by cases h
  counted := rfl

/-- Removing a session makes the table shorter by one. -/
theorem length_keys_erase {number : Nat} (h : table.sessions.lookup peer = some number) :
    (table.sessions.erase peer).keys.length = table.sessions.keys.length - 1 := by
  have hmem : peer ∈ table.sessions.keys :=
    lookup_isSome.mp (Option.isSome_of_eq_some h)
  rw [keys_erase, List.length_erase_of_mem hmem]

section

variable (hsound : table.Sound)

include hsound

/-- A reset removes the session and aborts its task. -/
theorem reset_eq {old : Nat} (hold : table.sessions.lookup peer = some old) :
    ∃ task, table.tasks.lookup old = some task ∧ task.peer = peer ∧ task.aborted = false ∧
      table.reset peer =
        { sessions := table.sessions.erase peer
          tasks := table.tasks.put old { task with aborted := true }
          activeSessions := table.activeSessions - 1
          next := table.next } := by
  obtain ⟨task, htask, hpeer, haborted⟩ := hsound.live peer old hold
  refine ⟨task, htask, hpeer, haborted, ?_⟩
  unfold reset abortRecvTask
  rw [hold]
  dsimp only
  rw [htask]
  rfl

/-- Without the session of a task's peer, every session has another task. -/
theorem SessionTable.Sound.erased (htask : table.tasks.lookup id = some task) {other : SocketAddr}
    {number : Nat} (hlookup : (table.sessions.erase task.peer).lookup other = some number) :
    number ≠ id ∧ ∃ found, table.tasks.lookup number = some found ∧ found.peer = other ∧
      found.aborted = false := by
  by_cases hother : other = task.peer
  · rw [hother, lookup_erase] at hlookup
    cases hlookup
  · rw [lookup_erase_ne hother] at hlookup
    obtain ⟨found, hfound, hpeer, haborted⟩ := hsound.live other number hlookup
    refine ⟨?_, found, hfound, hpeer, haborted⟩
    intro hid
    rw [hid, htask] at hfound
    cases hfound
    exact hother hpeer.symm

theorem sound_reset : (table.reset peer).Sound := by
  cases hold : table.sessions.lookup peer with
  | none =>
    unfold reset
    rw [hold]
    exact hsound
  | some old =>
    obtain ⟨task, htask, rfl, _, heq⟩ := reset_eq hsound hold
    rw [heq]
    refine ⟨?_, ?_, ?_⟩
    · intro id found hfound
      rcases Pool.put_eq_some hfound with ⟨rfl, _⟩ | ⟨_, hfound⟩
      · exact hsound.fresh id task htask
      · exact hsound.fresh id found hfound
    · intro other id hlookup
      -- the aborted task belongs to the peer of the reset
      obtain ⟨hid, found, hfound, hlive⟩ := hsound.erased htask hlookup
      exact ⟨found, (Pool.put_ne _ _ hid).trans hfound, hlive⟩
    · rw [length_keys_erase hold, hsound.counted]

theorem sound_insertNew : (table.insertNew peer).Sound := by
  unfold insertNew
  cases hlookup : table.sessions.lookup peer with
  | some existing => exact hsound
  | none =>
    refine ⟨?_, ?_, ?_⟩
    · intro id found hfound
      rcases Pool.put_eq_some hfound with ⟨rfl, _⟩ | ⟨_, hfound⟩
      · exact Nat.lt_succ_self _
      · exact Nat.lt_succ_of_lt (hsound.fresh id found hfound)
    · intro other id hother
      by_cases hpeer : other = peer
      · subst hpeer
        rw [lookup_insert] at hother
        cases hother
        exact ⟨_, Pool.put_self _ _ _, rfl, rfl⟩
      · rw [lookup_insert_ne hpeer] at hother
        obtain ⟨found, hfound, hpeer', haborted⟩ := hsound.live other id hother
        have hid : id ≠ table.next := Nat.ne_of_lt (hsound.fresh id found hfound)
        exact ⟨found, by rw [Pool.put_ne _ _ hid]; exact hfound, hpeer', haborted⟩
    · have hnew : peer ∉ table.sessions.keys := lookup_eq_none.mp hlookup
      dsimp only
      rw [keys_insert, List.length_cons, List.erase_of_not_mem hnew, hsound.counted]

theorem sound_advance (htask : table.tasks.lookup id = some task) (phase : RecvPhase) :
    (table.advance id task phase).Sound where
  fresh other found hfound := by
    rcases Pool.put_eq_some hfound with ⟨rfl, _⟩ | ⟨_, hfound⟩
    · exact hsound.fresh other task htask
    · exact hsound.fresh other found hfound
  live other number hlookup := by
    obtain ⟨found, hfound, hpeer, haborted⟩ := hsound.live other number hlookup
    by_cases hid : number = id
    · subst hid
      rw [htask] at hfound
      cases hfound
      exact ⟨_, Pool.put_self _ _ _, hpeer, haborted⟩
    · exact ⟨found, (Pool.put_ne _ _ hid).trans hfound, hpeer, haborted⟩
  counted := hsound.counted

theorem sound_cancel (htask : table.tasks.lookup id = some task) (haborted : task.aborted = true) :
    (table.cancel id).Sound where
  fresh other found hfound := hsound.fresh other found (Pool.drop_eq_some hfound).2
  live other number hlookup := by
    obtain ⟨found, hfound, hpeer, hlive⟩ := hsound.live other number hlookup
    have hid : number ≠ id := by
      intro hid
      rw [hid, htask] at hfound
      cases hfound
      rw [haborted] at hlive
      cases hlive
    exact ⟨found, (Pool.drop_ne _ hid).trans hfound, hpeer, hlive⟩
  counted := hsound.counted

/-- A clean-up counts what is left. -/
theorem cleanUp_eq (id : Nat) (task : RecvTask) :
    table.cleanUp id task =
      { sessions := table.sessions.erase task.peer
        tasks := table.tasks.drop id
        activeSessions := (table.sessions.erase task.peer).keys.length
        next := table.next } := by
  unfold cleanUp sessionClosed
  cases hlookup : table.sessions.lookup task.peer with
  | none =>
    have habsent : task.peer ∉ table.sessions.keys := lookup_eq_none.mp hlookup
    have hkeys : (table.sessions.erase task.peer).keys = table.sessions.keys := by
      rw [keys_erase, List.erase_of_not_mem habsent]
    rw [hkeys, ← hsound.counted]
    rfl
  | some removed =>
    rw [length_keys_erase hlookup, ← hsound.counted]
    rfl

theorem sound_cleanUp (htask : table.tasks.lookup id = some task) :
    (table.cleanUp id task).Sound := by
  rw [cleanUp_eq hsound]
  refine ⟨fun other found h => hsound.fresh other found (Pool.drop_eq_some h).2, ?_, rfl⟩
  intro other number hlookup
  obtain ⟨hid, found, hfound, hlive⟩ := hsound.erased htask hlookup
  exact ⟨found, (Pool.drop_ne _ hid).trans hfound, hlive⟩

end

/-! ### Unhurried runs -/

/-- A task whose session is not in the table was aborted, and once its peer has
another session it can only be cancelled. -/
def SessionTable.Tidy (table : SessionTable) : Prop :=
  ∀ id task, table.tasks.lookup id = some task →
    table.sessions.lookup task.peer = some id ∨
      (task.aborted = true ∧
        ((table.sessions.lookup task.peer).isSome = true → task.phase = .suspended))

/-- Removing a session leaves every task tidy but the one that has it. -/
theorem SessionTable.Tidy.erased (htidy : table.Tidy) (htask : table.tasks.lookup id = some task)
    (hnot : task.peer = peer → table.sessions.lookup peer ≠ some id) :
    (table.sessions.erase peer).lookup task.peer = some id ∨ (task.aborted = true ∧
      (((table.sessions.erase peer).lookup task.peer).isSome = true →
        task.phase = .suspended)) := by
  by_cases hpeer : task.peer = peer
  · rcases htidy id task htask with hown | ⟨haborted, _⟩
    · exact absurd (hpeer ▸ hown) (hnot hpeer)
    · rw [hpeer, lookup_erase]
      exact .inr ⟨haborted, fun h => (nomatch h)⟩
  · rw [lookup_erase_ne hpeer]
    exact htidy id task htask

/-- In a tidy table a clean-up removes its own session. -/
theorem ownCleanUp_of_tidy (htidy : table.Tidy) : table.OwnCleanUp := by
  intro id task htask hleaving removed hremoved
  rcases htidy id task htask with hown | ⟨_, hstopped⟩
  · exact Option.some.inj (hremoved.symm.trans hown)
  · rw [hstopped (Option.isSome_of_eq_some hremoved)] at hleaving
    cases hleaving

theorem tidy_reset (hsound : table.Sound) (htidy : table.Tidy) : (table.reset peer).Tidy := by
  cases hold : table.sessions.lookup peer with
  | none =>
    unfold reset
    rw [hold]
    exact htidy
  | some old =>
    obtain ⟨task, htask, hpeer, _, heq⟩ := reset_eq hsound hold
    rw [heq]
    intro id found hfound
    rcases Pool.put_eq_some hfound with ⟨_, rfl⟩ | ⟨hid, hfound⟩
    · dsimp only
      rw [hpeer, lookup_erase]
      exact .inr ⟨rfl, fun h => (nomatch h)⟩
    · exact htidy.erased hfound
        (fun _ hown => hid (Option.some.inj (hown.symm.trans hold)))

theorem tidy_insertNew (htidy : table.Tidy)
    (hquiet : ∀ id task, table.tasks.lookup id = some task → task.peer = peer →
      task.phase = .suspended) : (table.insertNew peer).Tidy := by
  unfold insertNew
  cases hlookup : table.sessions.lookup peer with
  | some existing => exact htidy
  | none =>
    intro id found hfound
    rcases Pool.put_eq_some hfound with ⟨rfl, rfl⟩ | ⟨_, hfound⟩
    · exact .inl (lookup_insert _)
    · by_cases hother : found.peer = peer
      · rcases htidy id found hfound with hown | ⟨haborted, _⟩
        · rw [hother, hlookup] at hown
          cases hown
        · exact .inr ⟨haborted, fun _ => hquiet id found hfound hother⟩
      · rw [lookup_insert_ne hother]
        exact htidy id found hfound

/-- Only a task that can still go on is polled, so no aborted one starts again. -/
theorem tidy_advance (htidy : table.Tidy) (htask : table.tasks.lookup id = some task)
    {phase : RecvPhase}
    (hmay : phase = .suspended ∨ task.phase ≠ .suspended ∨ task.aborted = false) :
    (table.advance id task phase).Tidy := by
  intro other found hfound
  rcases Pool.put_eq_some hfound with ⟨rfl, rfl⟩ | ⟨_, hfound⟩
  · rcases htidy other task htask with hown | ⟨haborted, hstopped⟩
    · exact .inl hown
    · refine .inr ⟨haborted, fun hsome => ?_⟩
      rcases hmay with hphase | hpolled | hlive
      · exact hphase
      · exact absurd (hstopped hsome) hpolled
      · rw [haborted] at hlive
        cases hlive
  · exact htidy other found hfound

theorem tidy_cancel (htidy : table.Tidy) : (table.cancel id).Tidy :=
  fun other found hfound => htidy other found (Pool.drop_eq_some hfound).2

theorem tidy_cleanUp (hsound : table.Sound) (htidy : table.Tidy)
    (htask : table.tasks.lookup id = some task) (hleaving : task.phase = .leaving) :
    (table.cleanUp id task).Tidy := by
  rw [cleanUp_eq hsound]
  intro other found hfound
  obtain ⟨hid, hfound⟩ := Pool.drop_eq_some hfound
  -- the session that is removed would be the other task's
  exact htidy.erased hfound
    (fun _ hown => hid (ownCleanUp_of_tidy htidy id task htask hleaving other hown))

end Invariants

/-! ### Steps and runs -/

section Steps

variable {listener listener' : UdpListener} {action : ListenerAction}

/-- What a step does to the table. -/
inductive UdpListener.Change (listener : UdpListener) : ListenerAction → SessionTable → Prop
  | kept (action : ListenerAction) : Change listener action listener.table
  | reset (peer : SocketAddr) : Change listener .reset (listener.table.reset peer)
  | inserted {peer : SocketAddr} (hstage : listener.stage = .inserting peer) :
      Change listener .insert (listener.table.insertNew peer)
  | advanced {id : Nat} {task : RecvTask} (action : ListenerAction) (phase : RecvPhase)
      (htask : listener.table.tasks.lookup id = some task)
      (hmay : phase = .suspended ∨ task.phase ≠ .suspended ∨ task.aborted = false) :
      Change listener action (listener.table.advance id task phase)
  | cancelled {id : Nat} {task : RecvTask} (htask : listener.table.tasks.lookup id = some task)
      (haborted : task.aborted = true) : Change listener (.cancel id) (listener.table.cancel id)
  | cleanedUp {id : Nat} {task : RecvTask} (htask : listener.table.tasks.lookup id = some task)
      (hleaving : task.phase = .leaving) :
      Change listener (.cleanUp id) (listener.table.cleanUp id task)

/-- A task moves if it exists and is enabled. -/
theorem stepTask_eq_some {id : Nat} {enabled : RecvTask → Bool} {change : RecvTask → SessionTable}
    (hstep : listener.stepTask id enabled change = some listener') :
    ∃ task, listener.table.tasks.lookup id = some task ∧ enabled task = true ∧
      listener' = { listener with table := change task } := by
  unfold stepTask at hstep
  (repeat' split at hstep) <;> cases hstep
  next task htask henabled => exact ⟨task, htask, henabled, rfl⟩

/-- Every step is one of the changes. -/
theorem change_of_step (hstep : listener.step action = some listener') :
    listener.Change action listener'.table := by
  cases action with
  | receive | lookup | bindSocket | check =>
    dsimp only [step] at hstep
    (repeat' split at hstep) <;> cases hstep <;> exact .kept _
  | reset =>
    dsimp only [step] at hstep
    split at hstep <;> cases hstep
    exact .reset _
  | insert =>
    dsimp only [step] at hstep
    split at hstep <;> cases hstep
    next hstage => exact .inserted hstage
  | poll id =>
    obtain ⟨task, htask, henabled, rfl⟩ := stepTask_eq_some hstep
    obtain ⟨_, hlive⟩ := Bool.and_eq_true_iff.mp henabled
    have haborted : task.aborted = false := by simpa using hlive
    exact .advanced _ _ htask (.inr (.inr haborted))
  | await id =>
    obtain ⟨task, htask, _, rfl⟩ := stepTask_eq_some hstep
    exact .advanced _ _ htask (.inl rfl)
  | leave id =>
    obtain ⟨task, htask, henabled, rfl⟩ := stepTask_eq_some hstep
    have hrunning : task.phase = .running := eq_of_beq henabled
    exact .advanced _ _ htask (.inr (.inl (by rw [hrunning]; decide)))
  | cancel id =>
    obtain ⟨task, htask, henabled, rfl⟩ := stepTask_eq_some hstep
    obtain ⟨_, haborted⟩ := Bool.and_eq_true_iff.mp henabled
    exact .cancelled htask haborted
  | cleanUp id =>
    obtain ⟨task, htask, henabled, rfl⟩ := stepTask_eq_some hstep
    exact .cleanedUp htask (eq_of_beq henabled)

/-- Every change keeps the table sound. -/
theorem UdpListener.Change.sound {table : SessionTable} (hchange : listener.Change action table)
    (hsound : listener.table.Sound) : table.Sound := by
  cases hchange with
  | kept => exact hsound
  | reset peer => exact sound_reset hsound
  | inserted _ => exact sound_insertNew hsound
  | advanced _ phase htask _ => exact sound_advance hsound htask phase
  | cancelled htask haborted => exact sound_cancel hsound htask haborted
  | cleanedUp htask _ => exact sound_cleanUp hsound htask

/-- An unhurried change keeps the table tidy. -/
theorem UdpListener.Change.tidy {table : SessionTable} (hchange : listener.Change action table)
    (hsound : listener.table.Sound) (htidy : listener.table.Tidy)
    (hunhurried : listener.Unhurried action) : table.Tidy := by
  cases hchange with
  | kept => exact htidy
  | reset peer => exact tidy_reset hsound htidy
  | @inserted peer hstage =>
    have hfor : listener.insertsFor .insert = some peer := by
      unfold insertsFor
      rw [hstage]
    apply tidy_insertNew htidy
    intro id task htask hpeer
    exact hunhurried peer hfor ⟨id, task⟩ (mem_lookup_iff.mp htask) hpeer
  | advanced _ _ htask hmay => exact tidy_advance htidy htask hmay
  | cancelled _ _ => exact tidy_cancel htidy
  | cleanedUp htask hleaving => exact tidy_cleanUp hsound htidy htask hleaving

/-- Hurried or not, the sessions are received and counted. -/
theorem sound_of_reaches {ok : UdpListener → ListenerAction → Prop}
    (hreach : Reaches step ok start listener) : listener.table.Sound := by
  induction hreach with
  | start => exact sound_empty
  | next _ _ hstep ih => exact (change_of_step hstep).sound ih

/-- Unhurried runs keep the table tidy. -/
theorem tidy_of_reaches (hreach : Reaches step Unhurried start listener) :
    listener.table.Tidy := by
  induction hreach with
  | start =>
    intro id task htask
    cases htask
  | next hbefore hunhurried hstep ih =>
    exact (change_of_step hstep).tidy (sound_of_reaches hbefore) ih hunhurried

/-- **The session table.**  In every run in which no session is inserted while a
receive task of its peer is being polled, a clean-up removes no session but its
own, every session has an unfinished receive task and the metric is the number of
sessions. -/
theorem sessionTable_consistent (hreach : Reaches step Unhurried start listener) :
    listener.table.Consistent where
  ownCleanUp := ownCleanUp_of_tidy (tidy_of_reaches hreach)
  received peer id hlookup := by
    obtain ⟨task, htask, hpeer, _⟩ := (sound_of_reaches hreach).live peer id hlookup
    exact ⟨task, htask, hpeer⟩
  metric := (sound_of_reaches hreach).counted

end Steps

/-! ### A reconnect at the wrong moment -/

def reconnectingPeer : SocketAddr := ⟨.v4 (.new 203 0 113 42), 51000⟩

/-- A peer gets its first session. -/
def firstSession : List ListenerAction :=
  [.receive reconnectingPeer true, .lookup 0 none, .check, .bindSocket true, .insert]

/-- After four seconds of silence the peer connects again. -/
def reconnect : List ListenerAction :=
  [.receive reconnectingPeer true, .lookup 4000 (some 60000), .reset, .check, .bindSocket true]

/-- The old receive task waits for the backend, so the abort stops it. -/
theorem sessionTable_consistent_reconnect :
    (run step start (firstSession ++ reconnect ++ [.insert])).any
      (fun listener => listener.table.sessions.lookup reconnectingPeer == some 1) = true ∧
    ∀ listener,
      run step start (firstSession ++ reconnect ++ [.insert]) =
        some listener → listener.table.Consistent := by
  refine ⟨by decide, fun listener hrun => ?_⟩
  have hguarded : Guarded step Unhurried start
      (firstSession ++ reconnect ++ [.insert]) := by decide
  exact sessionTable_consistent (reaches_of_guarded hguarded hrun)

/-- The old receive task has failed to forward a reply and left its loop when the
peer connects again: its clean-up takes the new session. -/
theorem cleanUp_removes_fresh_session :
    ¬ ∀ listener, Reaches step Always start listener →
      listener.table.Consistent := by
  intro hall
  have hrun : (run step start
      (firstSession ++ [.poll 0, .leave 0] ++ reconnect ++ [.insert])).map
        (fun listener => (listener.table.tasks.lookup 0,
          listener.table.sessions.lookup reconnectingPeer)) =
      some (some ⟨reconnectingPeer, .leaving, true⟩, some 1) := by decide
  obtain ⟨listener, hrun, hview⟩ := Option.map_eq_some_iff.mp hrun
  obtain ⟨htask, hsession⟩ := Prod.mk.inj hview
  have hown := (hall listener (reaches_of_run hrun)).ownCleanUp
  exact absurd (hown 0 _ htask rfl 1 hsession) (by decide)

end FerrumProxy
