import FerrumProxy.RelayWakeups

/-!
# The waiting counters

A `CONNECT` handler that has to wait adds itself to one of two counters, and takes itself out again
on each of its ways out: with a port, or because its token has found one elsewhere.  Entering,
waking, trying again and leaving are separate steps under different locks.
-/

namespace FerrumProxy

open Str Runs

namespace ConnectHandler

/-- The handler has returned. -/
def isDone (h : ConnectHandler) : Bool :=
  match h.phase with
  | .done _ => true
  | _ => false

/-- The handler is counted by the counter of clients with a token, or by the other one. -/
def counted (isPriorityClient : Bool) (h : ConnectHandler) : Bool :=
  h.queued && h.token.isSome == isPriorityClient && !h.isDone

/-- The counter that the handler has decremented, if it has. -/
def decremented (h : ConnectHandler) : List Bool :=
  if h.queued && h.isDone then [h.token.isSome] else []

/-- A handler is queued between its first failed try and its return. -/
structure Orderly (h : ConnectHandler) : Prop where
  full : h.phase = .full → h.queued = false
  leaving : ∀ result, h.phase = .leaving result → h.queued = true

/-- To the counters the two look the same. -/
structure SameCount (h h' : ConnectHandler) : Prop where
  counted : ∀ isPriorityClient, h'.counted isPriorityClient = h.counted isPriorityClient
  decremented : h'.decremented = h.decremented

variable {h : ConnectHandler} {phase : ConnectPhase}

@[simp]
theorem goTo_queued : (h.goTo phase).queued = h.queued := rfl

@[simp]
theorem goTo_token : (h.goTo phase).token = h.token := rfl

/-- A handler that goes on inside the function. -/
theorem sameCount_goTo (hbefore : h.isDone = false) (hafter : (h.goTo phase).isDone = false) :
    SameCount h (h.goTo phase) where
  counted isPriorityClient := by simp [ConnectHandler.counted, hbefore, hafter]
  decremented := by simp [ConnectHandler.decremented, hbefore, hafter]

/-- A handler that was never queued returns. -/
theorem sameCount_of_not_queued (hqueued : h.queued = false) : SameCount h (h.goTo phase) where
  counted isPriorityClient := by simp [ConnectHandler.counted, hqueued]
  decremented := by simp [ConnectHandler.decremented, hqueued]

/-- A handler that has its result has not decremented yet if it has to. -/
theorem sameCount_returns (hphase : h.phase = .trying) (result : AllocationResult) :
    SameCount h (h.returns result) := by
  have hdone : h.isDone = false := by simp [isDone, hphase]
  cases hqueued : h.queued with
  | true =>
    rw [returns, if_pos hqueued]
    exact sameCount_goTo hdone rfl
  | false =>
    rw [returns, if_neg (by simp [hqueued])]
    exact sameCount_of_not_queued hqueued

theorem orderly_returns (h : ConnectHandler) (result : AllocationResult) :
    (h.returns result).Orderly := by
  cases hqueued : h.queued <;> constructor <;> simp [returns, hqueued]

theorem counted_of_not_queued (hqueued : h.queued = false) (isPriorityClient : Bool) :
    h.counted isPriorityClient = false := by
  simp [ConnectHandler.counted, hqueued]

theorem counted_of_leaving {result : AllocationResult} (horderly : h.Orderly)
    (hphase : h.phase = .leaving result) (isPriorityClient : Bool) :
    h.counted isPriorityClient = (h.token.isSome == isPriorityClient) := by
  simp [ConnectHandler.counted, isDone, hphase, horderly.leaving result hphase]

end ConnectHandler

/-! ### Decrements -/

/-- The relay with the decrements of its waiting counters so far. -/
structure AccountedQueue where
  queue : RelayQueue := {}
  decrements : List (Nat × Bool) := []

open ConnectHandler

open List

namespace AccountedQueue

/-- The call of `decrement_waiting_counter` in a step. -/
def decrement (s : RelayQueue) : QueueAction → List (Nat × Bool)
  | .leave id => (s.handlers.lookup id).toList.map (fun h => (id, h.token.isSome))
  | _ => []

def step (config : SharedServiceConfig) (s : AccountedQueue) (action : QueueAction) :
    Option AccountedQueue :=
  (s.queue.step config action).map
    (fun queue => ⟨queue, s.decrements ++ decrement s.queue action⟩)

/-- The counters that the handler has decremented. -/
def decrementsOf (s : AccountedQueue) (id : Nat) : List Bool :=
  (s.decrements.filter (fun call => call.1 == id)).map Prod.snd

/-- The counter of the handlers with a token, or of those without. -/
def waiting (queue : RelayQueue) (isPriorityClient : Bool) : Nat :=
  if isPriorityClient then queue.waitingPriorityClients else queue.waitingClients

/-- What the run keeps. -/
structure Accounted (config : SharedServiceConfig) (s : AccountedQueue) : Prop where
  tidy : s.queue.Tidy
  orderly : s.queue.handlers.All ConnectHandler.Orderly
  decremented : ∀ id h, s.queue.handlers.lookup id = some h → s.decrementsOf id = h.decremented
  unknown : ∀ id, s.queue.handlers.lookup id = none → s.decrementsOf id = []
  clients : s.queue.waitingClients = s.queue.handlers.count (fun _ h => h.counted false)
  priorityClients :
    s.queue.waitingPriorityClients = s.queue.handlers.count (fun _ h => h.counted true)
  room : s.queue.waitingClients ≤ config.queue.maxSize

variable {config : SharedServiceConfig} {s : AccountedQueue} {queue : RelayQueue} {id : Nat}
  {h h' : ConnectHandler}

theorem accounted_start : Accounted config {} where
  tidy := RelayQueue.tidy_start
  orderly _ _ hlookup := by cases hlookup
  decremented _ _ hlookup := by cases hlookup
  unknown _ _ := rfl
  clients := rfl
  priorityClients := rfl
  room := Nat.zero_le _

namespace Accounted

/-- A step that concerns neither handlers nor counters. -/
theorem frame (hs : s.Accounted config) (htidy : queue.Tidy)
    (hhandlers : queue.handlers = s.queue.handlers)
    (hcounters : ∀ b, waiting queue b = waiting s.queue b) :
    Accounted config ⟨queue, s.decrements ++ []⟩ := by
  have hclients : queue.waitingClients = s.queue.waitingClients := hcounters false
  have hpriority : queue.waitingPriorityClients = s.queue.waitingPriorityClients := hcounters true
  rw [append_nil]
  refine ⟨htidy, ?_, ?_, ?_, ?_, ?_, hclients ▸ hs.room⟩ <;> dsimp only [decrementsOf] <;>
    rw [hhandlers]
  exacts [hs.orderly, hs.decremented, hs.unknown, hclients.trans hs.clients,
    hpriority.trans hs.priorityClients]

theorem decrementsOf_append (s : AccountedQueue) (queue : RelayQueue) (id other : Nat)
    (calls : List Bool) :
    decrementsOf ⟨queue, s.decrements ++ calls.map (id, ·)⟩ other =
      s.decrementsOf other ++ if id = other then calls else [] := by
  by_cases hid : id = other <;> simp [decrementsOf, hid, filter_map, Function.comp_def]

section

variable (hs : s.Accounted config)

include hs

theorem counters (b : Bool) :
    waiting s.queue b = s.queue.handlers.count (fun _ h => h.counted b) := by
  cases b
  exacts [hs.clients, hs.priorityClients]

/-- A step that sets one handler, with its calls of `decrement_waiting_counter`. -/
theorem put (calls : List Bool) (hhandlers : queue.handlers = s.queue.handlers.put id h')
    (htidy : queue.Tidy) (horderly : h'.Orderly)
    (hdecremented : s.decrementsOf id ++ calls = h'.decremented)
    (hcounters : ∀ b,
      waiting queue b = (s.queue.handlers.put id h').count (fun _ h => h.counted b))
    (hroom : queue.waitingClients ≤ config.queue.maxSize) :
    Accounted config ⟨queue, s.decrements ++ calls.map (id, ·)⟩ := by
  rw [← hhandlers] at hcounters
  refine ⟨htidy, ?_, fun other found hfound => ?_, fun other hnone => ?_, hcounters false,
    hcounters true, hroom⟩
  · rw [hhandlers]
    exact hs.orderly.put horderly
  · rw [hhandlers] at hfound
    rw [decrementsOf_append]
    rcases Pool.put_eq_some hfound with ⟨rfl, rfl⟩ | ⟨hne, hold⟩
    · rw [if_pos rfl, hdecremented]
    · rw [if_neg (Ne.symm hne), append_nil, hs.decremented other found hold]
  · rw [hhandlers] at hnone
    have hne : other ≠ id := by
      intro heq
      rw [heq, Pool.put_self] at hnone
      cases hnone
    rw [Pool.put_ne _ _ hne] at hnone
    rw [decrementsOf_append, if_neg hne.symm, append_nil, hs.unknown other hnone]

section

variable (hlookup : s.queue.handlers.lookup id = some h)

include hlookup

theorem count_put (h' : ConnectHandler) (b : Bool) :
    (s.queue.handlers.put id h').count (fun _ h => h.counted b) + (h.counted b).toNat =
      waiting s.queue b + (h'.counted b).toNat := by
  rw [hs.counters]
  exact Pool.count_put hlookup

/-- A handler goes on without entering or leaving a counter. -/
theorem move (hhandlers : queue.handlers = s.queue.handlers.put id h') (htidy : queue.Tidy)
    (hsame : h.SameCount h') (horderly : h'.Orderly)
    (hcounters : ∀ b, waiting queue b = waiting s.queue b) :
    Accounted config ⟨queue, s.decrements ++ []⟩ := by
  refine hs.put [] hhandlers htidy horderly ?_ (fun b => ?_) ((hcounters false).le.trans hs.room)
  · rw [append_nil, hs.decremented id h hlookup, hsame.decremented]
  · have hput := hs.count_put hlookup h' b
    rw [hsame.counted b] at hput
    rw [hcounters, Nat.add_right_cancel hput]

theorem enter (hphase : h.phase = .full)
    (hhandlers : queue.handlers =
      s.queue.handlers.put id { h with queued := true, phase := .polling }) (htidy : queue.Tidy)
    (hcounters : ∀ b, waiting queue b = waiting s.queue b + (h.token.isSome == b).toNat)
    (hroom : queue.waitingClients ≤ config.queue.maxSize) :
    Accounted config ⟨queue, s.decrements ++ []⟩ := by
  have hqueued : h.queued = false := (hs.orderly id h hlookup).full hphase
  refine hs.put [] hhandlers htidy ⟨by simp, by simp⟩ ?_ (fun b => ?_) hroom
  · rw [hs.decremented id h hlookup]
    simp [ConnectHandler.decremented, isDone, hqueued]
  · have hput := hs.count_put hlookup { h with queued := true, phase := .polling } b
    rw [counted_of_not_queued hqueued] at hput
    rw [hcounters]
    simpa [ConnectHandler.counted, isDone] using hput.symm

/-- The counter of a handler that leaves is not zero. -/
theorem pos_of_leaving {result : AllocationResult} (hphase : h.phase = .leaving result) :
    0 < if h.token.isSome then s.queue.waitingPriorityClients else s.queue.waitingClients := by
  have hcounted : h.counted h.token.isSome = true := by
    rw [counted_of_leaving (hs.orderly id h hlookup) hphase]
    exact beq_self_eq_true _
  have hpos : 0 < s.queue.handlers.count (fun _ other => other.counted h.token.isSome) :=
    Pool.count_pos hlookup hcounted
  rwa [← hs.counters] at hpos

theorem leave {result : AllocationResult} (hphase : h.phase = .leaving result)
    (hhandlers : queue.handlers = s.queue.handlers.put id (h.goTo (.done result)))
    (htidy : queue.Tidy)
    (hcounters : ∀ b, waiting queue b = waiting s.queue b - (h.token.isSome == b).toNat) :
    Accounted config ⟨queue, s.decrements ++ [(id, h.token.isSome)]⟩ := by
  have hqueued : h.queued = true := (hs.orderly id h hlookup).leaving result hphase
  refine hs.put [h.token.isSome] hhandlers htidy ⟨by simp [goTo], by simp [goTo]⟩ ?_ (fun b => ?_)
    ((hcounters false).le.trans ((Nat.sub_le _ _).trans hs.room))
  · rw [hs.decremented id h hlookup]
    simp [ConnectHandler.decremented, isDone, goTo, hphase, hqueued]
  · have hput := hs.count_put hlookup (h.goTo (.done result)) b
    have hdone : (h.goTo (.done result)).counted b = false := by
      simp [ConnectHandler.counted, isDone, goTo]
    rw [counted_of_leaving (hs.orderly id h hlookup) hphase, hdone, Bool.toNat_false] at hput
    rw [hcounters]
    omega

end

/-- `notify_one` moves at most one parked handler. -/
theorem notifyOne (released : Nat) :
    Accounted config ⟨{ s.queue.notifyOne with releasing := released }, s.decrements ++ []⟩ := by
  have htidy := hs.tidy.notifyOne
  have hreleased : ({ s.queue.notifyOne with releasing := released } : RelayQueue).Tidy :=
    ⟨htidy.parked, htidy.listed, htidy.nodup, htidy.queued, htidy.permit⟩
  cases hwaiters : s.queue.waiters with
  | nil =>
    apply hs.frame hreleased <;> simp [RelayQueue.notifyOne, hwaiters, waiting]
  | cons id rest =>
    obtain ⟨h, hlookup, hparked⟩ := hs.tidy.parked id (by simp [hwaiters])
    have hhandlers : s.queue.notifyOne.handlers = s.queue.handlers.put id (h.goTo .trying) := by
      simp only [RelayQueue.notifyOne, hwaiters, hlookup]
    refine hs.move hlookup hhandlers hreleased (sameCount_goTo (by simp [isDone, hparked]) rfl)
      ⟨by simp [goTo], by simp [goTo]⟩ ?_
    simp [RelayQueue.notifyOne, hwaiters, waiting]

theorem connect {token : Option Text} {clientAddr : SocketAddr} {fixedPort : Option Port}
    (hnew : s.queue.handlers.lookup id = none)
    (hhandlers : queue.handlers =
      s.queue.handlers.put id ⟨token, clientAddr, fixedPort, false, .trying⟩) (htidy : queue.Tidy)
    (hcounters : ∀ b, waiting queue b = waiting s.queue b) :
    Accounted config ⟨queue, s.decrements ++ []⟩ := by
  refine hs.put [] hhandlers htidy ⟨by simp, by simp⟩ ?_ (fun b => ?_)
    ((hcounters false).le.trans hs.room)
  · rw [hs.unknown id hnew]
    rfl
  · rw [hcounters, hs.counters, Pool.count_put_new hnew]
    rfl

/-- Every step keeps the accounts. -/
theorem change {action : QueueAction} (hchange : RelayQueue.Change config s.queue action queue) :
    Accounted config ⟨queue, s.decrements ++ decrement s.queue action⟩ := by
  have htidy := hs.tidy.change hchange
  cases hchange with
  | connected hnew =>
    exact hs.connect hnew rfl htidy (fun _ => rfl)
  | allocated hlookup hphase | refused hlookup hphase =>
    exact hs.move hlookup rfl htidy (sameCount_returns hphase _) (orderly_returns _ _)
      (fun _ => rfl)
  | @full _ _ h hlookup hphase =>
    refine hs.move hlookup rfl htidy (sameCount_goTo ?_ ?_) ⟨?_, ?_⟩ (fun _ => rfl)
    · simp [isDone, hphase]
    · cases hqueued : h.queued <;> rfl
    · cases hqueued : h.queued <;> simp [goTo, hqueued]
    · cases hqueued : h.queued <;> simp [goTo]
  | turnedAway hlookup hphase =>
    exact hs.move hlookup rfl htidy
      (sameCount_of_not_queued ((hs.orderly _ _ hlookup).full hphase))
      ⟨by simp [goTo], by simp [goTo]⟩ (fun _ => rfl)
  | queuedPriority hlookup hphase htoken =>
    exact hs.enter hlookup hphase rfl htidy (by simp [waiting, htoken]) hs.room
  | queued hlookup hphase htoken hroom =>
    exact hs.enter hlookup hphase rfl htidy (by simp [waiting, htoken]) hroom
  | permitted hlookup hphase | parked hlookup hphase =>
    exact hs.move hlookup rfl htidy
      (sameCount_goTo (by simp [isDone, hphase]) rfl)
      ⟨by simp [goTo], by simp [goTo]⟩ (fun _ => rfl)
  | @left _ h _ hlookup hphase =>
    rw [decrement, hlookup]
    refine hs.leave hlookup hphase rfl htidy (fun b => ?_)
    cases b <;> cases h.token.isSome <;> rfl
  | notAllocated | released _ => exact hs.frame htidy rfl (fun _ => rfl)
  | notified _ => exact hs.notifyOne _
  | cleanedUp =>
    rw [← s.queue.notifyOne_releasing]
    exact hs.notifyOne _

theorem step {t : AccountedQueue} {action : QueueAction}
    (hstep : AccountedQueue.step config s action = some t) : t.Accounted config := by
  obtain ⟨queue, hqueue, rfl⟩ := Option.map_eq_some_iff.mp hstep
  exact hs.change (RelayQueue.change_of_step hqueue)

theorem counted_eq (hlookup : s.queue.handlers.lookup id = some h) (isPriorityClient : Bool) :
    h.counted isPriorityClient =
      (h.queued && h.token.isSome == isPriorityClient && (s.decrementsOf id).isEmpty) := by
  rw [hs.decremented id h hlookup, ConnectHandler.counted, ConnectHandler.decremented]
  cases h.queued <;> cases h.isDone <;> simp

end

end Accounted

end AccountedQueue

/-- **The waiting counters are exact.**  In every state of every run, each counter is
the number of its handlers that were queued and have not decremented; a handler has
decremented its own counter once if it was queued and has returned, and otherwise has
not decremented; both counters are 0 when every handler has returned; the counter of
anonymous clients stays within the size of the queue; and the counter of a handler that
is about to decrement is not 0. -/
theorem waiting_counters_exact (config : SharedServiceConfig) {s : AccountedQueue}
    (hreach : Reaches (AccountedQueue.step config) Always {} s) :
    s.queue.waitingClients = s.queue.handlers.count (fun id h =>
      h.queued && h.token.isSome == false && (s.decrementsOf id).isEmpty) ∧
    s.queue.waitingPriorityClients = s.queue.handlers.count (fun id h =>
      h.queued && h.token.isSome == true && (s.decrementsOf id).isEmpty) ∧
    (∀ id h, s.queue.handlers.lookup id = some h →
      s.decrementsOf id = if h.queued && h.isDone then [h.token.isSome] else []) ∧
    (s.queue.handlers.All (fun h => h.isDone = true) →
      s.queue.waitingClients = 0 ∧ s.queue.waitingPriorityClients = 0) ∧
    s.queue.waitingClients ≤ config.queue.maxSize ∧
    ∀ id h result, s.queue.handlers.lookup id = some h → h.phase = .leaving result →
      0 < if h.token.isSome then s.queue.waitingPriorityClients else s.queue.waitingClients := by
  have hs : s.Accounted config :=
    hreach.invariant AccountedQueue.accounted_start (fun _ _ _ hs _ hstep => hs.step hstep)
  refine ⟨?_, ?_, hs.decremented, fun hdone => ?_, hs.room,
    fun id h result hlookup hphase => hs.pos_of_leaving hlookup hphase⟩
  · rw [hs.clients]
    exact Pool.count_congr (fun _ _ hlookup => hs.counted_eq hlookup false)
  · rw [hs.priorityClients]
    exact Pool.count_congr (fun _ _ hlookup => hs.counted_eq hlookup true)
  · have hnone : ∀ b, s.queue.handlers.count (fun _ h => h.counted b) = 0 := by
      intro b
      refine Pool.count_eq_zero (fun id h hlookup => ?_)
      simp [ConnectHandler.counted, hdone id h hlookup]
    rw [hs.clients, hs.priorityClients]
    exact ⟨hnone false, hnone true⟩

/-- Two clients wait, one of them with a token, and the other one is served. -/
theorem waiting_counters_exact_served :
    (run (AccountedQueue.step twoPorts) {} (portsTaken ++ anonymousWaits ++ fixedPortWaits ++
      [.release 40001, .releaseNotify, .tryAllocate 3 0, .leave 3])).map (fun s =>
        (s.queue.waitingClients, s.queue.waitingPriorityClients, s.decrements)) =
      some (0, 1, [(3, false)]) ∧
    ∀ s, run (AccountedQueue.step twoPorts) {} (portsTaken ++ anonymousWaits ++ fixedPortWaits ++
      [.release 40001, .releaseNotify, .tryAllocate 3 0, .leave 3]) = some s →
        s.queue.waitingClients ≤ twoPorts.queue.maxSize := by
  refine ⟨by decide +kernel, fun s hrun => ?_⟩
  exact (waiting_counters_exact twoPorts (reaches_of_run hrun)).2.2.2.2.1

end FerrumProxy
