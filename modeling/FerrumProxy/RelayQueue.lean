import FerrumProxy.GuardedRuns
import FerrumProxy.RelayPorts

/-!
# The waiting queue of the shared relay

A `CONNECT` handler that finds no port waits for `allocation_notify` and tries again when it is
woken.  A `RELEASE` removes an allocation and then calls `notify_one`, which wakes the handler that
has been parked longest or, when none is parked, stores a permit for the next one to park; there is
at most one permit.  One lock acquisition or one call of the notifier is one step.
-/

namespace FerrumProxy

open Str Runs

/-- The points of `allocate_or_wait_for_port` before its next step. -/
inductive ConnectPhase where
  | trying
  /-- The first try found no port; the handler is not yet queued. -/
  | full
  /-- Queued, and about to wait for the notifier. -/
  | polling
  | parked
  /-- The result is known, the waiting counter not yet decremented. -/
  | leaving (result : AllocationResult)
  | done (result : AllocationResult)
  deriving DecidableEq

/-- A `CONNECT` handler. -/
structure ConnectHandler where
  token : Option Text
  clientAddr : SocketAddr
  fixedPort : Option Port
  queued : Bool := false
  phase : ConnectPhase := .trying

/-- The allocations and everybody who waits for one. -/
structure RelayQueue where
  portAllocations : PortAllocations := ∅
  handlers : Pool ConnectHandler := ∅
  /-- The handlers parked in `allocation_notify`, the longest-parked first. -/
  waiters : List Nat := []
  permit : Bool := false
  waitingClients : Nat := 0
  waitingPriorityClients : Nat := 0
  /-- The `RELEASE` handlers between the removal and `notify_one`. -/
  releasing : Nat := 0

/-- The steps of the handlers. -/
inductive QueueAction where
  | connect (id : Nat) (token : Option Text) (clientAddr : SocketAddr) (fixedPort : Option Port)
  | tryAllocate (id mixed : Nat)
  | enqueue (id : Nat)
  | poll (id : Nat)
  | leave (id : Nat)
  | release (port : Port)
  | releaseNotify
  /-- `notify_one` of a UDP relay task that found its port released. -/
  | cleanUpNotify

namespace ConnectHandler

/-- The handler has its result: a queued one still has to decrement. -/
def returns (h : ConnectHandler) (result : AllocationResult) : ConnectHandler :=
  { h with phase := if h.queued then .leaving result else .done result }

def goTo (h : ConnectHandler) (phase : ConnectPhase) : ConnectHandler := { h with phase := phase }

end ConnectHandler

namespace RelayQueue

/-- `Notify::notify_one`. -/
def notifyOne (s : RelayQueue) : RelayQueue :=
  match s.waiters with
  | [] => { s with permit := true }
  | id :: rest =>
    { s with
      waiters := rest
      handlers := match s.handlers.lookup id with
        | some handler => s.handlers.put id (handler.goTo .trying)
        | none => s.handlers }

/-- `decrement_waiting_counter`. -/
def decrementWaitingCounter (s : RelayQueue) (isPriorityClient : Bool) : RelayQueue :=
  if isPriorityClient then { s with waitingPriorityClients := s.waitingPriorityClients - 1 }
  else { s with waitingClients := s.waitingClients - 1 }

/-- One step of one handler, or of a release. -/
def step (config : SharedServiceConfig) (s : RelayQueue) : QueueAction → Option RelayQueue
  | .connect id token clientAddr fixedPort =>
    if (s.handlers.lookup id).isSome then none
    else some { s with handlers := s.handlers.put id ⟨token, clientAddr, fixedPort, false, .trying⟩ }
  | .tryAllocate id mixed =>
    match s.handlers.lookup id with
    | none => none
    | some h =>
      if h.phase ≠ .trying then none
      else
        match tryAllocatePort config.portRange mixed s.portAllocations h.token h.clientAddr
            h.fixedPort with
        | (.allocated port, portAllocations) =>
          some { s with
            portAllocations := portAllocations
            handlers := s.handlers.put id (h.returns (.allocated port)) }
        | (.tokenInUse, _) =>
          some { s with handlers := s.handlers.put id (h.returns .tokenInUse) }
        | (.full, _) =>
          some { s with
            handlers := s.handlers.put id (h.goTo (if h.queued then .polling else .full)) }
  | .enqueue id =>
    match s.handlers.lookup id with
    | none => none
    | some h =>
      if h.phase ≠ .full then none
      else if !config.queue.enabled then
        some { s with handlers := s.handlers.put id (h.goTo (.done .full)) }
      else if h.token.isSome then
        some { s with
          waitingPriorityClients := s.waitingPriorityClients + 1
          handlers := s.handlers.put id { h with queued := true, phase := .polling } }
      else if config.queue.maxSize ≤ s.waitingClients then
        some { s with handlers := s.handlers.put id (h.goTo (.done .full)) }
      else
        some { s with
          waitingClients := s.waitingClients + 1
          handlers := s.handlers.put id { h with queued := true, phase := .polling } }
  | .poll id =>
    match s.handlers.lookup id with
    | none => none
    | some h =>
      if h.phase ≠ .polling then none
      else if s.permit then
        some { s with permit := false, handlers := s.handlers.put id (h.goTo .trying) }
      else
        some { s with
          waiters := s.waiters ++ [id]
          handlers := s.handlers.put id (h.goTo .parked) }
  | .leave id =>
    match s.handlers.lookup id with
    | none => none
    | some h =>
      match h.phase with
      | .leaving result =>
        let left := s.decrementWaitingCounter h.token.isSome
        some { left with handlers := s.handlers.put id (h.goTo (.done result)) }
      | _ => none
  | .release port =>
    if (s.portAllocations.lookup port).isNone then some s
    else
      some { s with
        portAllocations := s.portAllocations.erase port
        releasing := s.releasing + 1 }
  | .releaseNotify =>
    if s.releasing = 0 then none
    else some { s.notifyOne with releasing := s.releasing - 1 }
  | .cleanUpNotify => some s.notifyOne

end RelayQueue

/-! ## What a step does -/

/-- **Everything a step can do.** -/
inductive RelayQueue.Change (config : SharedServiceConfig) (s : RelayQueue) :
    QueueAction → RelayQueue → Prop
  | connected {id : Nat} {token : Option Text} {clientAddr : SocketAddr} {fixedPort : Option Port}
      (hnew : s.handlers.lookup id = none) :
      Change config s (.connect id token clientAddr fixedPort)
        { s with handlers := s.handlers.put id ⟨token, clientAddr, fixedPort, false, .trying⟩ }
  | allocated {id mixed : Nat} {h : ConnectHandler} {p : Port}
      (hlookup : s.handlers.lookup id = some h) (hphase : h.phase = .trying)
      (hheld : tokenHeld s.portAllocations h.token = false)
      (hwants : WantsPort config.portRange h.fixedPort p)
      (hfree : s.portAllocations.lookup p = none) :
      Change config s (.tryAllocate id mixed)
        { s with
          portAllocations := s.portAllocations.insert p ⟨p, h.token, h.clientAddr⟩
          handlers := s.handlers.put id (h.returns (.allocated p)) }
  | refused {id mixed : Nat} {h : ConnectHandler}
      (hlookup : s.handlers.lookup id = some h) (hphase : h.phase = .trying)
      (hheld : tokenHeld s.portAllocations h.token = true) :
      Change config s (.tryAllocate id mixed)
        { s with handlers := s.handlers.put id (h.returns .tokenInUse) }
  | full {id mixed : Nat} {h : ConnectHandler}
      (hlookup : s.handlers.lookup id = some h) (hphase : h.phase = .trying)
      (htaken : ∀ p, WantsPort config.portRange h.fixedPort p → s.portAllocations.lookup p ≠ none) :
      Change config s (.tryAllocate id mixed)
        { s with handlers := s.handlers.put id (h.goTo (if h.queued then .polling else .full)) }
  /-- There is no queue, or no place in it. -/
  | turnedAway {id : Nat} {h : ConnectHandler}
      (hlookup : s.handlers.lookup id = some h) (hphase : h.phase = .full) :
      Change config s (.enqueue id) { s with handlers := s.handlers.put id (h.goTo (.done .full)) }
  | queuedPriority {id : Nat} {h : ConnectHandler}
      (hlookup : s.handlers.lookup id = some h) (hphase : h.phase = .full)
      (htoken : h.token.isSome = true) :
      Change config s (.enqueue id)
        { s with
          waitingPriorityClients := s.waitingPriorityClients + 1
          handlers := s.handlers.put id { h with queued := true, phase := .polling } }
  | queued {id : Nat} {h : ConnectHandler}
      (hlookup : s.handlers.lookup id = some h) (hphase : h.phase = .full)
      (htoken : h.token.isSome = false) (hroom : s.waitingClients < config.queue.maxSize) :
      Change config s (.enqueue id)
        { s with
          waitingClients := s.waitingClients + 1
          handlers := s.handlers.put id { h with queued := true, phase := .polling } }
  | permitted {id : Nat} {h : ConnectHandler}
      (hlookup : s.handlers.lookup id = some h) (hphase : h.phase = .polling)
      (hpermit : s.permit = true) :
      Change config s (.poll id)
        { s with permit := false, handlers := s.handlers.put id (h.goTo .trying) }
  | parked {id : Nat} {h : ConnectHandler}
      (hlookup : s.handlers.lookup id = some h) (hphase : h.phase = .polling)
      (hpermit : s.permit = false) :
      Change config s (.poll id)
        { s with
          waiters := s.waiters ++ [id]
          handlers := s.handlers.put id (h.goTo .parked) }
  | left {id : Nat} {h : ConnectHandler} {result : AllocationResult}
      (hlookup : s.handlers.lookup id = some h) (hphase : h.phase = .leaving result) :
      Change config s (.leave id)
        { s.decrementWaitingCounter h.token.isSome with
          handlers := s.handlers.put id (h.goTo (.done result)) }
  | notAllocated {port : Port} : Change config s (.release port) s
  | released {port : Port} {allocation : PortAllocation}
      (hallocation : s.portAllocations.lookup port = some allocation) :
      Change config s (.release port)
        { s with
          portAllocations := s.portAllocations.erase port
          releasing := s.releasing + 1 }
  | notified (hreleasing : s.releasing ≠ 0) :
      Change config s .releaseNotify { s.notifyOne with releasing := s.releasing - 1 }
  | cleanedUp : Change config s .cleanUpNotify s.notifyOne

namespace RelayQueue

variable {config : SharedServiceConfig} {s t : RelayQueue}

theorem change_of_tryAllocate {id mixed : Nat}
    (hstep : s.step config (.tryAllocate id mixed) = some t) :
    Change config s (.tryAllocate id mixed) t := by
  dsimp only [step] at hstep
  split at hstep
  · cases hstep
  · next h hlookup =>
    obtain ⟨hphase, hstep⟩ := Option.ite_none_left_eq_some.mp hstep
    rw [not_not] at hphase
    rcases tryAllocatePort_cases config.portRange mixed s.portAllocations h.token h.clientAddr
        h.fixedPort with ⟨p, hresult, hfree, hwants, hheld⟩ | ⟨hresult, hheld⟩ | ⟨hresult, htaken⟩
    all_goals
      rw [hresult] at hstep
      cases hstep
    · exact .allocated hlookup hphase hheld hwants hfree
    · exact .refused hlookup hphase hheld
    · exact .full hlookup hphase htaken

theorem change_of_step {action : QueueAction} (hstep : s.step config action = some t) :
    Change config s action t := by
  cases action with
  | tryAllocate id mixed => exact change_of_tryAllocate hstep
  | enqueue id =>
    dsimp only [step] at hstep
    (repeat' split at hstep) <;> cases hstep
    · next hlookup hphase _ => exact .turnedAway hlookup (not_not.mp hphase)
    · next hlookup hphase _ htoken => exact .queuedPriority hlookup (not_not.mp hphase) htoken
    · next hlookup hphase _ _ _ => exact .turnedAway hlookup (not_not.mp hphase)
    · next hlookup hphase _ htoken hroom =>
      exact .queued hlookup (not_not.mp hphase) (Bool.not_eq_true _ ▸ htoken)
        (Nat.lt_of_not_le hroom)
  | connect id token clientAddr fixedPort =>
    dsimp only [step] at hstep
    split at hstep <;> cases hstep
    next hnew => exact .connected (by simpa using hnew)
  | poll id =>
    dsimp only [step] at hstep
    (repeat' split at hstep) <;> cases hstep
    · next hlookup hphase hpermit => exact .permitted hlookup (not_not.mp hphase) hpermit
    · next hlookup hphase hpermit =>
      exact .parked hlookup (not_not.mp hphase) (Bool.not_eq_true _ ▸ hpermit)
  | leave id =>
    dsimp only [step] at hstep
    (repeat' split at hstep) <;> cases hstep
    next hlookup _ _ hphase => exact .left hlookup hphase
  | release port =>
    dsimp only [step] at hstep
    split at hstep <;> cases hstep
    · exact .notAllocated
    · next hallocation =>
      obtain ⟨allocation, hlookup⟩ := Option.ne_none_iff_exists'.mp
        (fun hnone => hallocation (Option.isNone_iff_eq_none.mpr hnone))
      exact .released hlookup
  | releaseNotify =>
    obtain ⟨hreleasing, hstep⟩ := Option.ite_none_left_eq_some.mp hstep
    cases hstep
    exact .notified hreleasing
  | cleanUpNotify =>
    cases hstep
    exact .cleanedUp

end RelayQueue

/-! ## Lost wake-ups -/

namespace ConnectHandler

/-- The handler was woken and is about to try again. -/
def woken (h : ConnectHandler) : Bool := h.queued && h.phase == .trying

/-- The handler has failed a try and has not been woken since. -/
def idle (h : ConnectHandler) : Bool :=
  h.phase == .full || h.phase == .polling || h.phase == .parked

/-- The handler has failed a try and is not yet parked. -/
def betweenTryAndPark (h : ConnectHandler) : Bool := h.phase == .full || h.phase == .polling

/-- A queued handler that still waits for a port is parked. -/
def restsParked (h : ConnectHandler) : Bool :=
  match h.phase with
  | .parked => true
  | .leaving _ => true
  | .done _ => true
  | _ => !h.queued

/-- The handler's call of `try_allocate_port` would succeed. -/
def Succeeds (range : SharedServicePortRange) (portAllocations : PortAllocations)
    (h : ConnectHandler) : Prop :=
  ∃ mixed p after,
    tryAllocatePort range mixed portAllocations h.token h.clientAddr h.fixedPort =
      (.allocated p, after)

end ConnectHandler

/-- All queued handlers are parked, no permit is stored and no release has
still to notify, and yet a parked handler would get a port. -/
def RelayQueue.LostWakeup (range : SharedServicePortRange) (s : RelayQueue) : Prop :=
  s.handlers.All (fun h => h.restsParked = true) ∧ s.permit = false ∧ s.releasing = 0 ∧
    ∃ id h, s.handlers.lookup id = some h ∧ h.phase = .parked ∧ h.Succeeds range s.portAllocations

/-- Wake-ups are not wasted: a woken handler whose try fails leaves no port
that an idle handler could have; a release that finds a permit stored finds at
most one handler between its try and the parking; and a release does not free
the token of a handler that waits. -/
def RelayQueue.WakeupsUsed (range : SharedServicePortRange) (s : RelayQueue) : QueueAction → Prop
  | .tryAllocate id _ =>
    ∀ h, s.handlers.lookup id = some h → h.woken = true →
      h.Succeeds range s.portAllocations ∨
        s.handlers.All (fun other => other.idle = true → ¬ other.Succeeds range s.portAllocations)
  | .releaseNotify =>
    s.permit = true → ∀ id h id' h', s.handlers.lookup id = some h →
      s.handlers.lookup id' = some h' → h.betweenTryAndPark = true →
      h'.betweenTryAndPark = true → id = id'
  | .release port =>
    ∀ allocation, s.portAllocations.lookup port = some allocation →
      s.handlers.All (fun h => h.idle = true ∨ h.woken = true → h.token ≠ none →
        h.token ≠ allocation.token)
  | _ => True

/-! ## A wake-up for the wrong handler -/

/-- A relay with two public ports. -/
def twoPorts : SharedServiceConfig where
  portRange := { start := 40000, finish := 40001 }

/-- Two clients take both ports. -/
def portsTaken : List QueueAction :=
  [.connect 0 none tenantAddr none, .tryAllocate 0 0, .connect 1 none tenantAddr none,
    .tryAllocate 1 0]

/-- A client whose token has the fixed port 40000 waits. -/
def fixedPortWaits : List QueueAction :=
  [.connect 2 (some "tenant".toList) tenantAddr (some 40000), .tryAllocate 2 0, .enqueue 2, .poll 2]

/-- An anonymous client waits. -/
def anonymousWaits : List QueueAction :=
  [.connect 3 none tenantAddr none, .tryAllocate 3 0, .enqueue 3, .poll 3]

/-- **A lost wake-up.**  Port 40001 is released, which wakes the client with
the fixed port 40000; it parks again, and the anonymous client, who could have
40001, is not woken. -/
theorem wakeup_lost :
    ¬ ∀ s, Reaches (RelayQueue.step twoPorts) Always {} s → ¬ s.LostWakeup twoPorts.portRange := by
  intro hnever
  have hrun : run (RelayQueue.step twoPorts) {} (portsTaken ++ fixedPortWaits ++ anonymousWaits ++
      [.release 40001, .releaseNotify, .tryAllocate 2 0, .poll 2]) = some _ := rfl
  apply hnever _ (reaches_of_run hrun)
  refine ⟨Pool.all_of_entries (by decide +kernel), rfl, rfl, 3, _, rfl, rfl, ?_⟩
  exact ⟨0, 40001, _, rfl⟩

end FerrumProxy
