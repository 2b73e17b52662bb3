import FerrumProxy.GuardedRuns

/-!
# Sessions of the desktop client

`start_sharing` stores a new session in the client state and spawns a worker thread for it.  The
worker asks the relay for a port, publishes the endpoint, starts the tunnel threads and watches the
allocation.  `stop_sharing` sets the session's stop flag, looks at what the worker has published,
gives the port back if a running session has published one, and forgets the session.  It holds the
lock of the client state all the while, but the worker only takes the lock of its own session.

One step goes from one access to shared data to the next.  A `RELEASE` that reaches the relay takes
effect at once; a `CONNECT` may wait there in the queue.
-/

namespace FerrumProxy

open Runs Option

/-- The published status. -/
inductive ShareSessionStatus where
  | waiting
  | running
  | failed
  deriving DecidableEq

/-- The relay's answer to `CONNECT`. -/
inductive ConnectReply where
  | granted (port : Nat)
  | refused
  deriving DecidableEq

/-- How far the session's `CONNECT` has come. -/
inductive ConnectState where
  | unsent
  | queued
  | answered (reply : ConnectReply)
  deriving DecidableEq

/-- Where the worker thread is. -/
inductive SessionWorker where
  | unborn
  | connecting
  /-- At the head of the loop of `wait_for_connect_response`. -/
  | waiting
  | reading
  | received (reply : ConnectReply)
  | publishing (port : Nat)
  | starting (port : Nat)
  /-- At the head of the loop of `monitor_relay_allocation`. -/
  | monitoring (port missed : Nat)
  | polling (port missed : Nat)
  /-- `run_share_session` has returned an error. -/
  | failing
  | finished
  deriving DecidableEq

/-- A session with its stop flag, the published part, its worker and its tunnel threads. -/
structure DesktopSession where
  tcpEnabled : Bool := false
  udpEnabled : Bool := false
  stop : Bool := false
  status : ShareSessionStatus := .waiting
  endpoint : Option Nat := none
  worker : SessionWorker := .unborn
  connect : ConnectState := .unsent
  /-- How many tunnel threads were started; they run until the stop flag is set. -/
  tunnels : Nat := 0
  deriving DecidableEq

/-- How a read of the answer ends. -/
inductive ReadOutcome where
  | response
  | timeout
  | lost
  deriving DecidableEq

/-- What the relay says to `LIST`. -/
inductive PollOutcome where
  | listed
  | missing
  | error
  deriving DecidableEq

/-- What lets a worker go on. -/
inductive WorkerEvent where
  /-- The worker goes on by itself. -/
  | go
  | connected (ok : Bool)
  | read (outcome : ReadOutcome)
  | poll (outcome : PollOutcome)
  deriving DecidableEq

open DesktopSession

namespace DesktopSession

/-- `start_tcp_tunnel_pool` and `start_udp_tunnel`. -/
def tunnelThreads (r : DesktopSession) : Nat :=
  (if r.tcpEnabled then 8 else 0) + (if r.udpEnabled then 1 else 0)

/-- A missed check of `monitor_relay_allocation`; it gives up after a number of them. -/
def miss (r : DesktopSession) (port missed limit : Nat) : DesktopSession :=
  if limit ≤ missed + 1 then { r with status := .failed, worker := .failing }
  else { r with worker := .monitoring port (missed + 1) }

/-- A step of the worker thread: `run_share_session`, and the error branch behind it. -/
def work (r : DesktopSession) : WorkerEvent → Option DesktopSession
  | .go =>
    match r.worker with
    | .waiting => some { r with worker := if r.stop then .failing else .reading }
    | .received reply =>
      some { r with
        worker := if r.stop then .failing else
          match reply with
          | .granted port => .publishing port
          | .refused => .failing }
    | .publishing port =>
      some { r with status := .running, endpoint := some port, worker := .starting port }
    | .starting port =>
      some { r with tunnels := r.tunnelThreads, worker := .monitoring port 0 }
    | .monitoring port missed =>
      some { r with worker := if r.stop then .finished else .polling port missed }
    | .failing => some { r with status := .failed, worker := .finished }
    | _ => none
  | .connected ok =>
    match r.worker with
    | .connecting =>
      some (if ok then { r with worker := .waiting, connect := .queued }
        else { r with worker := .failing })
    | _ => none
  | .read outcome =>
    match r.worker with
    | .reading =>
      match outcome with
      | .response =>
        match r.connect with
        | .answered reply => some { r with worker := .received reply }
        | _ => none
      | .timeout => some { r with worker := .waiting }
      | .lost => some { r with worker := .failing }
    | _ => none
  | .poll outcome =>
    match r.worker with
    | .polling port missed =>
      match outcome with
      | .listed => some { r with worker := .monitoring port 0 }
      | .missing => some (r.miss port missed 2)
      | .error => some (r.miss port missed 3)
    | _ => none

/-- What the parts of a session say about each other. -/
def Fits (r : DesktopSession) : Prop :=
  match r.worker with
  | .unborn | .connecting => r.connect = .unsent ∧ r.status = .waiting ∧ r.tunnels = 0
  | .waiting | .reading => r.connect ≠ .unsent ∧ r.status = .waiting ∧ r.tunnels = 0
  | .received reply => r.connect = .answered reply ∧ r.status = .waiting ∧ r.tunnels = 0
  | .publishing port =>
    r.connect = .answered (.granted port) ∧ r.status = .waiting ∧ r.tunnels = 0
  | .starting port | .monitoring port _ | .polling port _ =>
    r.connect = .answered (.granted port) ∧ r.status = .running ∧ r.endpoint = some port
  | .failing => r.status ≠ .running
  | .finished => r.status = .failed ∨ r.status = .running ∧
      ∃ port, r.connect = .answered (.granted port) ∧ r.endpoint = some port

/-- The worker is going to test the stop flag before it publishes an endpoint. -/
def unchecked (r : DesktopSession) : Bool :=
  match r.worker with
  | .waiting | .reading | .received _ => true
  | _ => false

/-- The session's port is published, or is going to be. -/
def promising (r : DesktopSession) : Bool :=
  if r.unchecked then !r.stop
  else
    match r.worker with
    | .publishing _ => true
    | _ => r.status = .running

/-- The worker loses the answer or gives up watching. -/
def givesUp (r : DesktopSession) : WorkerEvent → Bool
  | .read .lost => true
  | .poll .error =>
    match r.worker with
    | .polling _ missed => 3 ≤ missed + 1
    | _ => false
  | _ => false

variable {r next : DesktopSession} {event : WorkerEvent} {port : Nat}

/-! ### What the parts of a session tell -/

theorem unsent_of_unborn (h : r.Fits) (hworker : r.worker = .unborn) : r.connect = .unsent := by
  rw [Fits, hworker] at h
  exact h.1

/-- A running session shows the port that it was granted. -/
theorem published_of_running (h : r.Fits) (hstatus : r.status = .running) :
    ∃ port, r.connect = .answered (.granted port) ∧ r.endpoint = some port := by
  cases hworker : r.worker <;> rw [Fits, hworker] at h
  case starting port | monitoring port _ | polling port _ => exact ⟨port, h.1, h.2.2⟩
  case failing => exact absurd hstatus h
  case finished =>
    rcases h with hfailed | ⟨_, hport⟩
    · cases hfailed.symm.trans hstatus
    · exact hport
  all_goals cases h.2.1.symm.trans hstatus

theorem connect_of_running (h : r.Fits) (hstatus : r.status = .running)
    (hend : r.endpoint = some port) : r.connect = .answered (.granted port) := by
  obtain ⟨published, hconnect, hpublished⟩ := published_of_running h hstatus
  rw [hend] at hpublished
  cases hpublished
  exact hconnect

/-- A session that does not wait promises a port if it runs. -/
theorem promising_of_status (h : r.Fits) (hstatus : r.status ≠ .waiting) :
    r.promising = decide (r.status = .running) := by
  cases hworker : r.worker with
  | waiting | reading | received _ | publishing _ =>
    rw [Fits, hworker] at h
    exact absurd h.2.1 hstatus
  | unborn | connecting | starting _ | monitoring _ _ | polling _ _ | failing | finished =>
    simp [promising, unchecked, hworker]

/-- A session that is told to stop keeps its promise unless the worker looks at the flag first. -/
theorem promising_stop (r : DesktopSession) :
    promising { r with stop := true } = (r.promising && !r.unchecked) := by
  have hunchecked : unchecked { r with stop := true } = r.unchecked := rfl
  cases h : r.unchecked <;> simp [promising, hunchecked, h]

@[simp]
theorem promising_answered (r : DesktopSession) (state : ConnectState) :
    promising { r with connect := state } = r.promising := rfl

/-- Where the worker is while its `CONNECT` waits at the relay. -/
theorem queued_cases (h : r.Fits) (hqueued : r.connect = .queued) :
    (r.worker = .waiting ∨ r.worker = .reading) ∧ r.status = .waiting ∧ r.tunnels = 0 ∨
      r.worker = .failing ∧ r.status ≠ .running ∨ r.worker = .finished ∧ r.status = .failed := by
  cases hworker : r.worker <;> rw [Fits, hworker] at h
  case waiting => exact .inl ⟨.inl rfl, h.2⟩
  case reading => exact .inl ⟨.inr rfl, h.2⟩
  case failing => exact .inr (.inl ⟨rfl, h⟩)
  case finished =>
    rcases h with hfailed | ⟨_, port, hconnect, _⟩
    · exact .inr (.inr ⟨rfl, hfailed⟩)
    · cases hqueued.symm.trans hconnect
  all_goals cases hqueued.symm.trans h.1

/-- A session that waits for the answer and promises something was not told to stop. -/
theorem waiting_of_promising (h : r.Fits) (hqueued : r.connect = .queued)
    (hpromising : r.promising = true) :
    r.worker ≠ .unborn ∧ r.stop = false ∧ r.status = .waiting := by
  rcases queued_cases h hqueued with
    ⟨hworker | hworker, hstatus, _⟩ | ⟨hworker, hstatus⟩ | ⟨hworker, hstatus⟩
  all_goals simp_all [promising, unchecked]

theorem answered_fits (h : r.Fits) (hqueued : r.connect = .queued) (reply : ConnectReply) :
    Fits { r with connect := .answered reply } := by
  unfold Fits
  rcases queued_cases h hqueued with
    ⟨hworker | hworker, hstatus⟩ | ⟨hworker, hstatus⟩ | ⟨hworker, hstatus⟩
  all_goals simp [hworker, hstatus]

/-! ### Steps of the worker -/

/-- What a step of the worker can be. -/
inductive Worked (r : DesktopSession) : WorkerEvent → DesktopSession → Prop
  | halt (hworker : r.worker = .waiting) (hstop : r.stop = true) :
      Worked r .go { r with worker := .failing }
  | read (hworker : r.worker = .waiting) (hstop : r.stop = false) :
      Worked r .go { r with worker := .reading }
  | accept {port : Nat} (hworker : r.worker = .received (.granted port)) (hstop : r.stop = false) :
      Worked r .go { r with worker := .publishing port }
  | drop {reply : ConnectReply} (hworker : r.worker = .received reply) (hstop : r.stop = true) :
      Worked r .go { r with worker := .failing }
  | decline (hworker : r.worker = .received .refused) :
      Worked r .go { r with worker := .failing }
  | publish {port : Nat} (hworker : r.worker = .publishing port) :
      Worked r .go
        { r with status := .running, endpoint := some port, worker := .starting port }
  | startTunnels {port : Nat} (hworker : r.worker = .starting port) :
      Worked r .go { r with tunnels := r.tunnelThreads, worker := .monitoring port 0 }
  | finish {port missed : Nat} (hworker : r.worker = .monitoring port missed)
      (hstop : r.stop = true) : Worked r .go { r with worker := .finished }
  | check {port missed : Nat} (hworker : r.worker = .monitoring port missed)
      (hstop : r.stop = false) : Worked r .go { r with worker := .polling port missed }
  | fail (hworker : r.worker = .failing) :
      Worked r .go { r with status := .failed, worker := .finished }
  | connect (hworker : r.worker = .connecting) :
      Worked r (.connected true) { r with worker := .waiting, connect := .queued }
  | unconnected (hworker : r.worker = .connecting) :
      Worked r (.connected false) { r with worker := .failing }
  | receive {reply : ConnectReply} (hworker : r.worker = .reading)
      (hreply : r.connect = .answered reply) :
      Worked r (.read .response) { r with worker := .received reply }
  | timeout (hworker : r.worker = .reading) : Worked r (.read .timeout) { r with worker := .waiting }
  | lose (hworker : r.worker = .reading) : Worked r (.read .lost) { r with worker := .failing }
  | listed {port missed : Nat} (hworker : r.worker = .polling port missed) :
      Worked r (.poll .listed) { r with worker := .monitoring port 0 }
  | miss {port missed limit : Nat} {outcome : PollOutcome}
      (hworker : r.worker = .polling port missed) (hlimit : missed + 1 < limit)
      (houtcome : outcome = .missing ∧ limit = 2 ∨ outcome = .error ∧ limit = 3) :
      Worked r (.poll outcome) { r with worker := .monitoring port (missed + 1) }
  | giveUp {port missed limit : Nat} {outcome : PollOutcome}
      (hworker : r.worker = .polling port missed) (hlimit : limit ≤ missed + 1)
      (houtcome : outcome = .missing ∧ limit = 2 ∨ outcome = .error ∧ limit = 3) :
      Worked r (.poll outcome) { r with status := .failed, worker := .failing }

theorem worked_of_miss {missed limit : Nat} {outcome : PollOutcome}
    (hworker : r.worker = .polling port missed)
    (houtcome : outcome = .missing ∧ limit = 2 ∨ outcome = .error ∧ limit = 3) :
    r.Worked (.poll outcome) (r.miss port missed limit) := by
  unfold miss
  split
  · next hlimit => exact .giveUp hworker hlimit houtcome
  · next hlimit => exact .miss hworker (Nat.lt_of_not_le hlimit) houtcome

/-- The worker does one of these things. -/
theorem worked_of_work (hwork : r.work event = some next) : r.Worked event next := by
  cases event with
  | go =>
    rw [work] at hwork
    split at hwork <;> cases hwork
    · next hworker =>
      split
      · next hstop => exact .halt hworker hstop
      · next hstop => exact .read hworker ((Bool.not_eq_true _).mp hstop)
    · next reply hworker =>
      split
      · next hstop => exact .drop hworker hstop
      · next hstop =>
        cases reply with
        | granted port => exact .accept hworker ((Bool.not_eq_true _).mp hstop)
        | refused => exact .decline hworker
    · next hworker => exact .publish hworker
    · next hworker => exact .startTunnels hworker
    · next hworker =>
      split
      · next hstop => exact .finish hworker hstop
      · next hstop => exact .check hworker ((Bool.not_eq_true _).mp hstop)
    · next hworker => exact .fail hworker
  | connected ok =>
    rw [work] at hwork
    split at hwork <;> cases hwork
    next hworker =>
    cases ok with
    | true => exact .connect hworker
    | false => exact .unconnected hworker
  | read outcome =>
    simp only [work] at hwork
    split at hwork
    · next hworker =>
      split at hwork
      · split at hwork <;> cases hwork
        next hreply => exact .receive hworker hreply
      all_goals cases hwork
      · exact .timeout hworker
      · exact .lose hworker
    · cases hwork
  | poll outcome =>
    simp only [work] at hwork
    split at hwork
    · next hworker =>
      split at hwork <;> cases hwork
      · exact .listed hworker
      · exact worked_of_miss hworker (.inl ⟨rfl, rfl⟩)
      · exact worked_of_miss hworker (.inr ⟨rfl, rfl⟩)
    · cases hwork

/-- The worker keeps its session in order. -/
theorem work_fits (h : r.Fits) (hwork : r.work event = some next) : next.Fits := by
  unfold Fits at h ⊢
  cases worked_of_work hwork with
  | halt hworker _ | drop hworker _ | decline hworker | unconnected hworker | lose hworker =>
    rw [hworker] at h
    exact fun hrunning => nomatch h.2.1.symm.trans hrunning
  | read hworker _ | accept hworker _ | startTunnels hworker | check hworker _
  | timeout hworker | listed hworker | miss hworker _ _ =>
    rw [hworker] at h
    exact h
  | publish hworker =>
    rw [hworker] at h
    exact ⟨h.1, rfl, rfl⟩
  | finish hworker hstop =>
    rw [hworker] at h
    exact .inr ⟨h.2.1, _, h.1, h.2.2⟩
  | fail hworker => exact .inl rfl
  | connect hworker =>
    rw [hworker] at h
    exact ⟨nofun, h.2⟩
  | receive hworker hreply =>
    rw [hworker] at h
    exact ⟨hreply, h.2⟩
  | giveUp hworker _ _ => exact nofun

/-- What a step of the worker leaves as it is. -/
theorem work_frame (h : r.Fits) (hwork : r.work event = some next) :
    next.stop = r.stop ∧ r.worker ≠ .unborn ∧ next.worker ≠ .unborn ∧
      (r.status = .failed → next.status = .failed) ∧
      (next.tunnels = r.tunnels ∨ r.status = .running) ∧
      (next.connect = r.connect ∨ r.connect = .unsent ∧ next.connect = .queued) := by
  cases worked_of_work hwork
  all_goals simp_all [Fits]

/-- The worker breaks its promise exactly when it gives up. -/
theorem promising_work (h : r.Fits) (hport : r.connect = .answered (.granted port))
    (hwork : r.work event = some next) (hlisted : event ≠ .poll .missing) :
    next.promising = (r.promising && !r.givesUp event) := by
  cases worked_of_work hwork with
  | halt hworker hstop | drop hworker hstop =>
    rw [Fits, hworker] at h
    simp [promising, unchecked, hworker, hstop, h.2.1]
  | decline hworker | connect hworker | unconnected hworker =>
    rw [Fits, hworker] at h
    rw [h.1] at hport
    cases hport
  | read hworker hstop | accept hworker hstop =>
    simp [promising, unchecked, givesUp, hworker, hstop]
  | publish hworker | startTunnels hworker | check hworker _ | finish hworker _ | timeout hworker
  | receive hworker _ | listed hworker =>
    simp [promising, unchecked, givesUp, hworker]
  | fail hworker | lose hworker =>
    rw [Fits, hworker] at h
    simp [promising, unchecked, givesUp, hworker, h]
  | miss hworker hlimit houtcome | giveUp hworker hlimit houtcome =>
    rcases houtcome with ⟨rfl, rfl⟩ | ⟨rfl, rfl⟩
    · exact absurd rfl hlisted
    · simp [promising, unchecked, givesUp, hworker]
      omega

end DesktopSession

/-- The thread in `stop_active_sharing`, if there is one: it holds the lock. -/
inductive StopPhase where
  | idle
  | flagged
  | releasing (port : Nat)
  | leaving
  deriving DecidableEq

/-- The client with all its sessions, and the relay's allocations for them. -/
structure DesktopClient where
  current : Option Nat := none
  stopper : StopPhase := .idle
  sessions : Nat → DesktopSession := fun _ => {}
  /-- The session a port of the relay is allocated to. -/
  owner : Nat → Option Nat := fun _ => none

/-- The steps of the client, its workers and the relay. -/
inductive DesktopEvent where
  | start (id : Nat) (tcpEnabled udpEnabled : Bool)
  | stop
  | inspect
  | release (ok : Bool)
  | leave
  | work (id : Nat) (event : WorkerEvent)
  /-- The relay answers the session's `CONNECT`. -/
  | answer (id : Nat) (reply : ConnectReply)
  deriving DecidableEq

open Function

namespace DesktopClient

/-- The relay holds a port for the session. -/
def holds (s : DesktopClient) (id : Nat) : Bool :=
  match (s.sessions id).connect with
  | .answered (.granted port) => s.owner port == some id
  | _ => false

def setSession (s : DesktopClient) (id : Nat) (r : DesktopSession) : DesktopClient :=
  { s with sessions := Function.update s.sessions id r }

theorem sessions_setSession (s : DesktopClient) (id other : Nat) (r : DesktopSession) :
    (s.setSession id r).sessions other = if other = id then r else s.sessions other :=
  update_apply s.sessions id r other

theorem current_setSession (s : DesktopClient) (id : Nat) (r : DesktopSession) :
    (s.setSession id r).current = s.current := rfl

def step (s : DesktopClient) : DesktopEvent → Option DesktopClient
  | .start id tcpEnabled udpEnabled =>
    if s.stopper = .idle ∧ (s.sessions id).worker = .unborn ∧
        (tcpEnabled || udpEnabled) = true then
      if s.current.any (fun active => (s.sessions active).status ≠ .failed) then some s
      else
        some { s.setSession id { tcpEnabled, udpEnabled, worker := .connecting } with
          current := some id }
    else none
  | .stop =>
    match s.stopper, s.current with
    | .idle, some active =>
      some { s.setSession active { s.sessions active with stop := true } with
        stopper := .flagged }
    | .idle, none => some s
    | _, _ => none
  | .inspect =>
    match s.stopper, s.current with
    | .flagged, some active =>
      match (s.sessions active).endpoint with
      | some port =>
        if (s.sessions active).status = .running then
          some { s with stopper := .releasing port }
        else some { s with stopper := .leaving }
      | none => some { s with stopper := .leaving }
    | _, _ => none
  | .release ok =>
    match s.stopper with
    | .releasing port =>
      some { s with
        stopper := .leaving
        owner := if ok then Function.update s.owner port none else s.owner }
    | _ => none
  | .leave =>
    match s.stopper with
    | .leaving => some { s with stopper := .idle, current := none }
    | _ => none
  | .work id event =>
    -- a port that the relay holds for the session is listed
    if event = .poll .missing ∧ s.holds id = true then none
    else ((s.sessions id).work event).map (s.setSession id)
  | .answer id reply =>
    match (s.sessions id).connect with
    | .queued =>
      match reply with
      | .granted port =>
        if s.owner port = none then
          some { s.setSession id { s.sessions id with connect := .answered reply } with
            owner := Function.update s.owner port (some id) }
        else none
      | .refused => some (s.setSession id { s.sessions id with connect := .answered reply })
    | _ => none

/-- What a step can do. -/
inductive Change (s : DesktopClient) : DesktopEvent → DesktopClient → Prop
  | refuseStart {id active : Nat} {tcp udp : Bool} (hcurrent : s.current = some active)
      (hbusy : (s.sessions active).status ≠ .failed) : Change s (.start id tcp udp) s
  | start {id : Nat} {tcp udp : Bool} (hidle : s.stopper = .idle)
      (hnew : (s.sessions id).worker = .unborn)
      (hover : ∀ active, s.current = some active → (s.sessions active).status = .failed) :
      Change s (.start id tcp udp) { s.setSession id
        { tcpEnabled := tcp, udpEnabled := udp, worker := .connecting } with current := some id }
  | nothing (hcurrent : s.current = none) : Change s .stop s
  | stop {active : Nat} (hidle : s.stopper = .idle) (hcurrent : s.current = some active) :
      Change s .stop { s.setSession active { s.sessions active with stop := true } with
        stopper := .flagged }
  | inspectRunning {active port : Nat} (hflag : s.stopper = .flagged)
      (hcurrent : s.current = some active) (hend : (s.sessions active).endpoint = some port)
      (hstatus : (s.sessions active).status = .running) :
      Change s .inspect { s with stopper := .releasing port }
  | inspectOther {active : Nat} (hflag : s.stopper = .flagged) (hcurrent : s.current = some active)
      (hnot : (s.sessions active).status = .running → (s.sessions active).endpoint = none) :
      Change s .inspect { s with stopper := .leaving }
  | release {ok : Bool} {port : Nat} (hreleasing : s.stopper = .releasing port) :
      Change s (.release ok) { s with
        stopper := .leaving
        owner := if ok then Function.update s.owner port none else s.owner }
  | leave (hleaving : s.stopper = .leaving) :
      Change s .leave { s with stopper := .idle, current := none }
  | work {id : Nat} {event : WorkerEvent} {next : DesktopSession}
      (hwork : (s.sessions id).work event = some next)
      (hlisted : event = .poll .missing → s.holds id = false) :
      Change s (.work id event) (s.setSession id next)
  | grant {id port : Nat} (hqueued : (s.sessions id).connect = .queued)
      (hfree : s.owner port = none) :
      Change s (.answer id (.granted port))
        { s.setSession id { s.sessions id with connect := .answered (.granted port) } with
          owner := Function.update s.owner port (some id) }
  | refuse {id : Nat} (hqueued : (s.sessions id).connect = .queued) :
      Change s (.answer id .refused)
        (s.setSession id { s.sessions id with connect := .answered .refused })

/-- Every step is one of the changes. -/
theorem change_of_step {s t : DesktopClient} {event : DesktopEvent} (h : s.step event = some t) :
    s.Change event t := by
  cases event with
  | start id tcp udp =>
    obtain ⟨⟨hidle, hnew, _⟩, h⟩ := ite_none_right_eq_some.mp h
    split at h
    · next hbusy =>
      cases h
      obtain ⟨active, hcurrent, hstatus⟩ := (any_eq_true _ _).mp hbusy
      exact .refuseStart hcurrent (by simpa using hstatus)
    · next hover =>
      cases h
      refine .start hidle hnew ?_
      intro active hactive
      simpa [hactive] using hover
  | stop =>
    simp only [step] at h
    split at h <;> cases h
    · next hidle hcurrent => exact .stop hidle hcurrent
    · next hcurrent => exact .nothing hcurrent
  | inspect =>
    simp only [step] at h
    split at h
    · next hflag hcurrent =>
      split at h
      · next port hend =>
        split at h <;> cases h
        · next hstatus => exact .inspectRunning hflag hcurrent hend hstatus
        · next hstatus =>
          exact .inspectOther hflag hcurrent (fun hrunning => absurd hrunning hstatus)
      · next hend =>
        cases h
        exact .inspectOther hflag hcurrent (fun _ => hend)
    · cases h
  | release ok =>
    simp only [step] at h
    split at h <;> cases h
    next hreleasing => exact .release hreleasing
  | leave =>
    simp only [step] at h
    split at h <;> cases h
    next hleaving => exact .leave hleaving
  | work id event =>
    obtain ⟨hlisted, h⟩ := ite_none_left_eq_some.mp h
    obtain ⟨next, hwork, rfl⟩ := map_eq_some_iff.mp h
    exact .work hwork (fun hevent => by simpa [hevent] using hlisted)
  | answer id reply =>
    simp only [step] at h
    split at h
    · next hqueued =>
      split at h
      · obtain ⟨hfree, h⟩ := ite_none_right_eq_some.mp h
        cases h
        exact .grant hqueued hfree
      · cases h
        exact .refuse hqueued
    · cases h

/-- The stop has not looked at the session yet. -/
def unseen (s : DesktopClient) : Bool :=
  match s.stopper with
  | .idle | .flagged => true
  | _ => false

/-- What holds of a session in every reachable state. -/
structure SessionWf (s : DesktopClient) (id : Nat) (r : DesktopSession) : Prop where
  fits : r.Fits
  /-- A port is allocated to the session whose `CONNECT` it answered. -/
  granted : ∀ port, s.owner port = some id → r.connect = .answered (.granted port)
  /-- The stored session's port is allocated until it is released. -/
  held : ∀ port, s.current = some id → s.unseen = true →
    r.connect = .answered (.granted port) → s.owner port = some id
  releasing : ∀ port, s.current = some id → s.stopper = .releasing port → s.owner port = some id
  born : s.current = some id → r.worker ≠ .unborn
  flag : s.current = some id → (r.stop = true ↔ s.stopper ≠ .idle)
  /-- A session that was neither stopped nor failed is the stored one. -/
  attached : r.worker ≠ .unborn → r.stop = false → r.status ≠ .failed → s.current = some id

/-- What holds in every reachable state: whoever stops the client stops a stored session. -/
structure Wf (s : DesktopClient) : Prop where
  session : ∀ id, s.SessionWf id (s.sessions id)
  stored : s.stopper ≠ .idle → s.current ≠ none

/-- Tunnel threads that have not been told to stop belong to the stored session. -/
def OwnTunnels (s : DesktopClient) : Prop :=
  ∀ id, 0 < (s.sessions id).tunnels → (s.sessions id).stop = false → s.current = some id

variable {s t : DesktopClient} {event : DesktopEvent} {id active port : Nat} {r : DesktopSession}

/-- A session is judged by the stored session, the stop and the ports that are allocated to it. -/
theorem SessionWf.congr (h : s.SessionWf id r) (hcurrent : t.current = s.current)
    (hstopper : t.stopper = s.stopper)
    (howner : ∀ port, t.owner port = some id ↔ s.owner port = some id) : t.SessionWf id r := by
  refine ⟨h.fits, ?_, ?_, ?_, ?_, ?_, ?_⟩
  all_goals simp only [howner, hcurrent, hstopper, unseen]
  exacts [h.granted, h.held, h.releasing, h.born, h.flag, h.attached]

/-- A session that is no longer stored, or never was. -/
theorem SessionWf.unstored (h : s.SessionWf id r)
    (howner : ∀ port, t.owner port = some id → s.owner port = some id)
    (hcurrent : t.current ≠ some id)
    (hover : s.current = some id → r.stop = false → r.status = .failed) : t.SessionWf id r where
  fits := h.fits
  granted port hport := h.granted port (howner port hport)
  held _ hstored := absurd hstored hcurrent
  releasing _ hstored := absurd hstored hcurrent
  born hstored := absurd hstored hcurrent
  flag hstored := absurd hstored hcurrent
  attached hborn hstop hstatus :=
    absurd (hover (h.attached hborn hstop hstatus) hstop) hstatus

/-- A session starts when the one before is over. -/
theorem Wf.start {tcp udp : Bool} (h : s.Wf) (hidle : s.stopper = .idle)
    (hnew : (s.sessions id).worker = .unborn)
    (hover : ∀ active, s.current = some active → (s.sessions active).status = .failed) :
    Wf { s.setSession id { tcpEnabled := tcp, udpEnabled := udp, worker := .connecting } with
      current := some id } := by
  refine ⟨fun other => ?_, fun hbusy => absurd hidle hbusy⟩
  rw [sessions_setSession]
  split
  · next heq =>
    subst heq
    have hunsent := unsent_of_unborn (h.session other).fits hnew
    refine ⟨⟨rfl, rfl, rfl⟩, fun port hport => ?_, fun _ _ _ hconnect => ?_,
      fun _ _ hstopper => ?_, fun _ => ?_, fun _ => ?_, fun _ _ _ => rfl⟩
    · cases hunsent.symm.trans ((h.session other).granted port hport)
    · cases hconnect
    · cases hidle.symm.trans hstopper
    · simp
    · exact iff_of_false (by simp) (not_not_intro hidle)
  · next hne =>
    exact (h.session other).unstored (fun _ hport => hport)
      (fun hstored => hne (some.inj hstored).symm) (fun hstored _ => hover other hstored)

/-- The flag to stop is set. -/
theorem Wf.flagged (h : s.Wf) (hidle : s.stopper = .idle) (hcurrent : s.current = some active) :
    Wf { s.setSession active { s.sessions active with stop := true } with
      stopper := .flagged } := by
  refine ⟨fun other => ?_, fun _ hnone => ?_⟩
  · have hother := h.session other
    rw [sessions_setSession]
    split
    · next heq =>
      subst heq
      exact ⟨hother.fits, hother.granted,
        fun port _ _ => hother.held port hcurrent (by rw [unseen, hidle]),
        by simp, fun _ => hother.born hcurrent, fun _ => iff_of_true rfl (by simp), by simp⟩
    · next hne =>
      have hunstored : s.current ≠ some other := fun hstored =>
        hne (some.inj (hstored.symm.trans hcurrent))
      exact hother.unstored (fun _ hport => hport) hunstored
        (fun hstored => absurd hstored hunstored)
  · cases hcurrent.symm.trans hnone

/-- The stop has looked at the session. -/
theorem Wf.seen {phase : StopPhase} {owner : Nat → Option Nat} (h : s.Wf)
    (hbusy : s.stopper ≠ .idle) (hphase : phase = .leaving ∨ ∃ port, phase = .releasing port)
    (howner : ∀ port id, owner port = some id → s.owner port = some id)
    (hreleasing : ∀ port id, phase = .releasing port → s.current = some id →
      owner port = some id) : Wf { s with stopper := phase, owner } := by
  have hlater : phase ≠ .idle ∧ unseen { s with stopper := phase, owner } = false := by
    rcases hphase with rfl | ⟨port, rfl⟩ <;> simp [unseen]
  refine ⟨fun id => ?_, fun _ => h.stored hbusy⟩
  have hid := h.session id
  refine ⟨hid.fits, fun port hport => hid.granted port (howner port id hport),
    fun port _ hunseen => ?_, fun port hcurrent hstopper => hreleasing port id hstopper hcurrent,
    hid.born, fun hcurrent => ?_, hid.attached⟩
  · rw [hlater.2] at hunseen
    cases hunseen
  · exact (hid.flag hcurrent).trans (iff_of_true hbusy hlater.1)

theorem Wf.leave (h : s.Wf) (hleaving : s.stopper = .leaving) :
    Wf { s with stopper := .idle, current := none } := by
  refine ⟨fun id => ?_, fun hbusy => absurd rfl hbusy⟩
  have hid := h.session id
  refine hid.unstored (fun _ hport => hport) (by simp) (fun hcurrent hstop => ?_)
  cases hstop.symm.trans ((hid.flag hcurrent).mpr (by simp [hleaving]))

/-- A worker goes on. -/
theorem Wf.work {event : WorkerEvent} {next : DesktopSession} (h : s.Wf)
    (hwork : (s.sessions id).work event = some next) : (s.setSession id next).Wf := by
  refine ⟨fun other => ?_, h.stored⟩
  rw [sessions_setSession]
  split
  · next heq =>
    subst heq
    have hold := h.session other
    obtain ⟨hstop, hborn, hborn', hfailed, _, hconnect⟩ := work_frame hold.fits hwork
    refine ⟨work_fits hold.fits hwork, fun port hport => ?_, fun port hcurrent hunseen hport => ?_,
      hold.releasing, fun _ => hborn', fun hcurrent => ?_, fun _ hrunning hstatus => ?_⟩
    · have hgranted := hold.granted port hport
      rcases hconnect with hsame | ⟨hunsent, _⟩
      · exact hsame.trans hgranted
      · cases hunsent.symm.trans hgranted
    · rcases hconnect with hsame | ⟨_, hqueued⟩
      · exact hold.held port hcurrent hunseen (hsame.symm.trans hport)
      · cases hqueued.symm.trans hport
    · rw [hstop]
      exact hold.flag hcurrent
    · exact hold.attached hborn (hstop.symm.trans hrunning) (mt hfailed hstatus)
  · exact (h.session other).congr rfl rfl (fun _ => Iff.rfl)

/-- The relay answers with a port that is free, or with an error. -/
theorem Wf.answer {reply : ConnectReply} {owner : Nat → Option Nat} (h : s.Wf)
    (hqueued : (s.sessions id).connect = .queued)
    (howner : ∀ port other, owner port = some other ↔
      s.owner port = some other ∨ other = id ∧ reply = .granted port) :
    Wf { s.setSession id { s.sessions id with connect := .answered reply } with owner } := by
  refine ⟨fun other => ?_, h.stored⟩
  have hother := h.session other
  rw [sessions_setSession]
  split
  · next heq =>
    subst heq
    have hnone : ∀ port, s.owner port ≠ some other := fun port hport => by
      cases hqueued.symm.trans (hother.granted port hport)
    refine ⟨answered_fits hother.fits hqueued reply, fun port hport => ?_,
      fun port _ _ hconnect => (howner port other).mpr (.inr ⟨rfl, ?_⟩),
      fun port hcurrent hstopper => absurd (hother.releasing port hcurrent hstopper) (hnone port),
      hother.born, hother.flag, hother.attached⟩
    · rcases (howner port other).mp hport with hold | ⟨_, hreply⟩
      · exact absurd hold (hnone port)
      · exact congrArg ConnectState.answered hreply
    · exact ConnectState.answered.inj hconnect
  · next hne =>
    exact hother.congr rfl rfl (fun port => (howner port other).trans (by simp [hne]))

/-- Every change keeps the client in order. -/
theorem Wf.change (h : s.Wf) (hchange : s.Change event t) : t.Wf := by
  cases hchange with
  | refuseStart | nothing => exact h
  | start hidle hnew hover => exact h.start hidle hnew hover
  | stop hidle hcurrent => exact h.flagged hidle hcurrent
  | @inspectRunning active port hflag hcurrent hend hstatus =>
    refine h.seen (by simp [hflag]) (.inr ⟨_, rfl⟩) (fun _ _ hport => hport) ?_
    intro other id hother hid
    cases hother
    cases hid.symm.trans hcurrent
    have hconnect := connect_of_running (h.session active).fits hstatus hend
    exact (h.session active).held port hcurrent (by simp [unseen, hflag]) hconnect
  | inspectOther hflag hcurrent hnot =>
    exact h.seen (by simp [hflag]) (.inl rfl) (fun _ _ hport => hport) (by simp)
  | @release ok port hreleasing =>
    refine h.seen (by simp [hreleasing]) (.inl rfl) (fun other id hother => ?_) (by simp)
    cases ok with
    | false => exact hother
    | true =>
      rw [if_pos rfl, update_apply] at hother
      split at hother
      · cases hother
      · exact hother
  | leave hleaving => exact h.leave hleaving
  | work hwork hlisted => exact h.work hwork
  | @grant id port hqueued hfree =>
    refine h.answer hqueued (fun other owner => ?_)
    rw [update_apply]
    split
    · next heq => simp [heq, hfree, eq_comm]
    · next hne => simp [Ne.symm hne]
  | refuse hqueued => exact h.answer hqueued (by simp)

theorem wf_initial : Wf {} where
  session _ := ⟨⟨rfl, rfl, rfl⟩, by simp, by simp, by simp, by simp, by simp, by simp⟩
  stored hbusy := absurd rfl hbusy

theorem Wf.step (h : s.Wf) (hstep : s.step event = some t) : t.Wf :=
  h.change (change_of_step hstep)

/-! ## Ports -/

/-- Somebody is going to release the session's port. -/
def hopeful (s : DesktopClient) (id : Nat) : Bool :=
  s.current = some id &&
    match s.stopper with
    | .idle | .flagged => (s.sessions id).promising
    | .releasing _ => true
    | .leaving => false

/-- The step does not give up the port of the session. -/
def KeepsPort (id : Nat) (s : DesktopClient) : DesktopEvent → Prop
  | .stop => s.current = some id → s.holds id = true → (s.sessions id).unchecked = false
  | .inspect => s.current = some id → s.holds id = true → (s.sessions id).status = .running
  | .release ok => s.current = some id → s.holds id = true → ok = true
  | .work active event => active = id → s.unseen = true → s.holds id = true →
      (s.sessions id).givesUp event = false
  | .answer active (.granted _) => active = id → (s.sessions id).promising = true
  | _ => True

instance (id : Nat) (s : DesktopClient) : ∀ event, Decidable (s.KeepsPort id event)
  | .stop | .inspect | .release _ => inferInstanceAs (Decidable (_ → _ → _))
  | .work _ _ => inferInstanceAs (Decidable (_ → _ → _ → _))
  | .answer _ (.granted _) => inferInstanceAs (Decidable (_ → _))
  | .answer _ .refused | .start _ _ _ | .leave => inferInstanceAs (Decidable True)

/-- The relay holds the session's port, and nobody is going to release it. -/
def Lost (id : Nat) (s : DesktopClient) : Prop := s.holds id = true ∧ s.hopeful id = false

theorem holds_iff_owner :
    s.holds id = true ↔ ∃ port, (s.sessions id).connect = .answered (.granted port) ∧
      s.owner port = some id := by
  unfold holds
  split
  · next port hconnect => simp [hconnect]
  · next hnone =>
    exact iff_of_false (by simp) (not_exists.mpr fun port hport => hnone port hport.1)

/-- To hold a port is to own one. -/
theorem Wf.holds_iff (h : s.Wf) : s.holds id = true ↔ ∃ port, s.owner port = some id := by
  rw [holds_iff_owner]
  exact exists_congr fun port => and_iff_right_of_imp ((h.session id).granted port)

theorem holds_congr (hconnect : (t.sessions id).connect = (s.sessions id).connect)
    (howner : ∀ port, t.owner port = some id ↔ s.owner port = some id) :
    t.holds id = s.holds id := by
  rw [Bool.eq_iff_iff, holds_iff_owner, holds_iff_owner, hconnect]
  simp only [howner]

theorem not_holds {state : ConnectState} (h : (s.sessions id).connect = state)
    (hstate : ∀ port, state ≠ .answered (.granted port)) : ¬ s.holds id = true := by
  rw [holds_iff_owner, h]
  exact not_exists.mpr fun port hport => hstate port hport.1

theorem holds_work {event : WorkerEvent} {next : DesktopSession} (h : s.Wf)
    (hwork : (s.sessions id).work event = some next) :
    (s.setSession id next).holds id = s.holds id := by
  have hnext : (s.setSession id next).sessions id = next := update_self ..
  obtain ⟨_, _, _, _, _, hsame | ⟨hunsent, hqueued⟩⟩ := work_frame (h.session id).fits hwork
  · exact holds_congr (by rw [hnext, hsame]) fun _ => Iff.rfl
  · have hbefore := not_holds hunsent (by simp)
    have hafter : ¬ (s.setSession id next).holds id = true :=
      not_holds (by rw [hnext, hqueued]) (by simp)
    rw [Bool.not_eq_true] at hbefore hafter
    rw [hbefore, hafter]

/-- Nobody is going to release the port of a session that is not stored. -/
theorem hopeful_of_ne (h : s.current ≠ some id) : s.hopeful id = false := by
  simp [hopeful, h]

theorem hopeful_congr (hcurrent : t.current = s.current) (hstopper : t.stopper = s.stopper)
    (hsession : t.sessions id = s.sessions id) : t.hopeful id = s.hopeful id := by
  unfold hopeful
  rw [hcurrent, hstopper, hsession]

theorem hopeful_setSession (s : DesktopClient) (id : Nat) (r : DesktopSession) :
    (s.setSession id r).hopeful id =
      (s.current = some id &&
        match s.stopper with
        | .idle | .flagged => r.promising
        | .releasing _ => true
        | .leaving => false) := by
  unfold hopeful
  rw [sessions_setSession, if_pos rfl]
  rfl

/-- A step that takes the hope of a release away, or does not. -/
theorem lost_iff_of_gives (gives : Bool) (hholds : t.holds id = s.holds id)
    (hhopeful : s.holds id = true → t.hopeful id = (s.hopeful id && !gives))
    (hkeeps : s.KeepsPort id event ↔ (s.holds id = true → gives = false)) :
    t.Lost id ↔ s.Lost id ∨ ¬ s.KeepsPort id event := by
  rw [Lost, Lost, hholds, hkeeps]
  cases hs : s.holds id with
  | false => simp
  | true =>
    rw [hhopeful hs]
    cases s.hopeful id <;> cases gives <;> simp

theorem lost_iff_of_same (hkeeps : s.KeepsPort id event) (hholds : t.holds id = s.holds id)
    (hhopeful : t.hopeful id = s.hopeful id) :
    t.Lost id ↔ s.Lost id ∨ ¬ s.KeepsPort id event :=
  lost_iff_of_gives false hholds (fun _ => hhopeful.trans (Bool.and_true _).symm)
    (iff_of_true hkeeps fun _ => rfl)

/-- Without a port there is nothing to lose. -/
theorem lost_iff_of_not_holds (hkeeps : s.KeepsPort id event) (hs : ¬ s.holds id = true)
    (ht : ¬ t.holds id = true) : t.Lost id ↔ s.Lost id ∨ ¬ s.KeepsPort id event :=
  iff_of_false (fun hlost => ht hlost.1)
    (not_or.mpr ⟨fun hlost => hs hlost.1, not_not_intro hkeeps⟩)

/-- **Ports are lost by steps that give them up,** and stay lost. -/
theorem lost_iff (h : s.Wf) (hchange : s.Change event t) (id : Nat) :
    t.Lost id ↔ s.Lost id ∨ ¬ s.KeepsPort id event := by
  have hsession := h.session id
  cases hchange with
  | refuseStart => exact lost_iff_of_same trivial rfl rfl
  | nothing hcurrent => exact lost_iff_of_same (by simp [KeepsPort, hcurrent]) rfl rfl
  | @start new tcp udp hidle hnew hover =>
    by_cases hid : id = new
    · subst hid
      exact lost_iff_of_not_holds trivial
        (not_holds (unsent_of_unborn hsession.fits hnew) (by simp))
        (not_holds (congrArg _ (update_self ..)) (by simp))
    · refine lost_iff_of_same trivial
        (holds_congr (congrArg _ (update_of_ne hid ..)) fun _ => Iff.rfl)
        ((hopeful_of_ne fun heq => hid (some.inj heq).symm).trans ?_)
      by_cases hcurrent : s.current = some id
      · -- the stored session has failed, so that nobody was going to release its port
        have hfailed := hover id hcurrent
        simp [hopeful, hidle, promising_of_status hsession.fits, hfailed]
      · exact (hopeful_of_ne hcurrent).symm
  | @stop active hidle hcurrent =>
    by_cases hid : id = active
    · subst hid
      refine lost_iff_of_gives (s.sessions id).unchecked
        (holds_congr (by rw [sessions_setSession, if_pos rfl]) fun _ => Iff.rfl) (fun _ => ?_)
        (by simp [KeepsPort, hcurrent])
      simp [hopeful, current_setSession, sessions_setSession, hcurrent, hidle, promising_stop]
    · have hunstored : some active ≠ some id := fun heq => hid (some.inj heq).symm
      refine lost_iff_of_same (by simp [KeepsPort, hcurrent, hunstored])
        (holds_congr (congrArg _ (update_of_ne hid ..)) fun _ => Iff.rfl) ?_
      simp [hopeful, current_setSession, hcurrent, hunstored]
  | @inspectRunning active port hflag hcurrent hend hstatus =>
    refine lost_iff_of_same (fun hid _ => ?_) rfl ?_
    · cases hcurrent.symm.trans hid
      exact hstatus
    · by_cases hid : active = id
      · subst hid
        simp [hopeful, hcurrent, hflag, promising_of_status hsession.fits, hstatus]
      · simp [hopeful, hcurrent, hid]
  | @inspectOther active hflag hcurrent hnot =>
    by_cases hid : active = id
    · subst hid
      have hstatus : (s.sessions active).status ≠ .running := fun hrunning => by
        obtain ⟨port, _, hend⟩ := published_of_running hsession.fits hrunning
        rw [hnot hrunning] at hend
        cases hend
      exact lost_iff_of_gives true rfl (fun _ => by simp [hopeful])
        (by simp [KeepsPort, hcurrent, hstatus])
    · exact lost_iff_of_same (by simp [KeepsPort, hcurrent, hid]) rfl
        (by simp [hopeful, hcurrent, hid])
  | @release ok port hreleasing =>
    obtain ⟨active, hcurrent⟩ :=
      ne_none_iff_exists'.mp (h.stored (by simp [hreleasing]))
    have howner := (h.session active).releasing port hcurrent hreleasing
    cases ok with
    | false =>
      exact lost_iff_of_gives (decide (active = id)) rfl
        (fun _ => by simp [hopeful, hcurrent, hreleasing])
        (by simp [KeepsPort, hcurrent, imp_not_comm])
    | true =>
      by_cases hid : active = id
      · subst hid
        have hkept : ¬ s.Lost active := by simp [Lost, hopeful, hcurrent, hreleasing]
        refine iff_of_false (fun hlost => ?_) (not_or.mpr ⟨hkept, by simp [KeepsPort]⟩)
        obtain ⟨other, hother, howner'⟩ := holds_iff_owner.mp hlost.1
        cases (hsession.granted port howner).symm.trans hother
        simp at howner'
      · refine lost_iff_of_same (by simp [KeepsPort]) (holds_congr rfl fun other => ?_)
          (by simp [hopeful, hcurrent, hid])
        by_cases heq : other = port
        · simp [heq, howner, hid]
        · simp [heq]
  | leave hleaving =>
    exact lost_iff_of_same trivial rfl (by simp [hopeful, hleaving])
  | @work active event next hwork hlisted =>
    by_cases hid : id = active
    · subst hid
      refine lost_iff_of_gives (s.unseen && (s.sessions id).givesUp event) (holds_work h hwork)
        (fun hholds => ?_) (by simp [KeepsPort, imp.swap])
      obtain ⟨port, hport, _⟩ := holds_iff_owner.mp hholds
      have hnext := promising_work hsession.fits hport hwork
        (fun hevent => by simp [hlisted hevent] at hholds)
      rw [hopeful_setSession]
      cases hstopper : s.stopper <;> simp [hopeful, unseen, hstopper, hnext, Bool.and_assoc]
    · exact lost_iff_of_same (by simp [KeepsPort, Ne.symm hid])
        (holds_congr (congrArg _ (update_of_ne hid ..)) fun _ => Iff.rfl)
        (hopeful_congr rfl rfl (update_of_ne hid ..))
  | @grant active port hqueued hfree =>
    by_cases hid : id = active
    · subst hid
      have hnone := not_holds hqueued (by simp)
      refine (and_iff_right (holds_iff_owner.mpr
        ⟨port, congrArg _ (update_self ..), update_self ..⟩)).trans ?_
      change (s.setSession id _).hopeful id = false ↔ _
      rw [hopeful_setSession]
      cases hpromising : (s.sessions id).promising with
      | true =>
        obtain ⟨hborn, hstop, hstatus⟩ := waiting_of_promising hsession.fits hqueued hpromising
        have hcurrent := hsession.attached hborn hstop (by simp [hstatus])
        have hidle : s.stopper = .idle := by simpa [hstop] using hsession.flag hcurrent
        exact iff_of_false (by simp [hcurrent, hidle, hpromising])
          (by simp [Lost, hnone, KeepsPort, hpromising])
      | false =>
        refine iff_of_true ?_ (by simp [KeepsPort, hpromising])
        cases hstopper : s.stopper with
        | idle | flagged => simp [hpromising]
        | releasing other =>
          -- a session whose port is being released has been answered
          have hunstored : s.current ≠ some id := fun hcurrent => by
            have howner := hsession.releasing other hcurrent hstopper
            cases hqueued.symm.trans (hsession.granted other howner)
          simp [hunstored]
        | leaving => simp
    · refine lost_iff_of_same (by simp [KeepsPort, Ne.symm hid])
        (holds_congr (congrArg _ (update_of_ne hid ..)) fun other => ?_)
        (hopeful_congr rfl rfl (update_of_ne hid ..))
      by_cases heq : other = port
      · simp [heq, hfree, Ne.symm hid]
      · simp [heq]
  | @refuse active hqueued =>
    by_cases hid : id = active
    · subst hid
      exact lost_iff_of_not_holds trivial (not_holds hqueued (by simp))
        (not_holds (congrArg _ (update_self ..)) (by simp))
    · exact lost_iff_of_same trivial
        (holds_congr (congrArg _ (update_of_ne hid ..)) fun _ => Iff.rfl)
        (hopeful_congr rfl rfl (update_of_ne hid ..))

/-! ## Tunnel threads -/

/-- A session that is replaced has no tunnel threads. -/
def KeepsTunnels (s : DesktopClient) : DesktopEvent → Prop
  | .start _ _ _ => ∀ active, s.current = some active → (s.sessions active).status = .failed →
      (s.sessions active).tunnels = 0
  | _ => True

/-- One session has changed, and whoever stands behind its tunnel threads is the same. -/
theorem ownTunnels_of_update (hcurrent : t.current = s.current)
    (hsessions : t.sessions = update s.sessions id r)
    (hsame : (0 < r.tunnels → r.stop = false → s.current = some id) ↔
      (0 < (s.sessions id).tunnels → (s.sessions id).stop = false → s.current = some id)) :
    t.OwnTunnels ↔ s.OwnTunnels ∧ True := by
  rw [and_true, OwnTunnels, OwnTunnels, hcurrent, hsessions]
  refine forall_congr' fun other => ?_
  by_cases hother : other = id
  · rw [hother, update_self]
    exact hsame
  · rw [update_of_ne hother]

theorem ownTunnels_of_start {tcp udp : Bool} (h : s.Wf) (hidle : s.stopper = .idle)
    (hnew : (s.sessions id).worker = .unborn)
    (hover : ∀ active, s.current = some active → (s.sessions active).status = .failed) :
    OwnTunnels { s.setSession id { tcpEnabled := tcp, udpEnabled := udp, worker := .connecting }
        with current := some id } ↔ s.OwnTunnels ∧ s.KeepsTunnels (.start id tcp udp) := by
  have hfits := (h.session id).fits
  rw [Fits, hnew] at hfits
  constructor
  · intro hown
    have hquiet : ∀ other, other ≠ id → 0 < (s.sessions other).tunnels →
        (s.sessions other).stop ≠ false := fun other hother hpos hstop => by
      have hid := hown other
      rw [sessions_setSession, if_neg hother] at hid
      exact hother (some.inj (hid hpos hstop)).symm
    refine ⟨fun other hpos hstop => ?_, fun active hcurrent _ => ?_⟩
    · by_cases hother : other = id
      · rw [hother, hfits.2.2] at hpos
        cases hpos
      · exact absurd hstop (hquiet other hother hpos)
    · have hborn : active ≠ id := fun heq => (h.session active).born hcurrent (heq ▸ hnew)
      have hstop : (s.sessions active).stop = false := by
        simpa [hidle] using (h.session active).flag hcurrent
      exact Nat.eq_zero_of_not_pos fun hpos => hquiet active hborn hpos hstop
  · intro hkept other
    rw [sessions_setSession]
    split
    · exact fun hpos => absurd hpos (Nat.lt_irrefl 0)
    · intro hpos hstop
      have hcurrent := hkept.1 other hpos hstop
      rw [hkept.2 other hcurrent (hover other hcurrent)] at hpos
      cases hpos

/-- **Tunnel threads are left behind by steps that replace their session,** and stay so. -/
theorem ownTunnels_iff (h : s.Wf) (hchange : s.Change event t) :
    t.OwnTunnels ↔ s.OwnTunnels ∧ s.KeepsTunnels event := by
  cases hchange with
  | refuseStart hcurrent hbusy =>
    refine (and_iff_left fun active hactive hfailed => ?_).symm
    cases hcurrent.symm.trans hactive
    exact absurd hfailed hbusy
  | start hidle hnew hover => exact ownTunnels_of_start h hidle hnew hover
  | nothing | inspectRunning | inspectOther | release => exact (and_iff_left trivial).symm
  | stop hidle hcurrent =>
    exact ownTunnels_of_update rfl rfl (iff_of_true (by simp) fun _ _ => hcurrent)
  | leave hleaving =>
    refine Iff.trans (forall_congr' fun id => ?_) (and_iff_left trivial).symm
    refine forall_congr' fun _ => forall_congr' fun hstop => ?_
    refine iff_of_false (by simp) fun hcurrent => ?_
    cases hstop.symm.trans (((h.session id).flag hcurrent).mpr (by simp [hleaving]))
  | @work active event next hwork hlisted =>
    have hactive := h.session active
    obtain ⟨hstop, hborn, _, _, htunnels, _⟩ := work_frame hactive.fits hwork
    refine ownTunnels_of_update rfl rfl ?_
    rw [hstop]
    rcases htunnels with hsame | hrunning
    · rw [hsame]
    · have hattached := fun hstop => hactive.attached hborn hstop (by simp [hrunning])
      exact iff_of_true (fun _ => hattached) (fun _ => hattached)
  | grant | refuse => exact ownTunnels_of_update rfl rfl Iff.rfl

end DesktopClient

open DesktopClient

/-- **Sessions end cleanly** exactly when no step leaves something behind: a session that is no
longer stored holds no port, and tunnel threads that go on belong to the stored session. -/
theorem sessions_end_cleanly_iff {events : List DesktopEvent} {s : DesktopClient}
    (hrun : run step {} events = some s) :
    (∀ id, s.current ≠ some id →
      ((∀ port, s.owner port ≠ some id) ↔ Guarded step (KeepsPort id) {} events)) ∧
    (s.OwnTunnels ↔ Guarded step KeepsTunnels {} events) := by
  have hkeep : ∀ s event t, Wf s → Always s event → s.step event = some t → t.Wf :=
    fun _ _ _ h _ => h.step
  have halways : Guarded step Always {} events :=
    guarded_of_forall (fun _ _ _ => trivial) _
  have hwf : s.Wf := (reaches_of_run hrun).invariant wf_initial hkeep
  refine ⟨fun id hover => ?_, ?_⟩
  · have hkept := @guarded_iff_kept _ _ _ _ _ _ _ _ _ (fun s => ¬ s.Lost id) wf_initial halways
      hkeep (fun _ _ _ h _ hstep => by rw [lost_iff h (change_of_step hstep) id, not_or, not_not]) hrun
    rw [and_iff_right fun hlost => by cases hlost.1] at hkept
    rw [← hkept, Lost, hopeful_of_ne hover, and_iff_left rfl, hwf.holds_iff, not_exists]
  · have hkept := guarded_iff_kept wf_initial halways hkeep
      (fun _ _ _ h _ hstep => ownTunnels_iff h (change_of_step hstep)) hrun
    exact hkept.trans (and_iff_right fun _ hpos => by cases hpos)

/-- Session 0 gets port 40000. -/
def sharing : List DesktopEvent :=
  [.start 0 true false, .work 0 (.connected true), .work 0 .go, .answer 0 (.granted 40000),
    .work 0 (.read .response)]

/-- The worker publishes the endpoint, starts the tunnels and watches the allocation. -/
def published : List DesktopEvent := sharing ++ List.replicate 4 (.work 0 .go)

def stopped : List DesktopEvent := [.stop, .inspect, .release true, .leave]

/-- A session that is stopped after its port was published. -/
theorem sessions_end_cleanly_after_publication :
    ∃ s, run step {} (published ++ stopped) = some s ∧ s.current = none ∧
      ∀ port, s.owner port ≠ some 0 := by
  refine ⟨_, rfl, rfl, ?_⟩
  exact ((@sessions_end_cleanly_iff (published ++ stopped) _ rfl).1 0 nofun).mpr (by decide)

/-- The client is stopped between the answer and its publication, and the port stays allocated; a
start after a failure leaves the tunnels of the failed session to themselves. -/
theorem session_left_behind :
    (∃ s, run step {}
        (sharing ++ [.stop, .inspect, .leave, .work 0 .go, .work 0 .go]) = some s ∧
      s.current = none ∧ (s.sessions 0).worker = .finished ∧ s.owner 40000 = some 0) ∧
    ∃ s, run step {}
        (published ++ [.work 0 (.poll .error), .work 0 .go, .work 0 (.poll .error), .work 0 .go,
          .work 0 (.poll .error), .work 0 .go, .start 1 true false]) = some s ∧
      (s.sessions 0).tunnels = 8 ∧ (s.sessions 0).stop = false ∧ s.current = some 1 :=
  ⟨⟨_, rfl, rfl, rfl, rfl⟩, ⟨_, rfl, rfl, rfl, rfl⟩⟩

end FerrumProxy
