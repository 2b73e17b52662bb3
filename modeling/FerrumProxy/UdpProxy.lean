import FerrumProxy.BedrockPackets
import FerrumProxy.DdosGuard
import FerrumProxy.PairedRuns
import FerrumProxy.UdpSessions
import FerrumProxy.UdpUpstream

/-!
# The UDP listener as a whole

`start_udp_proxy` with all that runs in it: the listener, which handles one datagram of its clients
after another, the receive tasks of the sessions, which forward what arrives at the sessions'
sockets, and the pong cache that all of them share.

The table of the sessions is the one of `UdpSessions`, and each step moves it by actions of that
machine.  The verdicts of the block list and of the DDoS guard, the answers of resolvers and whether
a socket takes a datagram are part of the events.
-/

namespace FerrumProxy

open Str Wire Runs

def maxDatagramSize : Nat := 65535

def pongCacheFreshMs : Millis := 3000

/-- `Duration::as_millis`. -/
def asMillis (elapsed : Duration) : Millis := ⌊elapsed * 1000⌋₊

/-! ### Responses of backends -/

section Responses

variable (rule : ListenerRule)

/-- A response without the PROXY headers in front of it. -/
def stripResponse (raw : Bytes) : Bytes :=
  if rule.usesRaknetUdp && decide (12 ≤ raw.length) && raw.take 12 == signature then
    match parseProxyChain raw with
    | .ok parsed => if !parsed.headers.isEmpty then raw.drop parsed.payloadOffset else raw
    | .error _ => raw
  else
    raw

def isPongResponse (stripped : Bytes) : Bool :=
  rule.usesRaknetUdp && stripped.head? == some 0x1c

/-- A pong with the listener's ports and with clean lines for the server list. -/
def rewritePong (stripped : Bytes) : Bytes :=
  let bufOut :=
    if rule.rewriteBedrockPongPorts then
      (rewriteUnconnectedPongPorts stripped (rule.udp.getD 0)).getD stripped
    else stripped
  (normalizeUnconnectedPongMotd bufOut).getD bufOut

/-- What the client gets for a datagram that has arrived at the session's socket. -/
def backendResponse (raw : Bytes) : Bytes :=
  let stripped := stripResponse rule raw
  if isPongResponse rule stripped then rewritePong rule stripped else stripped

/-- The pong that goes into the cache. -/
def pongToCache (raw : Bytes) : Option Bytes :=
  if isPongResponse rule (stripResponse rule raw) && isUnconnectedPong (backendResponse rule raw)
  then some (backendResponse rule raw)
  else none

end Responses

/-! ### Sessions -/

/-- What the listener and the receive task share of a session. -/
structure ProxySession where
  upstream : UdpSession
  sessionStart : Instant
  establishedAtMs : Option Millis

namespace ProxySession

def new (now : Instant) (targetCount : Nat) : ProxySession where
  upstream := UdpSession.new targetCount
  sessionStart := now
  establishedAtMs := none

variable (session : ProxySession) (now : Instant)

def elapsedMs : Millis := asMillis (durationSince now session.sessionStart)

def touch : ProxySession :=
  { session with upstream := session.upstream.touch (session.elapsedMs now) }

def msSinceLastActivity : Millis :=
  session.upstream.msSinceLastActivity (session.elapsedMs now)

def msSinceEstablished : Option Millis :=
  session.establishedAtMs.map (fun established => session.elapsedMs now - established)

def markEstablished : ProxySession :=
  match session.establishedAtMs with
  | some _ => session
  | none => { session with establishedAtMs := some (session.elapsedMs now) }

/-- A RakNet frame set. -/
def isFrameSet (payload : Bytes) : Bool :=
  payload.head?.any (fun b => decide (0x80 ≤ b) && decide (b ≤ 0x8d))

/-- `handle_datagram` from the check of the idle time on. -/
def forward (rule : ListenerRule) (network : Network) (incoming : Incoming) : ProxySession :=
  let r := forwardDatagram rule network incoming.originalClient incoming.payload
    (session.elapsedMs now) session.upstream
  let session := { session with upstream := r.1 }
  if r.2.isSome && rule.usesRaknetUdp && isFrameSet incoming.payload then
    session.markEstablished now
  else session

end ProxySession

/-- The quiet time after which a session ends. -/
def idleBudget (rule : ListenerRule) (udpSessionIdle : Duration) : Duration :=
  if rule.usesRaknetUdp then udpSessionIdle else max udpSessionIdle 60

/-! ### The listener and its tasks -/

/-- The cached pong. -/
structure UdpProxy.CachedPong where
  payload : Bytes
  updatedAt : Instant

/-- Where the listener is in `handle_datagram`. -/
inductive ProxyStage where
  | idle
  | answering (peer : SocketAddr) (incoming : Incoming) (cached : UdpProxy.CachedPong)
  | obtaining (peer : SocketAddr) (incoming : Incoming)
  | sending (session : Nat) (incoming : Incoming)

/-- The listener has a copy of the cached pong. -/
def ProxyStage.isAnswering : ProxyStage → Bool
  | .answering _ _ _ => true
  | _ => false

/-- The state of the proxy. -/
structure UdpProxy where
  clock : Instant
  /-- The table of the sessions, with their receive tasks. -/
  listener : UdpListener
  /-- The sessions by their numbers. -/
  sessions : Pool ProxySession
  stage : ProxyStage
  sharedPong : Option UdpProxy.CachedPong

/-- A step of `obtain_session`. -/
inductive ObtainEvent where
  | lookup
  | reset
  | check
  | bindSocket (bound : Bool)
  | insert

/-- A step of a receive task other than on a datagram. -/
inductive TaskEvent where
  /-- It has waited for a second. -/
  | timeout
  | socketError
  | cancel
  | cleanUp

/-- What happens to the proxy. -/
inductive ProxyEvent where
  | tick (elapsed : Duration)
  /-- A client's datagram; the block list and the guard admit it or not. -/
  | receive (peer : SocketAddr) (packet : Bytes) (admitted : Bool)
  /-- The age of the copied pong is looked at. -/
  | answer (sent : Bool)
  | obtain (event : ObtainEvent)
  | forward (network : Network)
  /-- A datagram arrives at the socket of a session; the listener's socket takes the
  response or not. -/
  | arrive (session : Nat) (source : SocketAddr) (datagram : Bytes) (sent : Bool)
  | task (session : Nat) (event : TaskEvent)

/-- The steps of `handle_datagram`. -/
def ProxyEvent.isListener : ProxyEvent → Bool
  | .receive _ _ _ | .answer _ | .obtain _ | .forward _ => true
  | _ => false

/-- A datagram that is given to the listener's socket for a client, which takes it or not. -/
structure ClientDatagram where
  peer : SocketAddr
  bytes : Bytes
  sent : Bool
  deriving DecidableEq

namespace UdpProxy

def start : UdpProxy where
  clock := 0
  listener := UdpListener.start
  sessions := ∅
  stage := .idle
  sharedPong := none

variable (rule : ListenerRule) (udpSessionIdle : Duration) (proxy : UdpProxy)

/-- The table after actions of its own machine. -/
def moved (actions : List ListenerAction) : Option UdpProxy :=
  (run UdpListener.step proxy.listener actions).map
    (fun listener => { proxy with listener := listener })

/-- The listener starts on `obtain_session`. -/
def startObtaining (peer : SocketAddr) (incoming : Incoming) :
    Option (UdpProxy × List ClientDatagram) :=
  let isNewConn := rule.usesRaknetUdp && isOpenConnectionRequest1 incoming.payload
  (proxy.moved [.receive peer isNewConn]).map
    (fun next => ({ next with stage := .obtaining peer incoming }, []))

/-- The copy of the cached pong that `handle_datagram` takes for a ping. -/
def cachedFor (incoming : Incoming) : Option CachedPong :=
  if rule.usesRaknetUdp && isOfflinePing incoming.payload then proxy.sharedPong else none

def receive (peer : SocketAddr) (packet : Bytes) (admitted : Bool) :
    Option (UdpProxy × List ClientDatagram) :=
  let incoming := receiveDatagram rule peer (packet.take maxDatagramSize)
  if incoming.payload.isEmpty || !admitted then some (proxy, [])
  else
    match proxy.cachedFor rule incoming with
    | some cached => some ({ proxy with stage := .answering peer incoming cached }, [])
    | none => proxy.startObtaining rule peer incoming

/-- `payload.get(1..9)` of a ping, which is long enough. -/
def pingTimestamp (payload : Bytes) : Bytes := (payload.drop 1).take 8

/-- The answer from the cache; a payload that is no pong gets the timestamp all the same. -/
def immediatePong (payload timestamp : Bytes) : Bytes :=
  (rewriteUnconnectedPongTimestamp payload timestamp).getD
    (if 9 ≤ payload.length then payload.take 1 ++ timestamp ++ payload.drop 9 else payload)

def answer (peer : SocketAddr) (incoming : Incoming) (cached : CachedPong) (sent : Bool) :
    Option (UdpProxy × List ClientDatagram) :=
  let ageMs := asMillis (durationSince proxy.clock cached.updatedAt)
  if ageMs < pongCacheFreshMs then
    some ({ proxy with stage := .idle },
      [⟨peer, immediatePong cached.payload (pingTimestamp incoming.payload), sent⟩])
  else
    proxy.startObtaining rule peer incoming

/-- The clocks of the peer's session, if it has one. -/
def reconnectClocks (peer : SocketAddr) : Millis × Option Millis :=
  match (proxy.listener.table.sessions.lookup peer).bind proxy.sessions.lookup with
  | some session =>
    (session.msSinceLastActivity proxy.clock, session.msSinceEstablished proxy.clock)
  | none => (0, none)

/-- A session for the peer, unless there is one. -/
def openSession (peer : SocketAddr) : UdpProxy :=
  match proxy.listener.table.sessions.lookup peer with
  | some _ => proxy
  | none =>
    { proxy with
      sessions := proxy.sessions.put proxy.listener.table.next
        (.new proxy.clock (rule.targetsFor .udp).length) }

/-- The listener goes on with the peer's session, if `obtain_session` has found it. -/
def obtained (peer : SocketAddr) (incoming : Incoming) : UdpProxy :=
  match proxy.listener.stage, proxy.listener.table.sessions.lookup peer with
  | .idle, some id => { proxy with stage := .sending id incoming }
  | _, _ => proxy

/-- The receive task that waits at the session's socket. -/
def receiver (id : Nat) : Option (RecvTask × ProxySession) :=
  match proxy.listener.table.tasks.lookup id, proxy.sessions.lookup id with
  | some task, some session =>
    if task.phase == .suspended && !task.aborted then some (task, session) else none
  | _, _ => none

/-- The receive task takes a datagram, and sends and caches what it makes of it. -/
def respond (id : Nat) (task : RecvTask) (session : ProxySession) (raw : Bytes) (sent : Bool) :
    Option (UdpProxy × List ClientDatagram) :=
  let cached := (pongToCache rule raw).map (fun payload => CachedPong.mk payload proxy.clock)
  (proxy.moved [.poll id, if sent then .await id else .leave id]).map (fun next =>
    ({ next with
        sharedPong := cached.or proxy.sharedPong
        sessions :=
          if sent then proxy.sessions.put id (session.touch proxy.clock) else proxy.sessions },
      [⟨task.peer, backendResponse rule raw, sent⟩]))

def obtainStep (peer : SocketAddr) (incoming : Incoming) : ObtainEvent → Option UdpProxy
  | .lookup =>
    let clocks := proxy.reconnectClocks peer
    proxy.moved [.lookup clocks.1 clocks.2]
  | .reset => proxy.moved [.reset]
  | .check => (proxy.moved [.check]).map (fun next => next.obtained peer incoming)
  | .bindSocket bound =>
    (proxy.moved [.bindSocket bound]).map
      (fun next => if bound then next else { next with stage := .idle })
  | .insert =>
    ((proxy.openSession rule peer).moved [.insert]).map (fun next => next.obtained peer incoming)

def taskStep (id : Nat) : TaskEvent → Option UdpProxy
  | .timeout =>
    match proxy.receiver id with
    | some (_, session) =>
      if asMillis (idleBudget rule udpSessionIdle) ≤ session.msSinceLastActivity proxy.clock
      then proxy.moved [.poll id, .leave id]
      else some proxy
    | none => none
  | .socketError => proxy.moved [.poll id, .leave id]
  | .cancel => proxy.moved [.cancel id]
  | .cleanUp => proxy.moved [.cleanUp id]

def step : ProxyEvent → Option (UdpProxy × List ClientDatagram)
  | .tick elapsed =>
    if 0 ≤ elapsed then some ({ proxy with clock := proxy.clock + elapsed }, []) else none
  | .receive peer packet admitted =>
    match proxy.stage with
    | .idle => proxy.receive rule peer packet admitted
    | _ => none
  | .answer sent =>
    match proxy.stage with
    | .answering peer incoming cached => proxy.answer rule peer incoming cached sent
    | _ => none
  | .obtain event =>
    match proxy.stage with
    | .obtaining peer incoming => (proxy.obtainStep rule peer incoming event).map (·, [])
    | _ => none
  | .forward network =>
    match proxy.stage with
    | .sending id incoming =>
      (proxy.sessions.lookup id).map (fun session =>
        ({ proxy with
            stage := .idle
            sessions := proxy.sessions.put id
              (session.forward proxy.clock rule network incoming) }, []))
    | _ => none
  | .arrive id _ datagram sent =>
    match proxy.receiver id with
    | some (task, session) =>
      proxy.respond rule id task session (datagram.take maxDatagramSize) sent
    | none => some (proxy, [])   -- nobody takes it any more
  | .task id event => (proxy.taskStep rule udpSessionIdle id event).map (·, [])

/-! ### What a step does -/

/-- All that a step can do. -/
inductive Change : ProxyEvent → UdpProxy → List ClientDatagram → Prop
  | tick {elapsed : Duration} (helapsed : 0 ≤ elapsed) :
      Change (.tick elapsed) { proxy with clock := proxy.clock + elapsed } []
  /-- The listener copies the cached pong. -/
  | copy {peer : SocketAddr} {packet : Bytes} {cached : CachedPong} (hidle : proxy.stage = .idle)
      (hcached : proxy.cachedFor rule
        (receiveDatagram rule peer (packet.take maxDatagramSize)) = some cached) :
      Change (.receive peer packet true)
        { proxy with
          stage := .answering peer (receiveDatagram rule peer (packet.take maxDatagramSize))
            cached } []
  | answer {peer : SocketAddr} {incoming : Incoming} {cached : CachedPong} {sent : Bool}
      (hstage : proxy.stage = .answering peer incoming cached)
      (hfresh : asMillis (durationSince proxy.clock cached.updatedAt) < pongCacheFreshMs) :
      Change (.answer sent) { proxy with stage := .idle }
        [⟨peer, immediatePong cached.payload (pingTimestamp incoming.payload), sent⟩]
  /-- The listener takes another step, which sends nothing to clients. -/
  | listen {event : ProxyEvent} {actions : List ListenerAction} {listener : UdpListener}
      {sessions : Pool ProxySession} {stage : ProxyStage} (hevent : event.isListener = true)
      (hrun : run UdpListener.step proxy.listener actions = some listener)
      (hstage : stage.isAnswering = false) :
      Change event { proxy with listener := listener, sessions := sessions, stage := stage } []
  | respond {id : Nat} {source : SocketAddr} {datagram : Bytes} {sent : Bool} {task : RecvTask}
      {session : ProxySession} {listener : UdpListener}
      (hreceiver : proxy.receiver id = some (task, session))
      (hrun : run UdpListener.step proxy.listener
        [.poll id, if sent then .await id else .leave id] = some listener) :
      Change (.arrive id source datagram sent)
        { proxy with
          listener := listener
          sharedPong := ((pongToCache rule (datagram.take maxDatagramSize)).map
            (fun payload => CachedPong.mk payload proxy.clock)).or proxy.sharedPong
          sessions :=
            if sent then proxy.sessions.put id (session.touch proxy.clock) else proxy.sessions }
        [⟨task.peer, backendResponse rule (datagram.take maxDatagramSize), sent⟩]
  | lost {id : Nat} {source : SocketAddr} {datagram : Bytes} {sent : Bool}
      (hreceiver : proxy.receiver id = none) : Change (.arrive id source datagram sent) proxy []
  | task {id : Nat} {event : TaskEvent} {actions : List ListenerAction} {listener : UdpListener}
      (hrun : run UdpListener.step proxy.listener actions = some listener) :
      Change (.task id event) { proxy with listener := listener } []

section Steps

variable {rule udpSessionIdle proxy} {event : ProxyEvent} {next : UdpProxy}
  {sent : List ClientDatagram}

/-- A move of the table changes nothing else. -/
theorem moved_eq_some {actions : List ListenerAction} (h : proxy.moved actions = some next) :
    ∃ listener, run UdpListener.step proxy.listener actions = some listener ∧
      next = { proxy with listener := listener } := by
  obtain ⟨listener, hrun, hnext⟩ := Option.map_eq_some_iff.mp h
  exact ⟨listener, hrun, hnext.symm⟩

theorem change_of_startObtaining {peer : SocketAddr} {incoming : Incoming}
    (hevent : event.isListener = true)
    (h : proxy.startObtaining rule peer incoming = some (next, sent)) :
    proxy.Change rule event next sent := by
  obtain ⟨moved, hmoved, hnext⟩ := Option.map_eq_some_iff.mp h
  obtain ⟨listener, hrun, rfl⟩ := moved_eq_some hmoved
  cases hnext
  exact .listen hevent hrun rfl

theorem openSession_eq (rule : ListenerRule) (proxy : UdpProxy) (peer : SocketAddr) :
    ∃ sessions, proxy.openSession rule peer = { proxy with sessions := sessions } := by
  unfold openSession
  split
  · exact ⟨proxy.sessions, rfl⟩
  · exact ⟨_, rfl⟩

theorem obtained_eq (proxy : UdpProxy) (peer : SocketAddr) (incoming : Incoming)
    (hstage : proxy.stage.isAnswering = false) :
    ∃ stage, stage.isAnswering = false ∧
      proxy.obtained peer incoming = { proxy with stage := stage } := by
  unfold obtained
  split
  · exact ⟨_, rfl, rfl⟩
  · exact ⟨proxy.stage, hstage, rfl⟩

theorem change_of_obtainStep {peer : SocketAddr} {incoming : Incoming} {obtaining : ObtainEvent}
    (hstage : proxy.stage = .obtaining peer incoming)
    (h : proxy.obtainStep rule peer incoming obtaining = some next) :
    proxy.Change rule (.obtain obtaining) next [] := by
  have hstay : proxy.stage.isAnswering = false := by rw [hstage]; rfl
  cases obtaining with
  | lookup | reset =>
    obtain ⟨listener, hrun, rfl⟩ := moved_eq_some h
    exact .listen rfl hrun hstay
  | check =>
    obtain ⟨moved, hmoved, rfl⟩ := Option.map_eq_some_iff.mp h
    obtain ⟨listener, hrun, rfl⟩ := moved_eq_some hmoved
    obtain ⟨stage, hnot, heq⟩ :=
      obtained_eq { proxy with listener := listener } peer incoming hstay
    rw [heq]
    exact .listen rfl hrun hnot
  | bindSocket bound =>
    obtain ⟨moved, hmoved, rfl⟩ := Option.map_eq_some_iff.mp h
    obtain ⟨listener, hrun, rfl⟩ := moved_eq_some hmoved
    cases bound with
    | true => exact .listen rfl hrun hstay
    | false => exact .listen rfl hrun rfl
  | insert =>
    obtain ⟨moved, hmoved, rfl⟩ := Option.map_eq_some_iff.mp h
    obtain ⟨sessions, hopen⟩ := openSession_eq rule proxy peer
    rw [hopen] at hmoved
    obtain ⟨listener, hrun, rfl⟩ := moved_eq_some hmoved
    obtain ⟨stage, hnot, heq⟩ := obtained_eq
      { proxy with sessions := sessions, listener := listener } peer incoming hstay
    rw [heq]
    exact .listen rfl hrun hnot

theorem change_of_taskStep {id : Nat} {doing : TaskEvent}
    (h : proxy.taskStep rule udpSessionIdle id doing = some next) :
    proxy.Change rule (.task id doing) next [] := by
  have hmoved : ∀ {actions : List ListenerAction}, proxy.moved actions = some next →
      proxy.Change rule (.task id doing) next [] := by
    intro actions h
    obtain ⟨listener, hrun, rfl⟩ := moved_eq_some h
    exact .task hrun
  cases doing with
  | timeout =>
    dsimp only [taskStep] at h
    split at h
    · split at h
      · exact hmoved h
      · cases h
        exact .task (run_nil _ proxy.listener)
    · cases h
  | socketError | cancel | cleanUp => exact hmoved h

theorem change_of_step (h : proxy.step rule udpSessionIdle event = some (next, sent)) :
    proxy.Change rule event next sent := by
  cases event with
  | tick elapsed =>
    dsimp only [step] at h
    split at h <;> cases h
    exact .tick ‹_›
  | receive peer packet admitted =>
    dsimp only [step] at h
    split at h
    · rename_i hidle
      have hstay : proxy.stage.isAnswering = false := by rw [hidle]; rfl
      unfold receive at h
      dsimp only at h
      split at h
      · cases h
        exact .listen rfl (run_nil _ proxy.listener) hstay
      · rename_i hused
        split at h
        · rename_i hcached
          cases h
          have hadmitted : admitted = true := by
            cases admitted with
            | true => rfl
            | false => simp at hused
          rw [hadmitted]
          exact .copy hidle hcached
        · exact change_of_startObtaining rfl h
    · cases h
  | answer ok =>
    dsimp only [step] at h
    split at h
    · rename_i hstage
      unfold answer at h
      dsimp only at h
      split at h
      · cases h
        exact .answer hstage ‹_›
      · exact change_of_startObtaining rfl h
    · cases h
  | obtain obtaining =>
    dsimp only [step] at h
    split at h
    · obtain ⟨after, hafter, heq⟩ := Option.map_eq_some_iff.mp h
      cases heq
      exact change_of_obtainStep ‹_› hafter
    · cases h
  | forward network =>
    dsimp only [step] at h
    split at h
    · obtain ⟨session, _, heq⟩ := Option.map_eq_some_iff.mp h
      cases heq
      exact .listen rfl (run_nil _ proxy.listener) rfl
    · cases h
  | arrive id source datagram ok =>
    dsimp only [step] at h
    split at h
    · rename_i hreceiver
      obtain ⟨moved, hmoved, heq⟩ := Option.map_eq_some_iff.mp h
      obtain ⟨listener, hrun, rfl⟩ := moved_eq_some hmoved
      cases heq
      exact .respond hreceiver hrun
    · cases h
      exact .lost ‹_›
  | task id doing =>
    obtain ⟨after, hafter, heq⟩ := Option.map_eq_some_iff.mp h
    cases heq
    exact change_of_taskStep hafter

/-- **The table takes the steps of its own machine.** -/
theorem step_listener (h : proxy.step rule udpSessionIdle event = some (next, sent)) :
    ∃ actions, run UdpListener.step proxy.listener actions = some next.listener := by
  cases change_of_step h with
  | tick | lost | copy | answer => exact ⟨[], rfl⟩
  | listen _ hrun _ | respond _ hrun | task hrun => exact ⟨_, hrun⟩

/-- What holds of the table in every run of its machine holds in every run of the listener. -/
theorem reaches_listener {ok : UdpProxy → ProxyEvent → Prop}
    (hreach : Reaches (silent (step rule udpSessionIdle)) ok start proxy) :
    Reaches UdpListener.step Always UdpListener.start proxy.listener := by
  induction hreach with
  | start => exact .start
  | next _ _ hstep ih =>
    obtain ⟨sent, hnext⟩ := silent_eq_some_iff.mp hstep
    obtain ⟨actions, hrun⟩ := step_listener hnext
    exact ih.trans (reaches_of_run hrun)

end Steps

end UdpProxy

end FerrumProxy
