import FerrumProxy.BedrockPackets
import FerrumProxy.GuardedRuns
import FerrumProxy.RelayPorts

/-!
# The UDP side of the shared relay

An allocated port is served by a UDP relay task, which binds a socket, registers it in `udp_sockets`
and then receives datagrams: it answers pings from a cache of pongs and forwards everything to the
tenant's UDP tunnel.  The tunnel's handler fills the cache.  After a release the task goes on until
the next datagram shows it that the port is free.

All maps are keyed by the port, and every task works on one port, so the state is one `UdpPort` for
each port beside the allocations.  One lock acquisition is one step.  A socket is an `Arc`: its port
stays bound while the relay task, the map or a tunnel's reader holds a clone.
-/

namespace FerrumProxy

open Str Wire Runs Function

/-- A cached pong, with the allocation that held the port when it was cached. -/
structure CachedPong where
  payload : Bytes
  cachedIn : Option Nat

/-- A pong that was sent from the cache, with the allocations that held the
port when it was cached and when it was sent. -/
structure PongAnswer where
  remoteAddr : SocketAddr
  payload : Bytes
  cachedIn : Option Nat
  answeredIn : Option Nat

/-- The points of `start_udp_relay_port` before its next step. -/
inductive RelayPhase where
  | binding
  | registering (socket : Nat)
  | receiving (socket : Nat)
  /-- A datagram has arrived; the allocation is not yet checked. -/
  | received (socket : Nat) (remoteAddr : SocketAddr) (datagram : Bytes)
  /-- A ping: the cache is not yet read. -/
  | lookingUp (socket : Nat) (remoteAddr : SocketAddr) (datagram : Bytes)
  | sending (socket : Nat) (remoteAddr : SocketAddr) (datagram : Bytes) (pong : CachedPong)
  | forwarding (socket : Nat) (remoteAddr : SocketAddr) (datagram : Bytes)
  /-- The port was found free: the three parts of the clean-up. -/
  | removingSocket (socket : Nat)
  | clearingPongs (socket : Nat)
  | returning (socket : Nat)

/-- The tasks of one port.  A tunnel's channel is named by the identifier of
its handler. -/
inductive UdpTask where
  | relay (spawnedIn : Nat) (phase : RelayPhase)
  /-- `handle_udp_tunnel` has found the port allocated. -/
  | tunnelChecked
  | tunnelRegistering (socket : Nat)
  | tunnelReady (socket : Nat)
  /-- The tunnel's reader and writer run. -/
  | tunnelReading (socket : Nat)
  | tunnelClosed
  /-- `handle_release` has removed the allocation. -/
  | releaseTunnels
  | releaseSocket

/-- What the relay and the operating system keep of one port. -/
structure UdpPort where
  udpTunnel : Option Nat := none
  udpSocket : Option Nat := none
  udpCachedPongs : SocketAddr → Option CachedPong := fun _ => none
  /-- The socket that the port is bound to. -/
  bound : Option Nat := none
  /-- How many clones of a socket there are. -/
  clones : Nat → Nat := fun _ => 0
  tasks : Pool UdpTask := ∅
  answers : List PongAnswer := []

/-- The steps of the tasks of a port. -/
inductive UdpAction where
  | relayBind (task socket : Nat) (fails : Bool)
  | relayRegister (task : Nat)
  | relayReceive (task : Nat) (remoteAddr : SocketAddr) (datagram : Bytes)
  | relayReceiveError (task : Nat)
  | relayCheck (task : Nat)
  | relayLookUp (task : Nat)
  | relaySend (task : Nat) (fails : Bool)
  | relayForward (task : Nat)
  | relayRemoveSocket (task : Nat)
  | relayClearPongs (task : Nat)
  | relayReturn (task : Nat)
  | tunnelCheck (task : Nat)
  | tunnelGetSocket (task : Nat)
  | tunnelInsert (task : Nat)
  | tunnelReady (task : Nat) (fails : Bool)
  | tunnelReply (task : Nat) (remoteAddr : SocketAddr) (frame : Bytes)
  | tunnelEnd (task : Nat)
  | tunnelCleanUp (task : Nat)
  | releaseTunnels (task : Nat)
  | releaseSocket (task : Nat)

namespace UdpPort

/-- One more clone of a socket. -/
def cloneSocket (u : UdpPort) (socket : Nat) : UdpPort :=
  { u with clones := update u.clones socket (u.clones socket + 1) }

/-- A clone, if there is one, goes out of scope; the last one closes the
socket. -/
def dropSocket (u : UdpPort) (dropped : Option Nat) : UdpPort :=
  { u with
    clones := match dropped with
      | some socket => update u.clones socket (u.clones socket - 1)
      | none => u.clones
    bound := match dropped with
      | some socket => if u.clones socket ≤ 1 && u.bound == some socket then none else u.bound
      | none => u.bound }

/-- `udp_sockets.insert`: the entry it replaces is dropped. -/
def insertSocket (u : UdpPort) (socket : Nat) : UdpPort :=
  { u.dropSocket u.udpSocket with udpSocket := some socket }

/-- `udp_sockets.remove`. -/
def removeSocket (u : UdpPort) : UdpPort :=
  { u.dropSocket u.udpSocket with udpSocket := none }

/-- The task of the given identifier is now the given one. -/
def goTo (u : UdpPort) (id : Nat) (task : UdpTask) : UdpPort :=
  { u with tasks := u.tasks.put id task }

/-- The task of the given identifier has returned. -/
def finish (u : UdpPort) (id : Nat) : UdpPort :=
  { u with tasks := u.tasks.drop id }

/-- One step of one task of the port; `held` is what `port_allocations` has
for the port. -/
def step (port : Port) (held : Option Nat) (u : UdpPort) : UdpAction → Option UdpPort
  | .relayBind task socket fails =>
    match u.tasks.lookup task with
    | some (.relay a .binding) =>
      if fails || u.bound.isSome then some (u.finish task)
      else if u.clones socket ≠ 0 then none
      else
        some ({ u.cloneSocket socket with bound := some socket }.goTo task
          (.relay a (.registering socket)))
    | _ => none
  | .relayRegister task =>
    match u.tasks.lookup task with
    | some (.relay a (.registering socket)) =>
      some (((u.cloneSocket socket).insertSocket socket).goTo task
        (.relay a (.receiving socket)))
    | _ => none
  | .relayReceive task remoteAddr datagram =>
    match u.tasks.lookup task with
    | some (.relay a (.receiving socket)) =>
      some (u.goTo task (.relay a (.received socket remoteAddr datagram)))
    | _ => none
  | .relayReceiveError task =>
    match u.tasks.lookup task with
    | some (.relay _ (.receiving socket)) => some ((u.dropSocket (some socket)).finish task)
    | _ => none
  | .relayCheck task =>
    match u.tasks.lookup task with
    | some (.relay a (.received socket remoteAddr datagram)) =>
      if held.isNone then some (u.goTo task (.relay a (.removingSocket socket)))
      else if isOfflinePing datagram then
        some (u.goTo task (.relay a (.lookingUp socket remoteAddr datagram)))
      else some (u.goTo task (.relay a (.forwarding socket remoteAddr datagram)))
    | _ => none
  | .relayLookUp task =>
    match u.tasks.lookup task with
    | some (.relay a (.lookingUp socket remoteAddr datagram)) =>
      match u.udpCachedPongs remoteAddr with
      | some pong => some (u.goTo task (.relay a (.sending socket remoteAddr datagram pong)))
      | none => some (u.goTo task (.relay a (.forwarding socket remoteAddr datagram)))
    | _ => none
  | .relaySend task fails =>
    match u.tasks.lookup task with
    | some (.relay a (.sending socket remoteAddr datagram pong)) =>
      let timestamp := (datagram.drop 1).take 8
      let immediatePong :=
        (rewriteUnconnectedPongTimestamp pong.payload timestamp).getD pong.payload
      let sent := if fails then [] else [⟨remoteAddr, immediatePong, pong.cachedIn, held⟩]
      some ({ u with answers := u.answers ++ sent }.goTo task
        (.relay a (.forwarding socket remoteAddr datagram)))
    | _ => none
  | .relayForward task =>
    match u.tasks.lookup task with
    | some (.relay a (.forwarding socket _ _)) => some (u.goTo task (.relay a (.receiving socket)))
    | _ => none
  | .relayRemoveSocket task =>
    match u.tasks.lookup task with
    | some (.relay a (.removingSocket socket)) =>
      some (u.removeSocket.goTo task (.relay a (.clearingPongs socket)))
    | _ => none
  | .relayClearPongs task =>
    match u.tasks.lookup task with
    | some (.relay a (.clearingPongs socket)) =>
      some ({ u with udpCachedPongs := fun _ => none }.goTo task (.relay a (.returning socket)))
    | _ => none
  | .relayReturn task =>
    match u.tasks.lookup task with
    | some (.relay _ (.returning socket)) => some ((u.dropSocket (some socket)).finish task)
    | _ => none
  | .tunnelCheck task =>
    if (u.tasks.lookup task).isSome then none
    else if held.isNone then some u
    else some (u.goTo task .tunnelChecked)
  | .tunnelGetSocket task =>
    match u.tasks.lookup task with
    | some .tunnelChecked =>
      match u.udpSocket with
      | none => some (u.finish task)
      | some socket => some ((u.cloneSocket socket).goTo task (.tunnelRegistering socket))
    | _ => none
  | .tunnelInsert task =>
    match u.tasks.lookup task with
    | some (.tunnelRegistering socket) =>
      some ({ u with udpTunnel := some task }.goTo task (.tunnelReady socket))
    | _ => none
  | .tunnelReady task fails =>
    match u.tasks.lookup task with
    | some (.tunnelReady socket) =>
      if fails then some ((u.dropSocket (some socket)).finish task)
      else some (u.goTo task (.tunnelReading socket))
    | _ => none
  | .tunnelReply task remoteAddr frame =>
    match u.tasks.lookup task with
    | some (.tunnelReading _) =>
      let payload := (rewriteUnconnectedPongPorts frame port).getD frame
      if isUnconnectedPong payload then
        some { u with
          udpCachedPongs := update u.udpCachedPongs remoteAddr
            (some ⟨payload, held⟩) }
      else some u
    | _ => none
  | .tunnelEnd task =>
    match u.tasks.lookup task with
    | some (.tunnelReading socket) => some ((u.dropSocket (some socket)).goTo task .tunnelClosed)
    | _ => none
  | .tunnelCleanUp task =>
    match u.tasks.lookup task with
    | some .tunnelClosed =>
      if u.udpTunnel = some task then some ({ u with udpTunnel := none }.finish task)
      else some (u.finish task)
    | _ => none
  | .releaseTunnels task =>
    match u.tasks.lookup task with
    | some .releaseTunnels => some ({ u with udpTunnel := none }.goTo task .releaseSocket)
    | _ => none
  | .releaseSocket task =>
    match u.tasks.lookup task with
    | some .releaseSocket => some (u.removeSocket.finish task)
    | _ => none

end UdpPort

open UdpPort
/-- All ports. -/
structure UdpRelay where
  ports : PortHistory := {}
  relays : Port → UdpPort := fun _ => {}

/-- The steps of the relay. -/
inductive UdpRelayAction where
  | connect (task : Nat) (token : Option Text) (clientAddr : SocketAddr)
      (fixedPort : Option Port) (mixed : Nat)
  | release (task : Nat) (port : Port)
  | onPort (port : Port) (action : UdpAction)

/-- `CONNECT` allocates a port and starts its relay task, `RELEASE` removes the
allocation and goes on as a task, and every other step is one of a port. -/
def UdpRelay.step (range : SharedServicePortRange) (s : UdpRelay) :
    UdpRelayAction → Option UdpRelay
  | .connect task token clientAddr fixedPort mixed =>
    match s.ports.tryAllocate range mixed token clientAddr fixedPort with
    | (.allocated port, ports) =>
      if ((s.relays port).tasks.lookup task).isSome then none
      else
        some
          { ports := ports
            relays := update s.relays port
              ((s.relays port).goTo task (.relay (ports.count port) .binding)) }
    | _ => some s
  | .release task port =>
    if (s.ports.portAllocations.lookup port).isNone then some s
    else if ((s.relays port).tasks.lookup task).isSome then none
    else
      some
        { ports := s.ports.release port
          relays := update s.relays port ((s.relays port).goTo task .releaseTunnels) }
  | .onPort port action =>
    match (s.relays port).step port (s.ports.held port) action with
    | none => none
    | some u => some { s with relays := update s.relays port u }

/-! ## Isolation -/

/-- No ping was answered, while an allocation held the port, with a pong that
was cached outside that allocation. -/
def UdpPort.PongsCurrent (u : UdpPort) : Prop :=
  ∀ answer ∈ u.answers, ∀ a, answer.answeredIn = some a → answer.cachedIn = some a

/-- A relay task that has not yet registered its socket. -/
def UdpTask.starting : UdpTask → Bool
  | .relay _ .binding => true
  | .relay _ (.registering _) => true
  | _ => false

/-- The relay task receives on the socket and handles what it receives. -/
def RelayPhase.Serves (socket : Nat) : RelayPhase → Prop
  | .receiving held => held = socket
  | .received held _ _ => held = socket
  | .lookingUp held _ _ => held = socket
  | .sending held _ _ _ => held = socket
  | .forwarding held _ _ => held = socket
  | _ => False

/-- `udp_sockets` has the socket of a relay task that serves the allocation. -/
def UdpPort.Served (u : UdpPort) (a : Nat) : Prop :=
  ∃ socket id phase, u.udpSocket = some socket ∧ u.tasks.lookup id = some (.relay a phase) ∧
    phase.Serves socket

/-- The two guarantees of a tenant. -/
structure UdpRelay.Isolated (s : UdpRelay) : Prop where
  pongs : ∀ port, (s.relays port).PongsCurrent
  served : ∀ port a, s.ports.held port = some a →
    (s.relays port).tasks.All (fun task => task.starting = false) → (s.relays port).Served a

/-- Nothing of an earlier allocation is left: no task runs for the port, its
socket is closed and no pong is cached. -/
structure UdpPort.Quiet (u : UdpPort) : Prop where
  tasks : ∀ id, u.tasks.lookup id = none
  bound : u.bound = none
  pongs : ∀ remoteAddr, u.udpCachedPongs remoteAddr = none

/-- Ports change hands with nothing left over: every free port that a `CONNECT`
could be given is quiet.  The operating system reports no error on bind and
receive. -/
def UdpRelay.CleanHandover (range : SharedServicePortRange) (s : UdpRelay) :
    UdpRelayAction → Prop
  | .connect _ _ _ fixedPort _ =>
    ∀ port, WantsPort range fixedPort port → s.ports.portAllocations.lookup port = none →
      (s.relays port).Quiet
  | .onPort _ (.relayBind _ _ fails) => fails = false
  | .onPort _ (.relayReceiveError _) => False
  | _ => True

/-- What the relay task of an allocated port has established. -/
def RelayPhase.Fits (u : UdpPort) (a : Nat) : RelayPhase → Prop
  | .binding => u.bound = none
  | .registering _ => True
  | .receiving socket => u.udpSocket = some socket
  | .received socket _ _ => u.udpSocket = some socket
  | .lookingUp socket _ _ => u.udpSocket = some socket
  | .sending socket _ _ pong => u.udpSocket = some socket ∧ pong.cachedIn = some a
  | .forwarding socket _ _ => u.udpSocket = some socket
  | _ => False

/-- A tunnel handler: neither a relay task nor a release under way. -/
def UdpTask.IsTunnel : UdpTask → Prop
  | .relay _ _ => False
  | .releaseTunnels => False
  | .releaseSocket => False
  | _ => True

/-- The port is served: task `id` is the only relay task, it was started for
allocation `a`, no release is under way, and all pongs are of `a`. -/
structure UdpPort.Serving (u : UdpPort) (a id : Nat) : Prop where
  relay : ∃ phase : RelayPhase, u.tasks.lookup id = some (.relay a phase) ∧ phase.Fits u a
  others : ∀ other task, other ≠ id → u.tasks.lookup other = some task → task.IsTunnel
  pongs : ∀ remoteAddr pong, u.udpCachedPongs remoteAddr = some pong → pong.cachedIn = some a

theorem RelayPhase.Fits.congr {u v : UdpPort} {a : Nat} {phase : RelayPhase} (h : phase.Fits u a)
    (hsocket : v.udpSocket = u.udpSocket) (hbound : u.bound = none → v.bound = none) :
    phase.Fits v a := by
  cases phase with
  | binding => exact hbound h
  | registering socket => trivial
  | receiving | received | lookingUp | forwarding => exact hsocket.trans h
  | sending socket remoteAddr datagram pong => exact ⟨hsocket.trans h.1, h.2⟩
  | removingSocket | clearingPongs | returning => exact h

theorem UdpPort.dropSocket_bound (u : UdpPort) (dropped : Option Nat) (h : u.bound = none) :
    (u.dropSocket dropped).bound = none := by
  cases dropped with
  | none => exact h
  | some socket => simp [dropSocket, h]

open UdpPort

namespace UdpPort.Serving

variable {u v : UdpPort} {a id task b : Nat} {phase : RelayPhase} {found : UdpTask}

section

variable (h : u.Serving a id)

include h

/-- A task of the port is a tunnel handler or the relay task that serves it. -/
theorem task_cases (htask : u.tasks.lookup task = some found) :
    task ≠ id ∧ found.IsTunnel ∨
      task = id ∧ ∃ phase : RelayPhase, found = .relay a phase ∧ phase.Fits u a := by
  by_cases hid : task = id
  · subst hid
    obtain ⟨phase, hrelay, hfits⟩ := h.relay
    exact .inr ⟨rfl, phase, Pool.lookup_unique hrelay htask, hfits⟩
  · exact .inl ⟨hid, h.others task found hid htask⟩

/-- The relay task that takes a step is the one that serves the port. -/
theorem relay_at (htask : u.tasks.lookup task = some (.relay b phase)) :
    task = id ∧ b = a ∧ phase.Fits u a := by
  rcases h.task_cases htask with ⟨_, htunnel⟩ | ⟨hid, served, hserved, hfits⟩
  · exact htunnel.elim
  · cases hserved
    exact ⟨hid, rfl, hfits⟩

theorem tunnel_ne (htask : u.tasks.lookup task = some found) (htunnel : found.IsTunnel) :
    task ≠ id := by
  rcases h.task_cases htask with ⟨hne, _⟩ | ⟨_, phase, rfl, _⟩
  · exact hne
  · exact htunnel.elim

theorem goRelay (htasks : v.tasks = u.tasks.put id (.relay a phase)) (hfits : phase.Fits v a)
    (hpongs : v.udpCachedPongs = u.udpCachedPongs) : v.Serving a id := by
  refine ⟨⟨phase, ?_, hfits⟩, ?_, ?_⟩
  · rw [htasks, Pool.put_self]
  · intro other task hne hother
    rw [htasks, Pool.put_ne _ _ hne] at hother
    exact h.others other task hne hother
  · rw [hpongs]
    exact h.pongs

/-- A tunnel handler takes a step. -/
theorem goTunnel (hne : task ≠ id)
    (htasks : v.tasks = u.tasks.drop task ∨
      ∃ found : UdpTask, v.tasks = u.tasks.put task found ∧ found.IsTunnel)
    (hsocket : v.udpSocket = u.udpSocket) (hbound : u.bound = none → v.bound = none)
    (hpongs : v.udpCachedPongs = u.udpCachedPongs) : v.Serving a id := by
  obtain ⟨phase, hrelay, hfits⟩ := h.relay
  have hsame : v.tasks.lookup id = u.tasks.lookup id := by
    rcases htasks with hdrop | ⟨found, hput, _⟩
    · rw [hdrop, Pool.drop_ne _ (Ne.symm hne)]
    · rw [hput, Pool.put_ne _ _ (Ne.symm hne)]
  refine ⟨⟨phase, hsame.trans hrelay, hfits.congr hsocket hbound⟩, ?_, ?_⟩
  · intro other task hother hfound
    rcases htasks with hdrop | ⟨found, hput, htunnel⟩
    · rw [hdrop] at hfound
      exact h.others other task hother (Pool.drop_eq_some hfound).2
    · rw [hput] at hfound
      rcases Pool.put_eq_some hfound with ⟨_, rfl⟩ | ⟨_, hold⟩
      · exact htunnel
      · exact h.others other task hother hold
  · rw [hpongs]
    exact h.pongs

end

variable {port : Port} {action : UdpAction}

section

variable (h : u.Serving a id)

include h

/-- A pong is cached under the allocation that holds the port. -/
theorem tunnelReply {remoteAddr : SocketAddr} {frame : Bytes}
    (hstep : u.step port (some a) (.tunnelReply task remoteAddr frame) = some v) :
    v.Serving a id := by
  dsimp only [step] at hstep
  repeat' split at hstep
  all_goals cases hstep
  · obtain ⟨phase, hrelay, hfits⟩ := h.relay
    refine ⟨⟨phase, hrelay, hfits.congr rfl (fun h => h)⟩, h.others, ?_⟩
    intro remote pong hpong
    dsimp only at hpong
    by_cases hremote : remote = remoteAddr
    · subst hremote
      rw [update_self] at hpong
      cases hpong
      rfl
    · rw [update_of_ne hremote] at hpong
      exact h.pongs remote pong hpong
  · exact h

/-- One step of the port keeps it served, as long as the operating system
reports no error. -/
theorem step {range : SharedServicePortRange} {s : UdpRelay}
    (hok : s.CleanHandover range (.onPort port action))
    (hstep : u.step port (some a) action = some v) : v.Serving a id := by
  cases action <;> dsimp only [UdpPort.step] at hstep
  case relayReceiveError => exact hok.elim
  case tunnelReply => exact h.tunnelReply hstep
  case tunnelCheck task =>
    obtain ⟨hfresh, hstep⟩ := Option.ite_none_left_eq_some.mp hstep
    cases hstep
    have hne : task ≠ id := by
      intro hid
      obtain ⟨phase, hrelay, _⟩ := h.relay
      exact hfresh (by rw [hid, hrelay]; rfl)
    exact h.goTunnel hne (.inr ⟨_, rfl, trivial⟩) rfl (fun h => h) rfl
  case relayBind =>
    split at hstep
    · next htask =>
      obtain ⟨rfl, rfl, hfits⟩ := h.relay_at htask
      have hbound : u.bound = none := hfits
      rw [show _ = false from hok, hbound] at hstep
      obtain ⟨_, hstep⟩ := Option.ite_none_left_eq_some.mp hstep
      cases hstep
      exact h.goRelay rfl trivial rfl
    · cases hstep
  case relayLookUp =>
    split at hstep
    · next htask =>
      obtain ⟨rfl, rfl, hfits⟩ := h.relay_at htask
      split at hstep <;> cases hstep
      · next hpong => exact h.goRelay rfl ⟨hfits, h.pongs _ _ hpong⟩ rfl
      · exact h.goRelay rfl hfits rfl
    · cases hstep
  case releaseTunnels | releaseSocket =>
    split at hstep
    · next htask =>
      rcases h.task_cases htask with ⟨_, htunnel⟩ | ⟨_, phase, hrelay, _⟩
      · exact htunnel.elim
      · cases hrelay
    · cases hstep
  case relayRemoveSocket | relayClearPongs | relayReturn =>
    split at hstep
    · next htask => exact (h.relay_at htask).2.2.elim
    · cases hstep
  case relayCheck =>
    split at hstep
    · next htask =>
      obtain ⟨rfl, rfl, hfits⟩ := h.relay_at htask
      rw [Option.isNone_some, if_neg Bool.false_ne_true] at hstep
      split at hstep <;> cases hstep
      all_goals exact h.goRelay rfl hfits rfl
    · cases hstep
  case relayRegister | relayReceive | relaySend | relayForward =>
    split at hstep <;> cases hstep
    next htask =>
    obtain ⟨rfl, rfl, hfits⟩ := h.relay_at htask
    exact h.goRelay rfl (by first | exact hfits | exact hfits.1 | rfl) rfl
  -- the other steps are those of a tunnel handler
  all_goals
    (repeat' split at hstep) <;> cases hstep
  all_goals
    have hne := h.tunnel_ne ‹_› (by trivial)
    refine h.goTunnel hne (by first | exact .inl rfl | exact .inr ⟨_, rfl, trivial⟩) rfl ?_ rfl
    first | exact fun h => h | exact u.dropSocket_bound (some _)

end

end UdpPort.Serving

variable {port : Port} {action : UdpAction}

theorem UdpPort.step_answers {u v : UdpPort} {held : Option Nat}
    (hstep : u.step port held action = some v) :
    v.answers = u.answers ∨
      ∃ task b socket remoteAddr datagram pong payload,
        u.tasks.lookup task = some (.relay b (.sending socket remoteAddr datagram pong)) ∧
          v.answers = u.answers ++ [⟨remoteAddr, payload, pong.cachedIn, held⟩] := by
  cases action with
  | relaySend task fails =>
    dsimp only [step] at hstep
    split at hstep <;> cases hstep
    next b socket remoteAddr datagram pong htask =>
    cases fails with
    | true => exact .inl (List.append_nil _)
    | false => exact .inr ⟨task, b, socket, remoteAddr, datagram, pong, _, htask, rfl⟩
  | _ =>
    dsimp only [step] at hstep
    repeat' split at hstep
    all_goals cases hstep
    all_goals exact .inl rfl

/-- The allocation that holds the port, if any, is served. -/
def UdpPort.HolderServed (ports : PortHistory) (port : Port) (u : UdpPort) : Prop :=
  ∀ a, ports.held port = some a → ∃ id, u.Serving a id

/-- The invariant of runs with clean handovers. -/
structure UdpRelay.Sound (s : UdpRelay) : Prop where
  pongs : ∀ port, (s.relays port).PongsCurrent
  serving : ∀ port, (s.relays port).HolderServed s.ports port

theorem UdpPort.Serving.served {u : UdpPort} {a id : Nat} (h : u.Serving a id)
    (hstarted : u.tasks.All (fun task => task.starting = false)) : u.Served a := by
  obtain ⟨phase, hrelay, hfits⟩ := h.relay
  have hphase := hstarted id _ hrelay
  cases phase with
  | binding | registering => cases hphase
  | receiving socket | received socket remoteAddr datagram | lookingUp socket remoteAddr datagram
  | forwarding socket remoteAddr datagram => exact ⟨socket, id, _, hfits, hrelay, rfl⟩
  | sending socket remoteAddr datagram pong => exact ⟨socket, id, _, hfits.1, hrelay, rfl⟩
  | removingSocket | clearingPongs | returning => cases hfits

theorem UdpPort.Quiet.serving {u : UdpPort} (h : u.Quiet) (a task : Nat) :
    (u.goTo task (.relay a .binding)).Serving a task := by
  refine ⟨⟨.binding, Pool.put_self .., h.bound⟩, ?_, ?_⟩
  · intro other found hne hfound
    rcases Pool.put_eq_some hfound with ⟨hid, _⟩ | ⟨_, hold⟩
    · exact absurd hid hne
    · rw [h.tasks other] at hold
      cases hold
  · intro remoteAddr pong hpong
    have hnone := h.pongs remoteAddr
    rw [show u.udpCachedPongs remoteAddr = some pong from hpong] at hnone
    cases hnone

variable {range : SharedServicePortRange} {s t : UdpRelay}

/-- What holds of every port's record still holds when one record is replaced
by one of which it holds. -/
theorem relays_update (P : Port → UdpPort → Prop) {relays : Port → UdpPort} {u : UdpPort}
    (hothers : ∀ q, q ≠ port → P q (relays q)) (hport : P port u) :
    ∀ q, P q (update relays port u q) := by
  intro q
  by_cases hq : q = port
  · subst hq
    rw [update_self]
    exact hport
  · rw [update_of_ne hq]
    exact hothers q hq

theorem udp_sound_connect {task mixed : Nat} {token : Option Text} {clientAddr : SocketAddr}
    {fixedPort : Option Port} (hs : s.Sound)
    (hclean : s.CleanHandover range (.connect task token clientAddr fixedPort mixed))
    (hstep : s.step range (.connect task token clientAddr fixedPort mixed) = some t) :
    t.Sound := by
  dsimp only [UdpRelay.step] at hstep
  rcases s.ports.tryAllocate_cases range mixed token clientAddr fixedPort with
    ⟨p, hresult, hfree, hwants⟩ | hresult | hresult
  · rw [hresult] at hstep
    dsimp only at hstep
    split at hstep <;> cases hstep
    have hquiet := hclean p hwants (PortHistory.held_eq_none.mp hfree)
    constructor
    · exact relays_update (fun _ => PongsCurrent) (fun q _ => hs.pongs q) (hs.pongs p)
    · apply relays_update (HolderServed _)
      · intro q hq a hheld
        rw [PortHistory.held_allocate_ne _ _ hq] at hheld
        exact hs.serving q a hheld
      · intro a hheld
        have hnumber := PortHistory.held_eq_some hheld
        rw [hnumber]
        exact ⟨task, hquiet.serving _ task⟩
  all_goals
    rw [hresult] at hstep
    cases hstep
    exact hs

theorem udp_sound_release {task : Nat} (hs : s.Sound)
    (hstep : s.step range (.release task port) = some t) : t.Sound := by
  dsimp only [UdpRelay.step] at hstep
  split at hstep
  · cases hstep
    exact hs
  · split at hstep <;> cases hstep
    constructor
    · exact relays_update (fun _ => PongsCurrent) (fun q _ => hs.pongs q) (hs.pongs port)
    · apply relays_update (HolderServed _)
      · intro q hq a hheld
        rw [PortHistory.held_release_ne _ hq] at hheld
        exact hs.serving q a hheld
      · intro a hheld
        rw [PortHistory.held_release_self] at hheld
        cases hheld

theorem udp_sound_onPort (hs : s.Sound) (hclean : s.CleanHandover range (.onPort port action))
    (hstep : s.step range (.onPort port action) = some t) : t.Sound := by
  dsimp only [UdpRelay.step] at hstep
  split at hstep <;> cases hstep
  next hlocal =>
  constructor
  · apply relays_update (fun _ => PongsCurrent) (fun q _ => hs.pongs q)
    rcases step_answers hlocal with hsame | hsent
    · intro answer hanswer
      rw [hsame] at hanswer
      exact hs.pongs port answer hanswer
    · obtain ⟨task, b, socket, remoteAddr, datagram, pong, payload, htask, hanswers⟩ := hsent
      intro answer hanswer
      rw [hanswers] at hanswer
      rcases List.mem_append.mp hanswer with hold | hnew
      · exact hs.pongs port answer hold
      · cases List.mem_singleton.mp hnew
        intro a hheld
        obtain ⟨id, hserving⟩ := hs.serving port a hheld
        exact (hserving.relay_at htask).2.2.2
  · apply relays_update (HolderServed _) (fun q _ => hs.serving q)
    intro a hheld
    obtain ⟨id, hserving⟩ := hs.serving port a hheld
    rw [show s.ports.held port = some a from hheld] at hlocal
    exact ⟨id, hserving.step hclean hlocal⟩

/-- **Tenant isolation of the UDP side under clean handovers.**  In every run
whose steps all meet `CleanHandover`, pings are answered with pongs of the
current allocation only, and once the relay tasks of an allocated port have
started, `udp_sockets` has the socket of the task that serves it. -/
theorem udp_tenants_isolated
    (hreach : Reaches (UdpRelay.step range) (UdpRelay.CleanHandover range) {} s) :
    s.Isolated := by
  have hsound : s.Sound := by
    apply hreach.invariant
    · constructor
      · intro port answer hanswer
        cases hanswer
      · intro port a hheld
        cases hheld
    · intro s action t hs hclean hstep
      cases action with
      | connect task token clientAddr fixedPort mixed => exact udp_sound_connect hs hclean hstep
      | release task port => exact udp_sound_release hs hstep
      | onPort port action => exact udp_sound_onPort hs hclean hstep
  refine ⟨hsound.pongs, ?_⟩
  intro port a hheld hstarted
  obtain ⟨id, hserving⟩ := hsound.serving port a hheld
  exact hserving.served hstarted

/-! ## The second tenant of a port -/

def pingDatagram : Bytes := [0x01] ++ List.replicate 8 0 ++ raknetOfflineMessageId

def pongFrame : Bytes := [0x1c] ++ List.replicate 16 0 ++ raknetOfflineMessageId ++ [0, 0]

/-- A player on the public side. -/
def publicAddr : SocketAddr where
  ip := .v4 ⟨[198, 51, 100, 9], rfl⟩
  port := 19132

/-- A tenant allocates the port, opens a UDP tunnel and sends a pong. -/
def firstUdpTenant : List UdpRelayAction :=
  .connect 0 none tenantAddr none 0 ::
    [.relayBind 0 7 false, .relayRegister 0, .tunnelCheck 1, .tunnelGetSocket 1, .tunnelInsert 1,
      .tunnelReady 1 false, .tunnelReply 1 publicAddr pongFrame].map (.onPort 40000)

/-- A ping that relay task 0 answers from the cache. -/
def answeredPing : List UdpRelayAction :=
  [.relayReceive 0 publicAddr pingDatagram, .relayCheck 0, .relayLookUp 0, .relaySend 0 false].map
    (.onPort 40000)

/-- The port is released and allocated again before relay task 0 has looked:
the new relay task cannot bind. -/
def udpHandover : List UdpRelayAction :=
  [.release 2 40000, .onPort 40000 (.releaseTunnels 2), .onPort 40000 (.releaseSocket 2),
    .connect 3 none tenantAddr none 0, .onPort 40000 (.relayBind 3 8 false)]

/-- The port is released, its tunnel ends, and relay task 0 finds the port free and cleans up. -/
def quietHandover : List UdpRelayAction :=
  .release 2 40000 ::
    [.releaseTunnels 2, .releaseSocket 2, .tunnelEnd 1, .tunnelCleanUp 1, .relayForward 0,
      .relayReceive 0 publicAddr pingDatagram, .relayCheck 0, .relayRemoveSocket 0,
      .relayClearPongs 0, .relayReturn 0].map (.onPort 40000)

theorem udp_cleanHandover_one {task mixed : Nat}
    (htasks : (s.relays 40000).tasks.entries.isEmpty = true)
    (hbound : (s.relays 40000).bound = none)
    (hpongs : ∀ remoteAddr, (s.relays 40000).udpCachedPongs remoteAddr = none) :
    s.CleanHandover oneRelayPort (.connect task none tenantAddr none mixed) := by
  intro port hwants _
  rw [wantsPort_one hwants]
  refine ⟨fun id => ?_, hbound, hpongs⟩
  rw [AList.lookup, List.isEmpty_iff.mp htasks]
  rfl

/-- Two tenants have the port one after the other, and each gets both guarantees. -/
theorem udp_tenants_isolated_first :
    ∃ s, Reaches (UdpRelay.step oneRelayPort) (UdpRelay.CleanHandover oneRelayPort) {} s ∧
      (s.relays 40000).answers.map (·.answeredIn) = [some 1, some 2] ∧ s.Isolated := by
  have hguarded : Guarded (UdpRelay.step oneRelayPort) (UdpRelay.CleanHandover oneRelayPort) {}
      (firstUdpTenant ++ answeredPing ++ quietHandover ++ (firstUdpTenant ++ answeredPing)) :=
    ⟨udp_cleanHandover_one rfl rfl (fun _ => rfl), rfl, trivial, trivial, trivial, trivial,
      trivial, trivial, trivial, trivial, trivial, trivial, trivial, trivial, trivial, trivial,
      trivial, trivial, trivial, trivial, trivial, trivial, trivial,
      udp_cleanHandover_one (by decide +kernel) (by decide +kernel) (fun _ => rfl), rfl, trivial,
      trivial, trivial, trivial, trivial, trivial, trivial, trivial, trivial, trivial, trivial⟩
  have hreach := reaches_of_guarded hguarded rfl
  exact ⟨_, hreach, rfl, udp_tenants_isolated hreach⟩

/-- **The second tenant's players see the first tenant's pong**, and the
second tenant's tunnel finds no socket. -/
theorem udp_tenants_mixed :
    ∃ s, Reaches (UdpRelay.step oneRelayPort) Always {} s ∧
      ¬ (∀ port, (s.relays port).PongsCurrent) ∧
      ¬ (∀ port a, s.ports.held port = some a →
        (s.relays port).tasks.All (fun task => task.starting = false) →
        (s.relays port).Served a) := by
  have hrun : run (UdpRelay.step oneRelayPort) {}
      (firstUdpTenant ++ udpHandover ++ answeredPing) = some _ := rfl
  refine ⟨_, reaches_of_run hrun, ?_, ?_⟩
  · intro hpongs
    have hsame := hpongs 40000 _ List.mem_cons_self 2 rfl
    exact absurd hsame (by decide)
  · intro hserved
    obtain ⟨socket, id, phase, hsocket, _⟩ :=
      hserved 40000 2 rfl (Pool.all_of_entries (by decide +kernel))
    have hnone : (none : Option Nat) = some socket := hsocket
    cases hnone

end FerrumProxy
