import FerrumProxy.ConnectTargets
import FerrumProxy.Histories
import FerrumProxy.ShareClient

/-!
# The tunnel loops of the command-line client

When `RelayShareClient` has got a port it starts its tunnel loops, eight for TCP and one for UDP.
Each loop opens tunnels for the port one after another, as long as the client is not stopped and its
`generation` is the one the loop was started with.

A refresh adds one to the generation before it gives the old port back, and the next loops are
started only after `CONNECT` was answered with a new port.  If there is no such answer the old loops
end, and the heartbeats that succeed from then on do not start others.
-/

namespace FerrumProxy

open Runs

/-- What a loop opens tunnels for. -/
inductive TunnelKind where
  | tcp
  | udp
  deriving DecidableEq

def tcpTunnelPoolSize : Nat := 8

/-- The loops that `startTunnelLoops` starts. -/
def ProtocolMode.loops : ProtocolMode → List TunnelKind
  | .tcp => List.replicate tcpTunnelPoolSize .tcp
  | .udp => [.udp]
  | .both => List.replicate tcpTunnelPoolSize .tcp ++ [.udp]

/-- The await a loop has come to. -/
inductive LoopPhase where
  | opening
  | sleeping
  deriving DecidableEq

/-- `runTcpTunnelLoop` and `runUdpTunnelLoop`. -/
structure TunnelLoop where
  kind : TunnelKind
  publicPort : Nat
  generation : Nat
  phase : LoopPhase := .opening
  deriving DecidableEq

/-! ## What the operations do to the loops -/

/-- The changes of the generation. -/
inductive LoopChange where
  /-- `stop` and `refreshRelayAllocation`. -/
  | discard
  /-- `startTunnelLoops`. -/
  | start (publicPort : Nat)
  deriving DecidableEq

/-- The port for which a change starts loops. -/
def LoopChange.started : Option LoopChange → Option Nat
  | some (.start publicPort) => some publicPort
  | _ => none

/-- What an operation that goes on with an answer, or without one, does to the generation. -/
def ShareAwait.loopChange (reply : Option RelayReply) : ShareAwait → Option LoopChange
  | .heartbeatPing => if reply = some .accepted then none else some .discard
  | .startConnect | .refreshConnect =>
    match reply with
    | some (.granted port) => some (.start port)
    | _ => none
  | _ => none

def ShareClient.loopChange (s : ShareClient) : ShareEvent → Option LoopChange
  | .stop _ => some .discard
  | .replied socket _ =>
    match s.tasks.lookup socket with
    | some ⟨await, .answered reply, _⟩ => await.loopChange (some reply)
    | _ => none
  | .failed socket _ =>
    match s.tasks.lookup socket with
    | some task => task.await.loopChange none
    | none => none
  | _ => none

/-! ## The client with its loops -/

/-- The client with its generation and its loops. -/
structure PooledClient where
  client : ShareClient := {}
  generation : Nat := 0
  loops : List TunnelLoop := []

/-- The steps of the client and of its loops. -/
inductive PoolEvent where
  | share (event : ShareEvent)
  /-- `openTcpTunnel` or `openUdpTunnel` returns to a loop. -/
  | tunnelClosed (index : Nat)
  | tunnelFailed (index : Nat)
  | slept (index : Nat)

namespace PooledClient

/-- The condition of the loops. -/
def goesOn (s : PooledClient) (loop : TunnelLoop) : Bool :=
  !s.client.stopped && loop.generation == s.generation

/-- A loop comes to its condition: it opens a tunnel or ends. -/
def turn (s : PooledClient) (index : Nat) (loop : TunnelLoop) : PooledClient :=
  if s.goesOn loop then { s with loops := s.loops.set index { loop with phase := .opening } }
  else { s with loops := s.loops.eraseIdx index }

/-- The loops that are started come to their condition at once. -/
def startTunnelLoops (protocol : ProtocolMode) (s : PooledClient) (publicPort : Nat) :
    PooledClient :=
  { s with
    generation := s.generation + 1
    loops := s.loops ++
      if s.client.stopped then []
      else protocol.loops.map (fun kind => { kind, publicPort, generation := s.generation + 1 }) }

def change (protocol : ProtocolMode) (s : PooledClient) : Option LoopChange → PooledClient
  | some .discard => { s with generation := s.generation + 1 }
  | some (.start publicPort) => s.startTunnelLoops protocol publicPort
  | none => s

def step (protocol : ProtocolMode) (hasToken : Bool) (s : PooledClient) :
    PoolEvent → Option PooledClient
  | .share event =>
    (s.client.step hasToken event).map fun client =>
      { s with client }.change protocol (s.client.loopChange event)
  | .tunnelClosed index =>
    (s.loops[index]?).bind fun loop =>
      if loop.phase = .opening then some (s.turn index loop) else none
  | .tunnelFailed index =>
    (s.loops[index]?).bind fun loop =>
      if loop.phase = .opening then
        if s.goesOn loop then
          some { s with loops := s.loops.set index { loop with phase := .sleeping } }
        else some (s.turn index loop)
      else none
  | .slept index =>
    (s.loops[index]?).bind fun loop =>
      if loop.phase = .sleeping then some (s.turn index loop) else none

/-- The changes that the operations of a step make. -/
def changes (s : PooledClient) : PoolEvent → List LoopChange
  | .share event => (s.client.loopChange event).toList
  | .tunnelClosed _ | .tunnelFailed _ | .slept _ => []

/-- The loops of the current generation, and their ports. -/
def running (s : PooledClient) : List (TunnelKind × Nat) :=
  s.loops.filterMap (fun loop =>
    if loop.generation = s.generation then some (loop.kind, loop.publicPort) else none)

/-- The loops of the current generation run for the port of the endpoint, all of them. -/
def PoolUp (protocol : ProtocolMode) (s : PooledClient) : Prop :=
  ∃ port, s.client.endpoint = some port ∧ s.running = protocol.loops.map (fun kind => (kind, port))

end PooledClient

/-! ## Changes of the endpoint -/

open List Option

namespace ShareClient

variable {hasToken : Bool} {s t : ShareClient}

/-- A refresh leaves the endpoint at first. -/
theorem stopped_refreshRelayAllocation (s : ShareClient) (socket : Nat) :
    (s.refreshRelayAllocation socket).stopped = s.stopped ∧
      (s.refreshRelayAllocation socket).endpoint = s.endpoint := by
  unfold refreshRelayAllocation
  split <;> exact ⟨rfl, rfl⟩

/-- An operation that goes on sets the endpoint if it starts loops, and not otherwise. -/
theorem resume_change (s : ShareClient) (next : Nat) (reply : Option RelayReply)
    (await : ShareAwait) :
    (s.resume hasToken next reply await).stopped = s.stopped ∧
      (s.resume hasToken next reply await).endpoint =
        (LoopChange.started (await.loopChange reply)).or s.endpoint := by
  cases await with
  | startStats | startToken =>
    dsimp only [resume]
    split <;> exact ⟨rfl, rfl⟩
  | startConnect | refreshConnect => rcases reply with _ | _ | port | _ <;> exact ⟨rfl, rfl⟩
  | stopRelease port | refreshRelease port => exact ⟨rfl, rfl⟩
  | heartbeatPing =>
    dsimp only [resume, ShareAwait.loopChange]
    split
    · exact ⟨rfl, rfl⟩
    · exact s.stopped_refreshRelayAllocation next

/-- Stopping leaves the endpoint. -/
theorem stop_change (s : ShareClient) (socket : Nat) :
    (s.stop socket).stopped = true ∧ (s.stop socket).endpoint = s.endpoint := by
  unfold stop
  split <;> exact ⟨rfl, rfl⟩

variable {event : ShareEvent}

/-- **One step of the client.**  The endpoint changes when loops are started. -/
theorem step_change (hstep : s.step hasToken event = some t) :
    (t.stopped = false → s.stopped = false) ∧
      t.endpoint = (LoopChange.started (s.loopChange event)).or s.endpoint := by
  cases event with
  | start socket =>
    obtain ⟨_, hstep⟩ := ite_none_right_eq_some.mp hstep
    cases hstep
    exact ⟨id, rfl⟩
  | stop socket =>
    obtain ⟨_, hstep⟩ := ite_none_right_eq_some.mp hstep
    cases hstep
    obtain ⟨hstopped, hendpoint⟩ := s.stop_change socket
    exact ⟨fun hrunning => (nomatch hstopped.symm.trans hrunning), hendpoint⟩
  | heartbeat socket =>
    obtain ⟨_, hstep⟩ := ite_none_right_eq_some.mp hstep
    cases hstep
    split <;> exact ⟨id, rfl⟩
  | connected socket | wrote socket =>
    obtain ⟨task, _, hstep⟩ := bind_eq_some_iff.mp hstep
    obtain ⟨_, hstep⟩ := ite_none_right_eq_some.mp hstep
    cases hstep
    exact ⟨id, rfl⟩
  | replied socket next =>
    obtain ⟨⟨await, phase, destroyed⟩, hlookup, hstep⟩ := bind_eq_some_iff.mp hstep
    cases phase with
    | answered reply =>
      obtain ⟨_, hstep⟩ := ite_none_right_eq_some.mp hstep
      cases hstep
      obtain ⟨hstopped, hendpoint⟩ := @resume_change hasToken (s.close socket) next
        (some reply) await
      dsimp only [loopChange]
      rw [hlookup]
      exact ⟨fun hrunning => hstopped.symm.trans hrunning, hendpoint⟩
    | connecting | writing | reading => cases hstep
  | failed socket next =>
    obtain ⟨task, hlookup, hstep⟩ := bind_eq_some_iff.mp hstep
    obtain ⟨_, hstep⟩ := ite_none_right_eq_some.mp hstep
    cases hstep
    obtain ⟨hstopped, hendpoint⟩ := @resume_change hasToken (s.close socket) next none task.await
    dsimp only [loopChange]
    rw [hlookup]
    exact ⟨fun hrunning => hstopped.symm.trans hrunning, hendpoint⟩
  | serve socket reply =>
    obtain ⟨command, _, hstep⟩ := bind_eq_some_iff.mp hstep
    obtain ⟨allocated, _, rfl⟩ := map_eq_some_iff.mp hstep
    exact ⟨id, rfl⟩

end ShareClient

/-! ## The loops along a run -/

variable {α β : Type} {f : α → Option β} {a : α} {list : List α} {index : Nat}
  {last : Option LoopChange} {event : ShareEvent} {loop : TunnelLoop}

/-- Replacing an entry by one with the same key. -/
theorem filterMap_set {b : α} (ha : list[index]? = some a) (hkey : f b = f a) :
    (list.set index b).filterMap f = list.filterMap f := by
  induction list generalizing index with
  | nil => cases ha
  | cons head rest ih =>
    cases index with
    | zero =>
      cases ha
      rw [set_cons_zero, filterMap_cons, filterMap_cons, hkey]
    | succ index =>
      rw [set_cons_succ, filterMap_cons, filterMap_cons, ih ha]

/-- Removing an entry without a key. -/
theorem filterMap_eraseIdx (ha : list[index]? = some a) (hkey : f a = none) :
    (list.eraseIdx index).filterMap f = list.filterMap f := by
  induction list generalizing index with
  | nil => cases ha
  | cons head rest ih =>
    cases index with
    | zero =>
      cases ha
      rw [eraseIdx_cons_zero, filterMap_cons, hkey]
    | succ index =>
      rw [eraseIdx_cons_succ, filterMap_cons, filterMap_cons, ih ha]

namespace PooledClient

variable {protocol : ProtocolMode} {hasToken : Bool} {s t : PooledClient} {log : List LoopChange}

/-- What runs after the changes of a log, the last of which counts. -/
def After (protocol : ProtocolMode) (s : PooledClient) : Option LoopChange → Prop
  | some (.start port) =>
    s.client.endpoint = some port ∧ s.running = protocol.loops.map (fun kind => (kind, port))
  | _ => s.running = []

/-- What the log tells about the loops. -/
structure Tracks (protocol : ProtocolMode) (s : PooledClient) (log : List LoopChange) : Prop where
  bounded : ∀ loop ∈ s.loops, loop.generation ≤ s.generation
  after : s.client.stopped = false → s.After protocol log.getLast?

theorem After.congr (h : s.After protocol last)
    (hendpoint : t.client.endpoint = s.client.endpoint) (hrunning : t.running = s.running) :
    t.After protocol last := by
  rcases last with _ | ⟨_ | port⟩
  · exact hrunning.trans h
  · exact hrunning.trans h
  · exact ⟨hendpoint.trans h.1, hrunning.trans h.2⟩

section

variable (h : ∀ loop ∈ s.loops, loop.generation ≤ s.generation)

include h

/-- A new generation has no loops at first. -/
theorem running_next_generation : running { s with generation := s.generation + 1 } = [] := by
  apply filterMap_eq_nil_iff.mpr
  intro loop hmem
  have hle := h loop hmem
  apply if_neg
  dsimp only
  omega

/-- The loops of the new generation are those started. -/
theorem running_startTunnelLoops (hrunning : s.client.stopped = false) (port : Nat) :
    (s.startTunnelLoops protocol port).running =
      protocol.loops.map (fun kind => (kind, port)) := by
  have hold := running_next_generation h
  unfold running startTunnelLoops at *
  dsimp only at hold ⊢
  rw [hrunning, filterMap_append, hold, nil_append, if_neg nofun, filterMap_map]
  simp only [Function.comp_def, if_true]
  rw [filterMap_eq_map']

theorem bounded_startTunnelLoops (port : Nat) : ∀ loop ∈ (s.startTunnelLoops protocol port).loops,
      loop.generation ≤ (s.startTunnelLoops protocol port).generation := by
  intro loop hmem
  rcases mem_append.mp hmem with hold | hnew
  · exact Nat.le_succ_of_le (h loop hold)
  · split at hnew
    · cases hnew
    · obtain ⟨kind, _, rfl⟩ := List.mem_map.mp hnew
      exact Nat.le_refl _

end

/-- **One step of an operation.** -/
theorem Tracks.share (h : s.Tracks protocol log) {client : ShareClient}
    (hstep : s.client.step hasToken event = some client) :
    ({ s with client }.change protocol (s.client.loopChange event)).Tracks protocol
      (log ++ (s.client.loopChange event).toList) := by
  obtain ⟨hstopped, hendpoint⟩ := ShareClient.step_change hstep
  cases hchange : s.client.loopChange event with
  | none =>
    rw [hchange] at hendpoint
    refine ⟨h.bounded, fun hrunning => ?_⟩
    rw [toList_none, append_nil]
    exact (h.after (hstopped hrunning)).congr hendpoint rfl
  | some found =>
    cases found with
    | discard =>
      refine ⟨fun loop hmem => Nat.le_succ_of_le (h.bounded loop hmem), fun _ => ?_⟩
      rw [toList_some, List.getLast?_concat]
      exact @running_next_generation { s with client } h.bounded
    | start port =>
      rw [hchange] at hendpoint
      have hbounded : ∀ loop ∈ ({ s with client } : PooledClient).loops,
          loop.generation ≤ s.generation := h.bounded
      refine ⟨bounded_startTunnelLoops hbounded port, fun hrunning => ?_⟩
      rw [toList_some, List.getLast?_concat]
      exact ⟨hendpoint, running_startTunnelLoops hbounded hrunning port⟩

/-! ### Steps of the loops -/

theorem running_set (hloop : s.loops[index]? = some loop) (phase : LoopPhase) :
    running { s with loops := s.loops.set index { loop with phase } } = s.running :=
  filterMap_set hloop rfl

theorem running_eraseIdx (hloop : s.loops[index]? = some loop)
    (hold : loop.generation ≠ s.generation) :
    running { s with loops := s.loops.eraseIdx index } = s.running :=
  filterMap_eraseIdx hloop (if_neg hold)

/-- A loop that changes its phase runs on. -/
theorem Tracks.set (h : s.Tracks protocol log) (hloop : s.loops[index]? = some loop)
    (phase : LoopPhase) :
    Tracks protocol { s with loops := s.loops.set index { loop with phase } } log := by
  refine ⟨?_, fun hrunning => (h.after hrunning).congr rfl (running_set hloop phase)⟩
  intro other hmem
  rcases mem_or_eq_of_mem_set hmem with hold | rfl
  · exact h.bounded other hold
  · exact h.bounded loop (mem_of_getElem? hloop)

/-- A loop at its condition ends only if it is not of the current generation. -/
theorem Tracks.turn (h : s.Tracks protocol log) (hloop : s.loops[index]? = some loop) :
    (s.turn index loop).Tracks protocol log := by
  unfold PooledClient.turn
  split
  · exact h.set hloop .opening
  · rename_i hgoes
    refine ⟨fun other hmem => h.bounded other (mem_of_mem_eraseIdx hmem), ?_⟩
    intro hrunning
    have hold : loop.generation ≠ s.generation := by
      intro hsame
      have hstopped : s.client.stopped = false := hrunning
      exact hgoes (by simp [goesOn, hstopped, hsame])
    exact (h.after hrunning).congr rfl (running_eraseIdx hloop hold)

/-- **One step.** -/
theorem Tracks.step (h : s.Tracks protocol log) {event : PoolEvent}
    (hstep : s.step protocol hasToken event = some t) :
    t.Tracks protocol (log ++ s.changes event) := by
  cases event with
  | share event =>
    obtain ⟨client, hclient, rfl⟩ := map_eq_some_iff.mp hstep
    exact h.share hclient
  | tunnelClosed index | slept index =>
    obtain ⟨loop, hloop, hstep⟩ := bind_eq_some_iff.mp hstep
    obtain ⟨_, hstep⟩ := ite_none_right_eq_some.mp hstep
    cases hstep
    rw [changes, append_nil]
    exact h.turn hloop
  | tunnelFailed index =>
    obtain ⟨loop, hloop, hstep⟩ := bind_eq_some_iff.mp hstep
    obtain ⟨_, hstep⟩ := ite_none_right_eq_some.mp hstep
    rw [changes, append_nil]
    split at hstep <;> cases hstep
    · exact h.set hloop .sleeping
    · exact h.turn hloop

theorem tracks_start (protocol : ProtocolMode) : Tracks protocol {} [] where
  bounded _ hmem := nomatch hmem
  after _ := rfl

theorem loops_ne_nil (protocol : ProtocolMode) : protocol.loops ≠ [] := by
  cases protocol with
  | tcp | udp | both => exact nofun

/-- The pool is up exactly if the last change started loops. -/
theorem After.poolUp_iff (h : s.After protocol last) :
    s.PoolUp protocol ↔ ∃ port, last = some (.start port) := by
  constructor
  · intro ⟨port, _, hup⟩
    have hrunning : s.running ≠ [] := by
      rw [hup]
      exact fun hnil => loops_ne_nil protocol (map_eq_nil_iff.mp hnil)
    rcases last with _ | ⟨_ | other⟩
    · exact absurd h hrunning
    · exact absurd h hrunning
    · exact ⟨other, rfl⟩
  · intro ⟨port, hlast⟩
    subst hlast
    exact ⟨port, h⟩

end PooledClient

/-- **When the tunnel pool is up.**  In every reachable state in which the client is not
stopped, the loops of the current generation run for the port of the endpoint if and only if
the last change of the generation started loops: no refresh has begun since. -/
theorem tunnel_pool_up_iff (protocol : ProtocolMode) (hasToken : Bool) {events : List PoolEvent}
    {s : PooledClient}
    (hrun : run (PooledClient.step protocol hasToken) {} events = some s)
    (hrunning : s.client.stopped = false) :
    s.PoolUp protocol ↔
      ∃ port, (logged (PooledClient.step protocol hasToken) PooledClient.changes {}
        events).getLast? = some (.start port) := by
  have htracks : s.Tracks protocol ([] ++ logged (PooledClient.step protocol hasToken)
      PooledClient.changes {} events) :=
    logged_invariant (fun _ _ _ _ h hstep => h.step hstep) (PooledClient.tracks_start protocol) hrun
  exact (htracks.after hrunning).poolUp_iff

/-! ### A refresh without a new port -/

/-- The client gets port 40000, a heartbeat fails and the refresh gives the port back. -/
def refreshing : List ShareEvent :=
  started ++ [.heartbeat 2, .failed 2 3] ++ exchange 3 4 .accepted

def refreshingThen (events : List ShareEvent) : List PoolEvent :=
  (refreshing ++ events).map .share

/-- A refresh that gets a port. -/
theorem tunnel_pool_up_refreshed :
    ∃ s, run (PooledClient.step .both false) {}
        (refreshingThen (exchange 4 5 (.granted 40001))) = some s ∧
      s.client.endpoint = some 40001 ∧ s.PoolUp .both := by
  have hall : (run (PooledClient.step .both false) {}
      (refreshingThen (exchange 4 5 (.granted 40001)))).any (fun s =>
        s.client.stopped = false ∧ s.client.endpoint = some 40001) = true := by
    decide +kernel
  obtain ⟨s, hrun, hstate⟩ := (Option.any_eq_true _ _).mp hall
  obtain ⟨hrunning, hendpoint⟩ := of_decide_eq_true hstate
  have hlast : (logged (PooledClient.step .both false) PooledClient.changes {}
      (refreshingThen (exchange 4 5 (.granted 40001)))).getLast? = some (.start 40001) := by
    decide +kernel
  exact ⟨s, hrun, hendpoint, (tunnel_pool_up_iff .both false hrun hrunning).mpr ⟨40001, hlast⟩⟩

/-- The relay cannot be reached for `CONNECT`, and answers the next heartbeat: the client is not
stopped and nothing is under way, but no loop runs. -/
theorem pool_down_after_failed_refresh :
    ∃ s, run (PooledClient.step .both false) {}
        (refreshingThen (.failed 4 5 :: .heartbeat 5 :: exchange 5 6 .accepted)) = some s ∧
      s.client.stopped = false ∧ s.client.reconnecting = false ∧ s.client.AtRest ∧
      s.client.endpoint = some 40000 ∧ s.running = [] ∧ ¬ s.PoolUp .both := by
  have hall : (run (PooledClient.step .both false) {}
      (refreshingThen (.failed 4 5 :: .heartbeat 5 :: exchange 5 6 .accepted))).any (fun s =>
        s.client.stopped = false ∧ s.client.reconnecting = false ∧
        (s.client.tasks.entries = [] ∧ s.client.inbox.entries = []) ∧
        s.client.endpoint = some 40000 ∧ s.running = []) = true := by
    decide +kernel
  obtain ⟨s, hrun, hstate⟩ := (Option.any_eq_true _ _).mp hall
  obtain ⟨hstopped, hquiet, ⟨htasks, hinbox⟩, hendpoint, hnone⟩ := of_decide_eq_true hstate
  refine ⟨s, hrun, hstopped, hquiet, ⟨htasks, hinbox⟩, hendpoint, hnone, ?_⟩
  intro ⟨port, _, hup⟩
  rw [hnone] at hup
  cases hup

end FerrumProxy
