import FerrumProxy.GuardedRuns
import FerrumProxy.RelayPorts

/-!
# TCP tunnels of the shared relay

A tenant allocates a relay port (`CONNECT`), registers tunnels for it (`TUNNEL`) and gives it back
(`RELEASE`).  Connections from the public side of the port are paired with the registered tunnels.
The tasks share `port_allocations` and `tcp_tunnels` under separate locks; one lock acquisition is
one step.

A task knows its port by number only.  What a task has seen of the port's allocations is recorded
beside it (`checkedIn`, `acceptedIn`); no step of the code reads these records.
-/

namespace FerrumProxy

open Str Runs

/-- A registered tunnel: the control connection it is, and the allocations that
held the port when the handler checked it and when it queued the tunnel. -/
structure ClientTcpTunnel where
  stream : Nat
  haproxy : Bool
  checkedIn : Option Nat
  pushedIn : Option Nat

/-- A public connection that was given a tunnel. -/
structure TcpPairing where
  port : Port
  acceptedIn : Option Nat
  tunnel : ClientTcpTunnel

/-- The tasks of the TCP side, each at the point before its next step. -/
inductive TcpTask where
  /-- `handle_tcp_tunnel` has found the port allocated. -/
  | tunnelChecked (port : Port) (stream : Nat) (haproxy : Bool) (checkedIn : Option Nat)
  /-- `handle_release` has removed the allocation. -/
  | releaseRemoved (port : Port)
  /-- `start_relay_port` is about to bind its listener. -/
  | listenerBinding (port : Port)
  /-- `start_relay_port` waits in `accept`. -/
  | listenerAccepting (port : Port)
  /-- `start_relay_port` has accepted a connection. -/
  | listenerChecking (port : Port) (acceptedIn : Option Nat)
  /-- `wait_for_client_tunnel` for an accepted connection. -/
  | connectionWaiting (port : Port) (acceptedIn : Option Nat)
  /-- `wait_for_ready_client_tunnel` is about to write `START`. -/
  | connectionStarting (port : Port) (acceptedIn : Option Nat) (tunnel : ClientTcpTunnel)

/-- The relay with its tunnels and tasks. -/
structure TcpRelay where
  ports : PortHistory := {}
  /-- The queues of `tcp_tunnels`; a port without an entry has the empty one. -/
  tcpTunnels : Port → List ClientTcpTunnel := fun _ => []
  /-- The TCP ports with a bound listener. -/
  listening : Port → Bool := fun _ => false
  tasks : Pool TcpTask := ∅
  pairings : List TcpPairing := []

/-- The steps of the tasks. -/
inductive TcpAction where
  | connect (task : Nat) (token : Option Text) (clientAddr : SocketAddr)
      (fixedPort : Option Port) (mixed : Nat)
  | tunnelCheck (task stream : Nat) (port : Port) (haproxy : Bool)
  | tunnelPush (task : Nat)
  | releaseRemove (task : Nat) (port : Port)
  | releaseClear (task : Nat)
  | listenerBind (task : Nat) (fails : Bool)
  | listenerAccept (task : Nat)
  | listenerCheck (task connection : Nat)
  | tunnelPop (task : Nat)
  | tunnelStart (task : Nat) (fails : Bool)

/-- One step of one task.  A step that starts a task names an unused
identifier. -/
def TcpRelay.step (range : SharedServicePortRange) (s : TcpRelay) : TcpAction → Option TcpRelay
  | .connect task token clientAddr fixedPort mixed =>
    if (s.tasks.lookup task).isSome then none
    else
      match s.ports.tryAllocate range mixed token clientAddr fixedPort with
      | (.allocated port, ports) =>
        some { s with ports := ports, tasks := s.tasks.put task (.listenerBinding port) }
      | _ => some s
  | .tunnelCheck task stream port haproxy =>
    if (s.tasks.lookup task).isSome then none
    else if (s.ports.portAllocations.lookup port).isSome then
      some { s with
        tasks := s.tasks.put task (.tunnelChecked port stream haproxy (s.ports.held port)) }
    else some s
  | .tunnelPush task =>
    match s.tasks.lookup task with
    | some (.tunnelChecked port stream haproxy checkedIn) =>
      let tunnel := ⟨stream, haproxy, checkedIn, s.ports.held port⟩
      some { s with
        tcpTunnels := Function.update s.tcpTunnels port (s.tcpTunnels port ++ [tunnel])
        tasks := s.tasks.drop task }
    | _ => none
  | .releaseRemove task port =>
    if (s.tasks.lookup task).isSome then none
    else if (s.ports.portAllocations.lookup port).isSome then
      some { s with
        ports := s.ports.release port
        tasks := s.tasks.put task (.releaseRemoved port) }
    else some s
  | .releaseClear task =>
    match s.tasks.lookup task with
    | some (.releaseRemoved port) =>
      some { s with
        tcpTunnels := Function.update s.tcpTunnels port []
        tasks := s.tasks.drop task }
    | _ => none
  | .listenerBind task fails =>
    match s.tasks.lookup task with
    | some (.listenerBinding port) =>
      if fails || s.listening port then some { s with tasks := s.tasks.drop task }
      else
        some { s with
          listening := Function.update s.listening port true
          tasks := s.tasks.put task (.listenerAccepting port) }
    | _ => none
  | .listenerAccept task =>
    match s.tasks.lookup task with
    | some (.listenerAccepting port) =>
      some { s with tasks := s.tasks.put task (.listenerChecking port (s.ports.held port)) }
    | _ => none
  | .listenerCheck task connection =>
    match s.tasks.lookup task with
    | some (.listenerChecking port acceptedIn) =>
      if (s.ports.portAllocations.lookup port).isSome then
        if (s.tasks.lookup connection).isSome then none
        else
          some { s with
            tasks := (s.tasks.put task (.listenerAccepting port)).put connection
              (.connectionWaiting port acceptedIn) }
      else
        some { s with
          listening := Function.update s.listening port false
          tasks := s.tasks.drop task }
    | _ => none
  | .tunnelPop task =>
    match s.tasks.lookup task with
    | some (.connectionWaiting port acceptedIn) =>
      match s.tcpTunnels port with
      | [] => some s
      | tunnel :: rest =>
        some { s with
          tcpTunnels := Function.update s.tcpTunnels port rest
          tasks := s.tasks.put task (.connectionStarting port acceptedIn tunnel)
          pairings := s.pairings ++ [⟨port, acceptedIn, tunnel⟩] }
    | _ => none
  | .tunnelStart task fails =>
    match s.tasks.lookup task with
    | some (.connectionStarting port acceptedIn _) =>
      if fails then
        some { s with tasks := s.tasks.put task (.connectionWaiting port acceptedIn) }
      else some { s with tasks := s.tasks.drop task }
    | _ => none

/-! ## Isolation -/

/-- Every public connection accepted under an allocation was paired with
tunnels that were registered, from the check to the queue, under that
allocation. -/
def TcpRelay.Isolated (s : TcpRelay) : Prop :=
  ∀ pairing ∈ s.pairings, ∀ a, pairing.acceptedIn = some a →
    pairing.tunnel.checkedIn = some a ∧ pairing.tunnel.pushedIn = some a

/-- The task is a public connection of the port, accepted under some
allocation and not yet relayed. -/
def TcpTask.Unpaired (port : Port) : TcpTask → Prop
  | .listenerChecking p acceptedIn => p = port ∧ acceptedIn ≠ none
  | .connectionWaiting p acceptedIn => p = port ∧ acceptedIn ≠ none
  | .connectionStarting p acceptedIn _ => p = port ∧ acceptedIn ≠ none
  | _ => False

/-- The task is a `TUNNEL` handler of the port between check and queue. -/
def TcpTask.Registering (port : Port) : TcpTask → Prop
  | .tunnelChecked p _ _ _ => p = port
  | _ => False

/-- Ports change hands with nothing left over: a free port that a `CONNECT`
could be given has no queued tunnel and no unpaired connection, and a `RELEASE`
finds no `TUNNEL` handler of its port half-way. -/
def TcpRelay.CleanHandover (range : SharedServicePortRange) (s : TcpRelay) : TcpAction → Prop
  | .connect _ _ _ fixedPort _ =>
    ∀ port, WantsPort range fixedPort port → s.ports.portAllocations.lookup port = none →
      s.tcpTunnels port = [] ∧ s.tasks.All (fun task => ¬ task.Unpaired port)
  | .releaseRemove _ port => s.tasks.All (fun task => ¬ task.Registering port)
  | _ => True

/-- What a task remembers is about the latest allocation of its port. -/
def TcpTask.Current (h : PortHistory) : TcpTask → Prop
  | .tunnelChecked port _ _ checkedIn =>
    h.held port = some (h.count port) ∧ checkedIn = some (h.count port)
  | .listenerChecking port acceptedIn => ∀ a, acceptedIn = some a → a = h.count port
  | .connectionWaiting port acceptedIn => ∀ a, acceptedIn = some a → a = h.count port
  | .connectionStarting port acceptedIn _ => ∀ a, acceptedIn = some a → a = h.count port
  | _ => True

/-- A tunnel registered under the latest allocation of the port. -/
def ClientTcpTunnel.Current (h : PortHistory) (port : Port) (tunnel : ClientTcpTunnel) : Prop :=
  tunnel.checkedIn = some (h.count port) ∧ tunnel.pushedIn = some (h.count port)

/-- The invariant of runs with clean handovers: nothing refers to an
allocation before the latest one. -/
structure TcpRelay.Sound (s : TcpRelay) : Prop where
  tasks : s.tasks.All (TcpTask.Current s.ports)
  tunnels : ∀ port, ∀ tunnel ∈ s.tcpTunnels port, tunnel.Current s.ports port
  isolated : s.Isolated

variable {h : PortHistory} {p port : Port} {task : Nat}

/-- A memory of the latest allocation of one port stays one when another port
changes hands, and when no memory of this port's allocations is left. -/
theorem acceptedIn_allocate {allocation : PortAllocation} {acceptedIn : Option Nat}
    (hcurrent : ∀ a, acceptedIn = some a → a = h.count port)
    (hclean : ¬ (port = p ∧ acceptedIn ≠ none)) :
    ∀ a, acceptedIn = some a → a = (h.allocate p allocation).count port := by
  intro a ha
  by_cases hport : port = p
  · exact absurd ⟨hport, by rw [ha]; exact Option.some_ne_none a⟩ hclean
  · rw [h.count_allocate_ne allocation hport]
    exact hcurrent a ha

theorem TcpTask.Current.allocate {task : TcpTask} (hcurrent : task.Current h)
    (hfree : h.held p = none) (hclean : ¬ task.Unpaired p) (allocation : PortAllocation) :
    task.Current (h.allocate p allocation) := by
  cases task with
  | tunnelChecked port stream haproxy checkedIn =>
    have hport : port ≠ p := by
      intro hport
      have hheld := hcurrent.1
      rw [hport, hfree] at hheld
      cases hheld
    dsimp only [TcpTask.Current]
    rw [h.held_allocate_ne allocation hport, h.count_allocate_ne allocation hport]
    exact hcurrent
  | listenerChecking | connectionWaiting | connectionStarting =>
    exact acceptedIn_allocate hcurrent hclean
  | releaseRemoved | listenerBinding | listenerAccepting => trivial

theorem TcpTask.Current.release {task : TcpTask} (hcurrent : task.Current h)
    (hclean : ¬ task.Registering p) : task.Current (h.release p) := by
  cases task with
  | tunnelChecked port stream haproxy checkedIn =>
    dsimp only [TcpTask.Current]
    rw [h.held_release_ne hclean, h.count_release]
    exact hcurrent
  | listenerChecking | connectionWaiting | connectionStarting => exact hcurrent
  | releaseRemoved | listenerBinding | listenerAccepting => trivial

/-- Tunnels follow their queue: those of a changed queue are current if they
are, and the other queues are as before. -/
theorem tunnels_update {tcpTunnels : Port → List ClientTcpTunnel} {queue : List ClientTcpTunnel}
    (htunnels : ∀ port, ∀ tunnel ∈ tcpTunnels port, tunnel.Current h port)
    (hqueue : ∀ tunnel ∈ queue, tunnel.Current h p) :
    ∀ port, ∀ tunnel ∈ Function.update tcpTunnels p queue port, tunnel.Current h port := by
  intro port tunnel hmem
  by_cases hport : port = p
  · subst hport
    rw [Function.update_self] at hmem
    exact hqueue tunnel hmem
  · rw [Function.update_of_ne hport] at hmem
    exact htunnels port tunnel hmem

variable {range : SharedServicePortRange} {s t : TcpRelay}

theorem sound_connect {mixed : Nat} {token : Option Text} {clientAddr : SocketAddr}
    {fixedPort : Option Port} (hs : s.Sound)
    (hclean : s.CleanHandover range (.connect task token clientAddr fixedPort mixed))
    (hstep : s.step range (.connect task token clientAddr fixedPort mixed) = some t) : t.Sound := by
  dsimp only [TcpRelay.step] at hstep
  split at hstep
  · cases hstep
  · rcases s.ports.tryAllocate_cases range mixed token clientAddr fixedPort with
      ⟨p, hresult, hfree, hwants⟩ | hresult | hresult
    · rw [hresult] at hstep
      cases hstep
      obtain ⟨hempty, hunpaired⟩ := hclean p hwants (PortHistory.held_eq_none.mp hfree)
      refine ⟨?_, ?_, hs.isolated⟩
      · refine Pool.All.put (fun id found hfound => ?_) trivial
        exact (hs.tasks id found hfound).allocate hfree (hunpaired id found hfound) _
      · intro port tunnel hmem
        by_cases hport : port = p
        · rw [hport, hempty] at hmem
          cases hmem
        · unfold ClientTcpTunnel.Current
          rw [s.ports.count_allocate_ne _ hport]
          exact hs.tunnels port tunnel hmem
    all_goals
      rw [hresult] at hstep
      cases hstep
      exact hs

theorem sound_release (hs : s.Sound) (hclean : s.CleanHandover range (.releaseRemove task port))
    (hstep : s.step range (.releaseRemove task port) = some t) : t.Sound := by
  dsimp only [TcpRelay.step] at hstep
  (repeat' split at hstep) <;> cases hstep
  · refine ⟨Pool.All.put (fun id found hfound => ?_) trivial, hs.tunnels, hs.isolated⟩
    exact (hs.tasks id found hfound).release (hclean id found hfound)
  · exact hs

/-- A handler that finished its check registers its tunnel under the same
allocation. -/
theorem sound_tunnelPush (hs : s.Sound) (hstep : s.step range (.tunnelPush task) = some t) :
    t.Sound := by
  dsimp only [TcpRelay.step] at hstep
  split at hstep <;> cases hstep
  next htask =>
  obtain ⟨hheld, hchecked⟩ := hs.tasks task _ htask
  refine ⟨hs.tasks.drop, tunnels_update hs.tunnels ?_, hs.isolated⟩
  intro tunnel hmem
  rcases List.mem_append.mp hmem with hold | hnew
  · exact hs.tunnels _ tunnel hold
  · cases List.mem_singleton.mp hnew
    exact ⟨hchecked, hheld⟩

/-- A waiting connection and the tunnels of its port's queue belong to the
same allocation. -/
theorem sound_tunnelPop (hs : s.Sound) (hstep : s.step range (.tunnelPop task) = some t) :
    t.Sound := by
  dsimp only [TcpRelay.step] at hstep
  (repeat' split at hstep) <;> cases hstep
  · exact hs
  · next port acceptedIn htask _ tunnel rest hqueue =>
    have hcurrent := hs.tasks task _ htask
    have htunnels := hs.tunnels port
    rw [hqueue, List.forall_mem_cons] at htunnels
    refine ⟨hs.tasks.put hcurrent, tunnels_update hs.tunnels htunnels.2, ?_⟩
    intro pairing hmem
    rcases List.mem_append.mp hmem with hold | hnew
    · exact hs.isolated pairing hold
    · cases List.mem_singleton.mp hnew
      intro a ha
      rw [hcurrent a ha]
      exact htunnels.1

theorem TcpRelay.Sound.step {action : TcpAction} (hs : s.Sound)
    (hclean : s.CleanHandover range action) (hstep : s.step range action = some t) : t.Sound := by
  cases action
  case connect => exact sound_connect hs hclean hstep
  case releaseRemove => exact sound_release hs hclean hstep
  case tunnelPush => exact sound_tunnelPush hs hstep
  case tunnelPop => exact sound_tunnelPop hs hstep
  all_goals dsimp only [TcpRelay.step] at hstep
  case tunnelCheck =>
    (repeat' split at hstep) <;> cases hstep
    · next hallocated =>
      have hheld : s.ports.held _ = some _ := if_pos hallocated
      exact ⟨hs.tasks.put ⟨hheld, hheld⟩, hs.tunnels, hs.isolated⟩
    · exact hs
  case releaseClear =>
    split at hstep <;> cases hstep
    exact ⟨hs.tasks.drop, tunnels_update hs.tunnels (by simp), hs.isolated⟩
  case listenerBind =>
    (repeat' split at hstep) <;> cases hstep
    · exact ⟨hs.tasks.drop, hs.tunnels, hs.isolated⟩
    · exact ⟨hs.tasks.put trivial, hs.tunnels, hs.isolated⟩
  case listenerAccept =>
    split at hstep <;> cases hstep
    exact ⟨hs.tasks.put (fun a ha => PortHistory.held_eq_some ha), hs.tunnels, hs.isolated⟩
  case listenerCheck =>
    (repeat' split at hstep) <;> cases hstep
    · next htask _ _ =>
      have hcurrent := hs.tasks _ _ htask
      exact ⟨Pool.All.put (hs.tasks.put trivial) hcurrent, hs.tunnels, hs.isolated⟩
    · exact ⟨hs.tasks.drop, hs.tunnels, hs.isolated⟩
  case tunnelStart =>
    (repeat' split at hstep) <;> cases hstep
    · next htask _ =>
      have hcurrent := hs.tasks _ _ htask
      exact ⟨hs.tasks.put hcurrent, hs.tunnels, hs.isolated⟩
    · exact ⟨hs.tasks.drop, hs.tunnels, hs.isolated⟩

/-- **Tenant isolation under clean handovers.**  In every run whose steps all
meet `CleanHandover`, a public connection accepted under an allocation of its
port is only paired with tunnels registered under that allocation. -/
theorem tenants_isolated
    (hreach : Reaches (TcpRelay.step range) (TcpRelay.CleanHandover range) {} s) :
    s.Isolated := by
  have hsound : s.Sound := by
    apply hreach.invariant
    · exact ⟨fun _ _ htask => (nomatch htask), by simp, by simp [TcpRelay.Isolated]⟩
    · intro s action t hs hclean hstep
      exact hs.step hclean hstep
  exact hsound.isolated

/-! ## One tenant's connection, the next tenant's tunnel -/

/-- A tenant allocates the port (task 0 listens on it) and a public client
connects (task 1). -/
def firstTenant : List TcpAction :=
  [.connect 0 none tenantAddr none 0, .listenerBind 0 false, .listenerAccept 0,
    .listenerCheck 0 1]

/-- The tenant registers a tunnel, which the client is given. -/
def firstTunnel : List TcpAction :=
  [.tunnelCheck 2 10 40000 false, .tunnelPush 2, .tunnelPop 1, .tunnelStart 1 false]

/-- The port is released, allocated again, and the new tenant registers a
tunnel; the first tenant's client is still waiting and takes it. -/
def secondTunnel : List TcpAction :=
  [.releaseRemove 3 40000, .releaseClear 3, .connect 4 none tenantAddr none 0,
    .tunnelCheck 5 11 40000 false, .tunnelPush 5, .tunnelPop 1]

/-- The port is released after that, and the next tenant's client gets the next tenant's tunnel. -/
def nextTenant : List TcpAction :=
  [.releaseRemove 3 40000, .releaseClear 3, .connect 4 none tenantAddr none 0, .listenerBind 4 false,
    .listenerAccept 0, .listenerCheck 0 5, .tunnelCheck 6 11 40000 false, .tunnelPush 6,
    .tunnelPop 5, .tunnelStart 5 false]

theorem all_of_listener {P : TcpTask → Prop}
    (htasks : s.tasks.entries = [⟨0, .listenerAccepting 40000⟩])
    (hlistener : P (.listenerAccepting 40000)) : s.tasks.All P := by
  refine Pool.all_of_entries (fun entry hentry => ?_)
  rw [htasks, List.mem_singleton] at hentry
  rwa [hentry]

/-- Two tenants have the port one after the other, and each client gets its tenant's tunnel. -/
theorem tenants_isolated_first :
    ∃ s, Reaches (TcpRelay.step oneRelayPort) (TcpRelay.CleanHandover oneRelayPort) {} s ∧
      s.pairings.map (·.acceptedIn) = [some 1, some 2] ∧ s.Isolated := by
  have hguarded : Guarded (TcpRelay.step oneRelayPort) (TcpRelay.CleanHandover oneRelayPort) {}
      (firstTenant ++ firstTunnel ++ nextTenant) := by
    refine ⟨fun _ _ _ => ⟨rfl, Pool.all_of_entries (by simp)⟩, trivial, trivial, trivial, trivial,
      trivial, trivial, trivial, all_of_listener rfl not_false, trivial, fun port hwants _ => ?_,
      trivial, trivial, trivial, trivial, trivial, trivial, trivial, trivial⟩
    rw [wantsPort_one hwants]
    exact ⟨rfl, all_of_listener rfl not_false⟩
  have hreach := reaches_of_guarded hguarded rfl
  exact ⟨_, hreach, rfl, tenants_isolated hreach⟩

/-- **A public connection is paired with the next tenant's tunnel.** -/
theorem tenants_mixed :
    ¬ ∀ s, Reaches (TcpRelay.step oneRelayPort) Always {} s → s.Isolated := by
  intro hisolated
  have hrun : run (TcpRelay.step oneRelayPort) {} (firstTenant ++ secondTunnel) = some _ := rfl
  have hpair := hisolated _ (reaches_of_run hrun) _ List.mem_cons_self 1 rfl
  exact absurd hpair.1 (by decide)

end FerrumProxy
