import FerrumProxy.PairedRuns
import FerrumProxy.RelayAuth
import FerrumProxy.RelayQueue

/-!
# The control port of the shared relay

A control connection sends one request and gets one response.  A `CONNECT` request waits in the
queue of `RelayQueue` and is answered when its handler is done; a `TUNNEL`, `UDP_TUNNEL` or
`RELEASE` request looks at the allocations in one step and goes on in the next.
-/

namespace FerrumProxy

open Str Runs Wire

/-- What the relay uses of other crates, with the texts of addresses. -/
structure ControlEnv (Document : Type) extends RelayEnv Document where
  displayAddr : SocketAddr → Text
  displayIp : IpAddr → Text

/-- Handlers between two steps. -/
inductive ControlTask where
  /-- `handle_tcp_tunnel` has found the port allocated. -/
  | tunnelChecked (port : Port) (haproxy : Bool)
  /-- `handle_udp_tunnel` has found the port allocated. -/
  | udpTunnelChecked (port : Port)
  /-- `handle_release` has removed the allocation. -/
  | releaseRemoved (port : Port)

/-- What the requests share. -/
structure ControlRelay where
  queue : RelayQueue := {}
  /-- The sizes of `tcp_connections` and `udp_peers`, which no code fills. -/
  tcpConnections : Nat := 0
  udpPeers : Nat := 0
  /-- The queued tunnels by their control connections. -/
  tcpTunnels : AList (fun _ : Port => List (Nat × Bool)) := ∅
  /-- The control connection that the channel of each UDP tunnel belongs to. -/
  udpTunnels : Port → Option Nat := fun _ => none
  udpSockets : Port → Bool := fun _ => false
  tasks : Pool ControlTask := ∅

/-- What a handler takes from elsewhere while it handles a request. -/
structure ControlMoment where
  now : UtcTime := 0
  reload : Option (Except String ProxyConfig) := none
  readings : Option Text := none
  order : List Port := []

/-- The steps of the relay. -/
inductive ControlAction where
  /-- A control connection sends a request. -/
  | request (id : Nat) (clientAddr : SocketAddr) (received : Bytes) (moment : ControlMoment)
  /-- The next step of a handler. -/
  | proceed (id : Nat)
  /-- A step of a `CONNECT` handler, or a wake-up by a UDP relay task. -/
  | queued (action : QueueAction)
  /-- A `CONNECT` handler that is done writes its response. -/
  | answer (id : Nat)
  /-- A public connection takes a tunnel. -/
  | tunnelTaken (port : Port)
  /-- A UDP relay task has bound its socket. -/
  | udpBound (port : Port)
  /-- A UDP relay task has found its port released. -/
  | udpReleased (port : Port)
  /-- A UDP tunnel has ended. -/
  | udpTunnelEnded (port : Port) (id : Nat)

/-- A control connection and what is written to it. -/
abbrev ControlResponse := Nat × Text

/-! ## Requests -/

/-- The commands of the control port. -/
inductive ControlCommand where
  | tunnel
  | udpTunnel
  | connect
  | udp
  | token
  | ping
  | stats
  | hostMetrics
  | list
  | release
  | unknown
  deriving DecidableEq

/-- Which handler a request goes to. -/
def controlCommand (request : Text) : ControlCommand :=
  if "TUNNEL ".toList.isPrefixOf request then .tunnel
  else if "UDP_TUNNEL ".toList.isPrefixOf request then .udpTunnel
  else if "CONNECT ".toList.isPrefixOf request then .connect
  else if "UDP ".toList.isPrefixOf request then .udp
  else if request == "TOKEN".toList || "TOKEN ".toList.isPrefixOf request then .token
  else if request == "PING".toList then .ping
  else if request == "STATS".toList then .stats
  else if request == "HOST_METRICS".toList then .hostMetrics
  else if request == "LIST".toList then .list
  else if "RELEASE ".toList.isPrefixOf request then .release
  else .unknown

/-- The port and the flag of a `TUNNEL` or `UDP_TUNNEL` request. -/
def tunnelRequest (request : Text) : Option (Port × Bool) :=
  match splitWhitespace request with
  | [_, port] => (parseU16 port).map (·, false)
  | [_, port, flag] => (parseU16 port).map (·, eqIgnoreAsciiCase flag "HAPROXY".toList)
  | _ => none

def isLoopbackOrUnspecifiedHost (host : Text) : Bool :=
  ["127.0.0.1".toList, "localhost".toList, "0.0.0.0".toList, "::1".toList, "::".toList].contains host

/-- The host of a socket address text, without brackets. -/
def controlHost (controlBind : Text) : Text :=
  match splitOnce ':' controlBind.reverse with
  | some (_, host) =>
    trim ((host.reverse.dropWhile (fun c => c == '[' || c == ']')).rdropWhile
      (fun c => c == '[' || c == ']'))
  | none => trim controlBind

def publicHostForResponse (displayIp : IpAddr → Text) (configuredPublicHost controlBind : Text)
    (clientAddr : SocketAddr) : Text :=
  let configured := trim configuredPublicHost
  if !configured.isEmpty && !isLoopbackOrUnspecifiedHost configured then configured
  else
    let host := controlHost controlBind
    if !host.isEmpty && !isLoopbackOrUnspecifiedHost host then host
    else displayIp clientAddr.ip

section Responses

variable {Document : Type} (env : ControlEnv Document) (config : SharedServiceConfig)

/-- The response of `handle_connect` when the handler is done. -/
def connectResponse (clientAddr : SocketAddr) : AllocationResult → Text
  | .allocated port =>
    s!"OK {port.toNat} ".toList ++
      publicHostForResponse env.displayIp config.publicHost config.controlBind clientAddr ++
      s!":{port.toNat}\n".toList
  | .tokenInUse => "ERROR Token already has an active relay\n".toList
  | .full => "ERROR Waiting queue full\n".toList

def handleStats (s : ControlRelay) : Text :=
  let tunnelCount := (s.tcpTunnels.entries.map (fun entry => entry.2.length)).sum
  (s!"STAT tcp={s.tcpConnections} udp={s.udpPeers} ports={s.queue.portAllocations.entries.length}"
    ++ s!" tunnels={tunnelCount} waiting={s.queue.waitingClients}"
    ++ s!" waiting_priority={s.queue.waitingPriorityClients} queue_max={config.queue.maxSize}"
    ++ s!" queue_enabled={config.queue.enabled}\n").toList

/-- `handle_host_metrics`, given the readings up to the number of sessions. -/
def handleHostMetrics (readings : Text) (s : ControlRelay) : Text :=
  "HOST_METRICS ".toList ++ readings ++
    s!" sessions={s.queue.portAllocations.entries.length}\n".toList

/-- One line of the list. -/
def allocationLine (port : Port) (allocation : PortAllocation) : Text :=
  s!"  port={port.toNat} token=".toList ++ allocation.token.getD "anonymous".toList ++
    " client=".toList ++ env.displayAddr allocation.clientAddr

/-- The lines, the map being iterated in the given order. -/
def allocationLines (portAllocations : PortAllocations) (order : List Port) : List Text :=
  order.filterMap (fun port => (portAllocations.lookup port).map (allocationLine env port))

def handleListAllocations (portAllocations : PortAllocations) (order : List Port) : Text :=
  if portAllocations.entries.isEmpty then "LIST empty\n".toList
  else
    s!"LIST {portAllocations.entries.length}\n".toList ++
      ['\n'].intercalate (allocationLines env portAllocations order) ++ ['\n']

end Responses

/-! ## Steps -/

/-- A `CONNECT` handler arrives and a release happens through requests only. -/
def QueueAction.isInternal : QueueAction → Bool
  | .connect .. => false
  | .release _ => false
  | .releaseNotify => false
  | _ => true

namespace ControlRelay

variable {Document : Type} (env : ControlEnv Document) (config : SharedServiceConfig)

def isAllocated (s : ControlRelay) (port : Port) : Bool :=
  (s.queue.portAllocations.lookup port).isSome

/-- A handler goes on, without a response so far. -/
def start (s : ControlRelay) (id : Nat) (task : ControlTask) : ControlRelay :=
  { s with tasks := s.tasks.put id task }

/-- The first step of `handle_tcp_tunnel` or `handle_udp_tunnel`: the request is
dropped without a response unless its port is allocated. -/
def handleTunnel (s : ControlRelay) (id : Nat) (request : Text) (task : Port → Bool → ControlTask) :
    ControlRelay :=
  match tunnelRequest request with
  | some (port, haproxy) => if s.isAllocated port then s.start id (task port haproxy) else s
  | none => s

/-- `handle_release` up to the removal. -/
def handleRelease (s : ControlRelay) (id : Nat) (request : Text) :
    Option (ControlRelay × List ControlResponse) :=
  match splitWhitespace request with
  | [_, word] =>
    match parseU16 word with
    | none => some (s, [(id, "ERROR Invalid port\n".toList)])
    | some port =>
      if s.isAllocated port then
        (s.queue.step config (.release port)).map (fun queue =>
          ({ s with queue := queue }.start id (.releaseRemoved port), []))
      else if config.portRange.start ≤ port && port ≤ config.portRange.finish then
        some (s, [(id, "OK Not allocated\n".toList)])
      else some (s, [(id, "ERROR Port outside shared relay range\n".toList)])
  | _ => some (s, [(id, "ERROR Usage: RELEASE <port>\n".toList)])

/-- `handle_control_connection` on a request that has been read and trimmed. -/
def handleRequest (s : ControlRelay) (id : Nat) (clientAddr : SocketAddr) (request : Text)
    (moment : ControlMoment) : Option (ControlRelay × List ControlResponse) :=
  let authConfig := sharedServiceAuthConfig moment.reload config
  match controlCommand request with
  | .tunnel => some (s.handleTunnel id request .tunnelChecked, [])
  | .udpTunnel => some (s.handleTunnel id request (fun port _ => .udpTunnelChecked port), [])
  | .connect =>
    match handleConnect env.toRelayEnv moment.now config authConfig request with
    | .error response => some (s, [(id, response)])
    | .ok admitted =>
      (s.queue.step config (.connect id admitted.token clientAddr admitted.fixedPort)).map
        (fun queue => ({ s with queue := queue }, []))
  | .udp => some (s, [(id, "OK UDP associated\n".toList)])
  | .token =>
    some (s, [(id, handleTokenValidation env.toRelayEnv moment.now authConfig request)])
  | .ping => some (s, [(id, "PONG\n".toList)])
  | .stats => some (s, [(id, handleStats config s)])
  | .hostMetrics =>
    some (s, (moment.readings.map (fun readings => (id, handleHostMetrics readings s))).toList)
  | .list =>
    if moment.order.isPerm s.queue.portAllocations.keys then
      some (s, [(id, handleListAllocations env s.queue.portAllocations moment.order)])
    else none
  | .release => s.handleRelease config id request
  | .unknown => some (s, [(id, "ERROR Unknown command\n".toList)])

/-- The second step of a handler. -/
def proceedTask (s : ControlRelay) (id : Nat) :
    ControlTask → Option (ControlRelay × List ControlResponse)
  | .tunnelChecked port haproxy =>
    let waiting := (s.tcpTunnels.lookup port).getD []
    some ({ s with tcpTunnels := s.tcpTunnels.insert port (waiting ++ [(id, haproxy)]) }, [])
  | .udpTunnelChecked port =>
    if s.udpSockets port then
      some ({ s with udpTunnels := Function.update s.udpTunnels port (some id) },
        [(id, "READY\n".toList)])
    else some (s, [])
  | .releaseRemoved port =>
    (s.queue.step config .releaseNotify).map (fun queue =>
      ({ s with
          queue := queue
          tcpTunnels := s.tcpTunnels.erase port
          udpTunnels := Function.update s.udpTunnels port none
          udpSockets := Function.update s.udpSockets port false },
        [(id, "OK Released\n".toList)]))

/-- One step, and what is written to control connections in it. -/
def exchange (s : ControlRelay) : ControlAction → Option (ControlRelay × List ControlResponse)
  | .request id clientAddr received moment =>
    if (s.queue.handlers.lookup id).isSome || (s.tasks.lookup id).isSome then none
    else if received.isEmpty then some (s, [])
    else s.handleRequest env config id clientAddr (trim (fromUtf8Lossy received)) moment
  | .proceed id =>
    (s.tasks.lookup id).bind (fun task =>
      { s with tasks := s.tasks.drop id }.proceedTask config id task)
  | .queued action =>
    if action.isInternal then
      (s.queue.step config action).map (fun queue => ({ s with queue := queue }, []))
    else none
  | .answer id =>
    (s.queue.handlers.lookup id).bind (fun handler =>
      match handler.phase with
      | .done result =>
        some ({ s with queue := { s.queue with handlers := s.queue.handlers.drop id } },
          [(id, connectResponse env config handler.clientAddr result)])
      | _ => none)
  | .tunnelTaken port =>
    match s.tcpTunnels.lookup port with
    | some (_ :: waiting) =>
      some ({ s with tcpTunnels := s.tcpTunnels.insert port waiting }, [])
    | _ => none
  | .udpBound port =>
    some ({ s with udpSockets := Function.update s.udpSockets port true }, [])
  | .udpReleased port =>
    if s.isAllocated port then none
    else
      some ({ s with
        queue := s.queue.notifyOne
        udpSockets := Function.update s.udpSockets port false }, [])
  | .udpTunnelEnded port id =>
    if s.udpTunnels port = some id then
      some ({ s with udpTunnels := Function.update s.udpTunnels port none }, [])
    else none

end ControlRelay

/-! ## The token of a request -/

/-- The token that a `CONNECT` request is admitted with is a word of the request. -/
theorem handleConnect_token {Document : Type} {env : RelayEnv Document} {now : UtcTime}
    {config authConfig : SharedServiceConfig} {request value : Text} {admitted : ConnectRequest}
    (h : handleConnect env now config authConfig request = .ok admitted)
    (htoken : admitted.token = some value) : IsWord value ∧ value <:+: request := by
  unfold handleConnect at h
  split at h
  · rename_i command target rest hsplit
    have hmem : target ∈ splitWhitespace request := by simp [hsplit]
    obtain ⟨htarget, _⟩ := connectGate_eq_ok env h
    unfold connectTarget at htarget
    split at htarget
    · rename_i token host port hparts
      split at htarget
      · cases htarget
      · rename_i hne
        have hvalue : trim token = value :=
          Option.some.inj ((congrArg Prod.fst (Except.ok.inj htarget)).trans htoken)
        have htoken_mem : token ∈ splitn ':' 3 target := by simp [hparts]
        have hsublist : value <:+: target := hvalue ▸ (trim_isInfix token).trans
          (infix_of_mem_splitn htoken_mem)
        refine ⟨⟨?_, fun c hc => (mem_splitWhitespace hmem).2 c (hsublist.subset hc)⟩,
          hsublist.trans (infix_of_mem_splitWhitespace hmem)⟩
        simpa [hvalue] using hne
    · split at htarget
      · cases htarget
      · have hnone : none = some value :=
          (congrArg Prod.fst (Except.ok.inj htarget)).trans htoken
        cases hnone
    · cases htarget
  · cases h

end FerrumProxy
