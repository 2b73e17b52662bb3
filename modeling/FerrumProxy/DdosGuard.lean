import FerrumProxy.GuardedRuns
import FerrumProxy.NetAddress

/-!
# The DDoS guard

`ddos_guard.rs`: per address, a count of open TCP connections, three token buckets and a temporary
block.  Every operation first prunes the table of idle entries, then works on the entry of its own
address.

Instants are rational numbers of seconds.  The buckets count in any type `F` with the operations
that they use, of which `f64` is one and the rationals another.
-/

namespace FerrumProxy

abbrev Instant := ℚ

abbrev Duration := ℚ

/-- `Instant::duration_since`, which saturates at zero. -/
def durationSince (now earlier : Instant) : Duration := max (now - earlier) 0

def violationDecayAfter : Duration := 30
def tempBlockAfterViolations : Nat := 24
def tempBlockBase : Duration := 20
def tempBlockMax : Duration := 10 * 60
def idleStateRetention : Duration := 10 * 60

/-- The settings that a guard works with. -/
structure DdosGuardSettings (F : Type) where
  enabled : Bool
  tcpMaxActivePerIp : Nat
  tcpNewConnectionsPerSecond : F
  tcpNewConnectionBurst : F
  udpPacketsPerSecond : F
  udpPacketBurst : F
  udpBytesPerSecond : F
  udpByteBurst : F
  udpMaxDatagramBytes : Nat

def DdosGuardSettings.default : DdosGuardSettings ℚ where
  enabled := true
  tcpMaxActivePerIp := 256
  tcpNewConnectionsPerSecond := 100
  tcpNewConnectionBurst := 500
  udpPacketsPerSecond := 240
  udpPacketBurst := 480
  udpBytesPerSecond := 2 * 1024 * 1024
  udpByteBurst := 4 * 1024 * 1024
  udpMaxDatagramBytes := 8 * 1024

/-- Why something is refused. -/
inductive DropReason where
  | temporarilyBlocked
  | tcpActiveConnectionLimit
  | tcpNewConnectionRateLimit
  | udpPacketRateLimit
  | udpByteRateLimit
  | udpDatagramTooLarge
  deriving DecidableEq, Repr

/-- A bucket that is refilled when it is used. -/
structure TokenBucket (F : Type) where
  tokens : F
  refillPerSecond : F
  burst : F
  lastRefill : Instant

/-- The entry of an address. -/
structure IpProtectionState (F : Type) where
  activeTcpConnections : Nat
  tcpNewConnections : TokenBucket F
  udpPackets : TokenBucket F
  udpBytes : TokenBucket F
  violations : Nat
  lastViolation : Option Instant
  temporaryBlockUntil : Option Instant
  lastSeen : Instant

/-- The table behind the mutex. -/
abbrev ProtectionStates (F : Type) := IpAddr → Option (IpProtectionState F)

/-- Dropping a permit that is not `released` closes its connection. -/
structure TcpConnectionPermit where
  ip : IpAddr
  released : Bool
  deriving DecidableEq

/-! ### Buckets -/

section Buckets

variable {F : Type} [Add F] [Sub F] [Mul F] [Min F] [NatCast F]
  [LT F] [DecidableLT F] [LE F] [DecidableLE F] (asSecsF64 : Duration → F)

namespace TokenBucket

def new (refillPerSecond burst : F) (now : Instant) : TokenBucket F where
  tokens := burst
  refillPerSecond := refillPerSecond
  burst := burst
  lastRefill := now

def refill (b : TokenBucket F) (now : Instant) : TokenBucket F :=
  let elapsed := asSecsF64 (durationSince now b.lastRefill)
  if elapsed ≤ ((0 : Nat) : F) then b
  else
    { b with
      tokens := min (b.tokens + elapsed * b.refillPerSecond) b.burst
      lastRefill := now }

def consume (b : TokenBucket F) (amount : F) (now : Instant) : Bool × TokenBucket F :=
  let b := b.refill asSecsF64 now
  if b.tokens < amount then (false, b)
  else (true, { b with tokens := b.tokens - amount })

end TokenBucket

/-! ### One address -/

namespace IpProtectionState

def new (now : Instant) (settings : DdosGuardSettings F) : IpProtectionState F where
  activeTcpConnections := 0
  tcpNewConnections :=
    TokenBucket.new settings.tcpNewConnectionsPerSecond settings.tcpNewConnectionBurst now
  udpPackets := TokenBucket.new settings.udpPacketsPerSecond settings.udpPacketBurst now
  udpBytes := TokenBucket.new settings.udpBytesPerSecond settings.udpByteBurst now
  violations := 0
  lastViolation := none
  temporaryBlockUntil := none
  lastSeen := now

def blockReason (st : IpProtectionState F) (now : Instant) :
    Option DropReason × IpProtectionState F :=
  if st.temporaryBlockUntil.any (fun blockedUntil => decide (now < blockedUntil)) then
    (some .temporarilyBlocked, { st with lastSeen := now })
  else
    (none, { st with temporaryBlockUntil := none })

/-- `violations` is a `u32` that saturates. -/
def recordViolation (st : IpProtectionState F) (now : Instant) (reason : DropReason) :
    DropReason × IpProtectionState F :=
  let fresh := st.lastViolation.all (fun last => decide (violationDecayAfter < durationSince now last))
  let violations := min ((if fresh then 0 else st.violations) + 1) (2 ^ 32 - 1)
  let counted :=
    { st with violations := violations, lastViolation := some now, lastSeen := now }
  if tempBlockAfterViolations ≤ violations then
    let multiplier := violations - tempBlockAfterViolations + 1
    let blockFor := min (tempBlockBase * multiplier) tempBlockMax
    (.temporarilyBlocked, { counted with temporaryBlockUntil := some (now + blockFor) })
  else
    (reason, counted)

/-- A refusal that counts as a violation. -/
def refuse (st : IpProtectionState F) (now : Instant) (reason : DropReason) :
    Except DropReason Unit × IpProtectionState F :=
  let r := st.recordViolation now reason
  (.error r.1, r.2)

/-- What `tcp_connection_opened` does with the entry of its address. -/
def openTcp (st : IpProtectionState F) (settings : DdosGuardSettings F) (now : Instant) :
    Except DropReason Unit × IpProtectionState F :=
  match st.blockReason now with
  | (some reason, st) => (.error reason, st)
  | (none, st) =>
    if settings.tcpMaxActivePerIp ≤ st.activeTcpConnections then
      st.refuse now .tcpActiveConnectionLimit
    else
      let bucket := st.tcpNewConnections.consume asSecsF64 ((1 : Nat) : F) now
      let st := { st with tcpNewConnections := bucket.2 }
      if bucket.1 then
        (.ok (), { st with
          activeTcpConnections := st.activeTcpConnections + 1
          lastSeen := now })
      else
        st.refuse now .tcpNewConnectionRateLimit

/-- What `udp_datagram_allowed` does with the entry of its address. -/
def allowDatagram (st : IpProtectionState F) (settings : DdosGuardSettings F) (bytes : Nat)
    (now : Instant) : Except DropReason Unit × IpProtectionState F :=
  match st.blockReason now with
  | (some reason, st) => (.error reason, st)
  | (none, st) =>
    if settings.udpMaxDatagramBytes < bytes then
      st.refuse now .udpDatagramTooLarge
    else
      let packets := st.udpPackets.consume asSecsF64 ((1 : Nat) : F) now
      let st := { st with udpPackets := packets.2 }
      if packets.1 then
        let counted := st.udpBytes.consume asSecsF64 (bytes : F) now
        let st := { st with udpBytes := counted.2 }
        if counted.1 then (.ok (), { st with lastSeen := now })
        else st.refuse now .udpByteRateLimit
      else
        st.refuse now .udpPacketRateLimit

/-- The condition under which pruning keeps an entry. -/
def retained (now : Instant) (st : IpProtectionState F) : Bool :=
  decide (0 < st.activeTcpConnections) ||
    st.temporaryBlockUntil.any (fun blockedUntil => decide (now < blockedUntil)) ||
    decide (durationSince now st.lastSeen < idleStateRetention)

end IpProtectionState

/-! ### The table -/

def pruneIdleStates (now : Instant) (states : ProtectionStates F) : ProtectionStates F :=
  fun ip => (states ip).filter (IpProtectionState.retained now)

/-- `states.entry(ip).or_insert_with(..)` on the pruned table, and an operation
on the entry. -/
def onEntry (settings : DdosGuardSettings F) (now : Instant) (ip : IpAddr)
    (op : IpProtectionState F → Except DropReason Unit × IpProtectionState F)
    (states : ProtectionStates F) : Except DropReason Unit × ProtectionStates F :=
  let states := pruneIdleStates now states
  let r := op ((states ip).getD (IpProtectionState.new now settings))
  (r.1, Function.update states ip (some r.2))

def tcpConnectionOpened (settings : DdosGuardSettings F) (now : Instant) (ip : IpAddr)
    (states : ProtectionStates F) :
    Except DropReason TcpConnectionPermit × ProtectionStates F :=
  if settings.enabled then
    let r := onEntry settings now ip (fun st => st.openTcp asSecsF64 settings now) states
    (r.1.map (fun _ => { ip := ip, released := false }), r.2)
  else
    (.ok { ip := ip, released := true }, states)

def udpDatagramAllowed (settings : DdosGuardSettings F) (now : Instant) (ip : IpAddr)
    (bytes : Nat) (states : ProtectionStates F) :
    Except DropReason Unit × ProtectionStates F :=
  if settings.enabled then
    onEntry settings now ip (fun st => st.allowDatagram asSecsF64 settings bytes now) states
  else
    (.ok (), states)

def tcpConnectionClosed (now : Instant) (ip : IpAddr) (states : ProtectionStates F) :
    ProtectionStates F :=
  match states ip with
  | none => states
  | some st =>
    Function.update states ip (some { st with
      activeTcpConnections := st.activeTcpConnections - 1
      lastSeen := now })

/-- `Drop for TcpConnectionPermit`. -/
def dropPermit (now : Instant) (permit : TcpConnectionPermit) (states : ProtectionStates F) :
    ProtectionStates F :=
  if permit.released then states else tcpConnectionClosed now permit.ip states

/-! ### The guard in use -/

/-- The table, the permits that were handed out and not yet dropped, and the
time of the last operation. -/
structure GuardRun (F : Type) where
  states : ProtectionStates F
  permits : List TcpConnectionPermit
  clock : Instant

/-- The operations of the guard. -/
inductive GuardOp where
  | tcpOpened (ip : IpAddr)
  | udpDatagram (ip : IpAddr) (bytes : Nat)
  /-- The holder of the permit at this position lets go of it. -/
  | dropped (position : Nat)

/-- An operation with its time. -/
structure GuardEvent where
  now : Instant
  op : GuardOp

def GuardRun.start : GuardRun F where
  states := fun _ => none
  permits := []
  clock := 0

def GuardRun.step (settings : DdosGuardSettings F) (g : GuardRun F) (e : GuardEvent) :
    Option (GuardRun F) :=
  match e.op with
  | .tcpOpened ip =>
    let r := tcpConnectionOpened asSecsF64 settings e.now ip g.states
    some {
      states := r.2
      permits := r.1.toOption.toList ++ g.permits
      clock := e.now }
  | .udpDatagram ip bytes =>
    some { g with
      states := (udpDatagramAllowed asSecsF64 settings e.now ip bytes g.states).2
      clock := e.now }
  | .dropped position =>
    match g.permits[position]? with
    | none => none
    | some permit =>
      some {
        states := dropPermit e.now permit g.states
        permits := g.permits.eraseIdx position
        clock := e.now }

/-- Operations happen at non-decreasing times. -/
def InOrder (g : GuardRun F) (e : GuardEvent) : Prop := g.clock ≤ e.now

end Buckets

end FerrumProxy
