import FerrumProxy.ClientIdentity
import FerrumProxy.GuardedRuns

/-!
# PROXY headers and the mappings of the backends

A RakNet session with `haproxy` sends a PROXY header with its first datagram and again when it takes
the backend's mapping of its socket for expired.  Beside the session the model has what the backends
know: a mapping that a header creates, that every datagram refreshes, and that is dropped after ten
seconds without one.

The session decides by its own idle clock, which replies to the client reset too, and forgets that a
header was sent whenever a send fails.
-/

namespace FerrumProxy

open Wire

/-- Time in milliseconds since the session was made. -/
abbrev Millis := Nat

def cloudburstProxyMappingTimeoutMs : Millis := 10000

/-- The session as sending uses it. -/
structure UdpSession where
  activeTargetIndex : Nat
  headerSent : Bool
  lastActivityMs : Millis
  resolvedTargets : List (Option SocketAddr)

/-- A session as `obtain_session` makes it. -/
def UdpSession.new (targetCount : Nat) : UdpSession where
  activeTargetIndex := 0
  headerSent := false
  lastActivityMs := 0
  resolvedTargets := List.replicate targetCount none

def UdpSession.touch (session : UdpSession) (now : Millis) : UdpSession :=
  { session with lastActivityMs := now }

def UdpSession.msSinceLastActivity (session : UdpSession) (now : Millis) : Millis :=
  now - session.lastActivityMs

/-- What the network does while a datagram is sent: what the hosts resolve to,
and whether the socket takes a datagram for the target at an index. -/
structure Network where
  lookupHost : Str.Text → UInt16 → Option SocketAddr
  sendTo : Nat → Bool

/-- A datagram that was sent to a backend. -/
structure SentDatagram where
  target : SocketAddr
  header : Bool
  bytes : Bytes

section Sending

variable (rule : ListenerRule) (network : Network) (originalClient : SocketAddr) (payload : Bytes)

/-- `send_to_target` from the resolved address on. -/
def sendResolved (session : UdpSession) (targetAddr : SocketAddr) (targetPort : UInt16)
    (targetIndex : Nat) : UdpSession × Option SentDatagram :=
  let needHeader := rule.usesRaknetUdp && rule.haproxy && !session.headerSent
  let bytes :=
    datagramToTarget rule session.headerSent originalClient payload targetAddr targetPort
  let session := if needHeader then { session with headerSent := true } else session
  if network.sendTo targetIndex then
    ({ session with activeTargetIndex := targetIndex },
      some { target := targetAddr, header := needHeader, bytes := bytes })
  else
    (session, none)

def sendToTarget (session : UdpSession) (target : ProxyTarget) (targetPort : UInt16)
    (targetIndex : Nat) : UdpSession × Option SentDatagram :=
  match session.resolvedTargets[targetIndex]?.join with
  | some addr =>
    sendResolved rule network originalClient payload session addr targetPort targetIndex
  | none =>
    match network.lookupHost target.host targetPort with
    | none => (session, none)
    | some resolved =>
      sendResolved rule network originalClient payload
        { session with
          resolvedTargets := session.resolvedTargets.set targetIndex (some resolved) }
        resolved targetPort targetIndex

/-- The loop of `try_send_udp` over the targets that are left. -/
def trySendFrom (session : UdpSession) :
    List (ProxyTarget × Nat) → UdpSession × Option SentDatagram
  | [] => (session, none)
  | (target, index) :: rest =>
    match target.udp with
    | none => trySendFrom session rest
    | some targetPort =>
      match
        sendToTarget rule network originalClient payload session target targetPort index with
      | (session, some sent) => ({ session with activeTargetIndex := index }, some sent)
      | (session, none) => trySendFrom { session with headerSent := false } rest

/-- The targets from the active one on, with their indices. -/
def remainingTargets (session : UdpSession) : List (ProxyTarget × Nat) :=
  (rule.targetsFor .udp).zipIdx.drop session.activeTargetIndex

def trySendUdp (session : UdpSession) : UdpSession × Option SentDatagram :=
  trySendFrom rule network originalClient payload session (remainingTargets rule session)

/-- `handle_datagram` from the check of the idle time on. -/
def forwardDatagram (now : Millis) (session : UdpSession) : UdpSession × Option SentDatagram :=
  let expired := rule.usesRaknetUdp && rule.haproxy &&
    decide (cloudburstProxyMappingTimeoutMs ≤ session.msSinceLastActivity now)
  let session := if expired then { session with headerSent := false } else session
  match trySendUdp rule network originalClient payload session with
  | (session, some sent) => (session.touch now, some sent)
  | (session, none) => (session, none)

end Sending

/-! ### The backends -/

/-- A mapping that was refreshed at the given time is alive. -/
def alive (now : Millis) (refreshed : Option Millis) : Bool :=
  refreshed.any (fun last => decide (now - last < cloudburstProxyMappingTimeoutMs))

/-- The mapping of the session's socket after one of its datagrams. -/
def receiveMapped (now : Millis) (header : Bool) (mapping : Option Millis) : Option Millis :=
  if header || alive now mapping then some now else none

/-- A session and its backends. -/
structure UdpLink where
  session : UdpSession
  /-- When the mapping at each backend was last refreshed. -/
  mappings : SocketAddr → Option Millis
  /-- When each backend last got a datagram. -/
  received : SocketAddr → Option Millis
  clock : Millis

/-- What happens to a session. -/
inductive LinkEvent where
  | datagram (now : Millis) (network : Network) (originalClient : SocketAddr) (payload : Bytes)
  /-- A reply of a backend was forwarded to the client. -/
  | reply (now : Millis)

def LinkEvent.now : LinkEvent → Millis
  | .datagram now _ _ _ => now
  | .reply now => now

def UdpLink.start (rule : ListenerRule) : UdpLink where
  session := UdpSession.new (rule.targetsFor .udp).length
  mappings := fun _ => none
  received := fun _ => none
  clock := 0

/-- The datagram that the event sends. -/
def UdpLink.sends (rule : ListenerRule) (link : UdpLink) : LinkEvent → Option SentDatagram
  | .datagram now network originalClient payload =>
    (forwardDatagram rule network originalClient payload now link.session).2
  | .reply _ => none

def UdpLink.deliver (link : UdpLink) (now : Millis) (sent : SentDatagram) : UdpLink :=
  { link with
    mappings := Function.update link.mappings sent.target
      (receiveMapped now sent.header (link.mappings sent.target))
    received := Function.update link.received sent.target (some now) }

def UdpLink.step (rule : ListenerRule) (link : UdpLink) (event : LinkEvent) : Option UdpLink :=
  match event with
  | .datagram now network originalClient payload =>
    let r := forwardDatagram rule network originalClient payload now link.session
    let moved := { link with session := r.1, clock := now }
    match r.2 with
    | none => some moved
    | some sent => some (moved.deliver now sent)
  | .reply now => some { link with session := link.session.touch now, clock := now }

/-- The datagram that the event sends carries a header exactly when its target
has no live mapping. -/
def UdpLink.Matches (rule : ListenerRule) (link : UdpLink) (event : LinkEvent) : Prop :=
  ∀ sent ∈ link.sends rule event,
    (sent.header = true ↔ alive event.now (link.mappings sent.target) = false)

instance (rule : ListenerRule) (link : UdpLink) (event : LinkEvent) :
    Decidable (link.Matches rule event) :=
  inferInstanceAs (Decidable (∀ sent ∈ link.sends rule event, _))

/-! ### When the session and the backends agree -/

/-- The address under which a target takes the datagram, if it does. -/
def accepts (network : Network) (slots : List (Option SocketAddr))
    (candidate : ProxyTarget × Nat) : Option SocketAddr :=
  match candidate.1.udp with
  | none => none
  | some targetPort =>
    if network.sendTo candidate.2 then
      slots[candidate.2]?.join.or (network.lookupHost candidate.1.host targetPort)
    else none

/-- The backend that gets the datagram, and whether the first one tried took it. -/
def acceptor (network : Network) (slots : List (Option SocketAddr)) :
    List (ProxyTarget × Nat) → Option (SocketAddr × Bool)
  | [] => none
  | candidate :: rest =>
    match accepts network slots candidate with
    | some addr => some (addr, true)
    | none => (acceptor network slots rest).map (fun found => (found.1, false))

/-- The event is in time, and if a backend takes the datagram:

* after a failed send, of this datagram or of the last one (or for the first
  datagram at all), that backend has got none in the last ten seconds;
* otherwise, if there was any activity in the last ten seconds, that backend has
  also got a datagram in the last ten seconds. -/
def UdpLink.Timely (rule : ListenerRule) (link : UdpLink) (event : LinkEvent) : Prop :=
  link.clock ≤ event.now ∧
    match event with
    | .reply _ => True
    | .datagram now network _ _ =>
      ∀ found ∈
          acceptor network link.session.resolvedTargets (remainingTargets rule link.session),
        if link.session.headerSent && found.2 then
          link.session.msSinceLastActivity now < cloudburstProxyMappingTimeoutMs →
            alive now (link.received found.1) = true
        else alive now (link.received found.1) = false

instance (rule : ListenerRule) (link : UdpLink) :
    ∀ event : LinkEvent, Decidable (link.Timely rule event)
  | .reply now => inferInstanceAs (Decidable (link.clock ≤ now ∧ True))
  | .datagram now network _ _ =>
    inferInstanceAs (Decidable (link.clock ≤ now ∧ ∀ found ∈
      acceptor network link.session.resolvedTargets (remainingTargets rule link.session), _))

/-! ### One target -/

open List

section Attempts

variable {rule : ListenerRule} {network : Network} (originalClient : SocketAddr) (payload : Bytes)
  {session : UdpSession}

/-- The session after a datagram went to an address. -/
structure UdpSession.SentTo (before after : UdpSession) (addr : SocketAddr) : Prop where
  armed : after.headerSent = true
  activity : after.lastActivityMs = before.lastActivityMs
  slots : after.resolvedTargets.length = before.resolvedTargets.length
  resolved : after.resolvedTargets[after.activeTargetIndex]?.join = some addr

/-- The session after the target at an index took no datagram. -/
structure UdpSession.Missed (before after : UdpSession) (index : Nat) : Prop where
  active : after.activeTargetIndex = before.activeTargetIndex
  activity : after.lastActivityMs = before.lastActivityMs
  slots : after.resolvedTargets.length = before.resolvedTargets.length
  others : ∀ j, j ≠ index → after.resolvedTargets[j]? = before.resolvedTargets[j]?

variable {addr : SocketAddr} {port : UInt16} {index : Nat} {target : ProxyTarget}
  {candidates : List (ProxyTarget × Nat)}

/-- The datagram goes to the address that is resolved, or that the lookup finds. -/
theorem sendToTarget_eq (rule : ListenerRule) (network : Network) (session : UdpSession)
    (target : ProxyTarget) (port : UInt16) (index : Nat) :
    sendToTarget rule network originalClient payload session target port index =
      match session.resolvedTargets[index]?.join.or (network.lookupHost target.host port) with
      | none => (session, none)
      | some addr => sendResolved rule network originalClient payload
          { session with resolvedTargets := session.resolvedTargets.set index (some addr) }
          addr port index := by
  unfold sendToTarget
  cases hslot : session.resolvedTargets[index]?.join with
  | none => cases network.lookupHost target.host port <;> rfl
  | some addr =>
    obtain ⟨hindex, hsame⟩ := List.getElem?_eq_some_iff.mp (Option.join_eq_some_iff.mp hslot)
    rw [Option.some_or]
    dsimp only
    rw [← hsame, set_getElem_self]

theorem sendToTarget_taken (hraknet : rule.usesRaknetUdp = true) (hproxy : rule.haproxy = true)
    (hport : target.udp = some port) (hindex : index < session.resolvedTargets.length)
    (haccepts : accepts network session.resolvedTargets (target, index) = some addr) :
    ∃ after sent,
      sendToTarget rule network originalClient payload session target port index =
        (after, some sent) ∧ sent.target = addr ∧ sent.header = !session.headerSent ∧
        session.SentTo after addr ∧ after.activeTargetIndex = index := by
  simp only [accepts, hport] at haccepts
  obtain ⟨hsend, hfound⟩ := Option.ite_none_right_eq_some.mp haccepts
  have hset : (session.resolvedTargets.set index (some addr))[index]?.join = some addr := by
    rw [getElem?_set_self hindex]
    rfl
  rw [sendToTarget_eq, hfound]
  dsimp only [sendResolved]
  rw [hraknet, hproxy, hsend, if_pos rfl]
  refine ⟨_, _, rfl, rfl, rfl, ?_, rfl⟩
  cases session.headerSent <;> exact ⟨rfl, rfl, length_set, hset⟩

theorem sendToTarget_missed (rule : ListenerRule) (hport : target.udp = some port)
    (haccepts : accepts network session.resolvedTargets (target, index) = none) :
    ∃ after, sendToTarget rule network originalClient payload session target port index =
        (after, none) ∧ session.Missed after index := by
  rw [sendToTarget_eq]
  cases hfound : session.resolvedTargets[index]?.join.or (network.lookupHost target.host port) with
  | none => exact ⟨session, rfl, rfl, rfl, rfl, fun _ _ => rfl⟩
  | some addr =>
    have hsend : network.sendTo index = false := by simpa [accepts, hport, hfound] using haccepts
    dsimp only [sendResolved]
    rw [hsend, if_neg Bool.false_ne_true]
    refine ⟨_, rfl, ?_⟩
    split <;> exact ⟨rfl, rfl, length_set, fun j hj => getElem?_set_ne hj.symm⟩

/-! ### All targets -/

theorem acceptor_congr {slots slots' : List (Option SocketAddr)}
    (h : ∀ c ∈ candidates, slots'[c.2]? = slots[c.2]?) :
    acceptor network slots' candidates = acceptor network slots candidates := by
  induction candidates with
  | nil => rfl
  | cons c rest ih =>
    have hhead : accepts network slots' c = accepts network slots c := by
      unfold accepts
      rw [h c mem_cons_self]
    unfold acceptor
    rw [hhead, ih (fun d hd => h d (mem_cons_of_mem _ hd))]

/-- Targets that can be tried: each has a port and a slot, and no slot is tried
twice. -/
structure Candidates (session : UdpSession) (candidates : List (ProxyTarget × Nat)) : Prop where
  ports : ∀ c ∈ candidates, ∃ port, c.1.udp = some port
  slots : ∀ c ∈ candidates, c.2 < session.resolvedTargets.length
  distinct : (candidates.map Prod.snd).Nodup

theorem Candidates.tail {session after : UdpSession} {c : ProxyTarget × Nat}
    {rest : List (ProxyTarget × Nat)} (h : Candidates session (c :: rest))
    (hslots : after.resolvedTargets.length = session.resolvedTargets.length) :
    Candidates after rest where
  ports d hd := h.ports d (mem_cons_of_mem _ hd)
  slots d hd := hslots ▸ h.slots d (mem_cons_of_mem _ hd)
  distinct := (nodup_cons.mp h.distinct).2

/-- **What `try_send_udp` does.**  The acceptor gets the datagram, with a header
unless one was sent and no target was missed; without an acceptor the header
counts as not sent. -/
theorem trySendFrom_spec (network : Network) (originalClient : SocketAddr) (payload : Bytes)
    (hraknet : rule.usesRaknetUdp = true) (hproxy : rule.haproxy = true)
    (hcandidates : Candidates session candidates) :
    match acceptor network session.resolvedTargets candidates with
    | some (addr, first) => ∃ after sent,
        trySendFrom rule network originalClient payload session candidates =
          (after, some sent) ∧ sent.target = addr ∧
          sent.header = !(session.headerSent && first) ∧ session.SentTo after addr
    | none => ∃ after,
        trySendFrom rule network originalClient payload session candidates = (after, none) ∧
          after.activeTargetIndex = session.activeTargetIndex ∧
          after.lastActivityMs = session.lastActivityMs ∧
          after.resolvedTargets.length = session.resolvedTargets.length ∧
          (after.headerSent = true → after = session) := by
  induction candidates generalizing session with
  | nil =>
    exact ⟨session, rfl, rfl, rfl, rfl, fun _ => rfl⟩
  | cons c rest ih =>
    obtain ⟨target, index⟩ := c
    obtain ⟨port, hport⟩ := hcandidates.ports _ mem_cons_self
    have hindex := hcandidates.slots _ mem_cons_self
    unfold acceptor
    cases haccepts : accepts network session.resolvedTargets (target, index) with
    | some addr =>
      obtain ⟨after, sent, heq, htarget, hheader, hsent, hactive⟩ :=
        sendToTarget_taken originalClient payload hraknet hproxy hport hindex haccepts
      refine ⟨{ after with activeTargetIndex := index }, sent, ?_, htarget, ?_, ?_⟩
      · unfold trySendFrom
        rw [hport]
        dsimp only
        rw [heq]
      · rw [hheader, Bool.and_true]
      · have hresolved := hsent.resolved
        rw [hactive] at hresolved
        exact ⟨hsent.armed, hsent.activity, hsent.slots, hresolved⟩
    | none =>
      obtain ⟨after, heq, hmissed⟩ :=
        sendToTarget_missed originalClient payload rule hport haccepts
      -- the rest is tried by a session that has forgotten its header
      have htail : Candidates { after with headerSent := false } rest :=
        hcandidates.tail hmissed.slots
      have hrest := ih htail
      have hsame : acceptor network after.resolvedTargets rest =
          acceptor network session.resolvedTargets rest := by
        apply acceptor_congr
        intro d hd
        apply hmissed.others
        intro hsecond
        have hnew := (nodup_cons.mp hcandidates.distinct).1
        have hmem : d.2 ∈ rest.map Prod.snd := List.mem_map_of_mem hd
        exact hnew (hsecond ▸ hmem)
      have hloop : trySendFrom rule network originalClient payload session
          ((target, index) :: rest) = trySendFrom rule network originalClient payload
            { after with headerSent := false } rest := by
        conv_lhs => unfold trySendFrom
        rw [hport]
        dsimp only
        rw [heq]
      dsimp only at hrest ⊢
      rw [hsame] at hrest
      rw [hloop]
      cases hacceptor : acceptor network session.resolvedTargets rest with
      | none =>
        rw [hacceptor] at hrest
        obtain ⟨last, hlast, hactive, hactivity, hslots, hkept⟩ := hrest
        refine ⟨last, hlast, hactive.trans hmissed.active,
          hactivity.trans hmissed.activity, hslots.trans hmissed.slots, ?_⟩
        intro harmed
        rw [hkept harmed] at harmed
        cases harmed
      | some found =>
        obtain ⟨addr, first⟩ := found
        rw [hacceptor] at hrest
        obtain ⟨last, sent, hlast, htarget, hheader, hsent⟩ := hrest
        refine ⟨last, sent, hlast, htarget, ?_, ?_⟩
        · rw [hheader, Bool.and_false, Bool.false_and]
        · exact ⟨hsent.armed, hsent.activity.trans hmissed.activity,
            hsent.slots.trans hmissed.slots, hsent.resolved⟩

end Attempts

/-! ### Runs -/

section Runs

variable {rule : ListenerRule} {link link' : UdpLink} {event : LinkEvent}

/-- The backends have seen what the session believes: their mappings are as old
as the last datagram they got, and a session that counts its header as sent has
sent its last datagram to the active target. -/
structure UdpLink.InStep (rule : ListenerRule) (link : UdpLink) : Prop where
  mapped : link.mappings = link.received
  slots : link.session.resolvedTargets.length = (rule.targetsFor .udp).length
  activity : link.session.lastActivityMs ≤ link.clock
  armed : link.session.headerSent = true → ∃ addr last,
    link.session.resolvedTargets[link.session.activeTargetIndex]?.join = some addr ∧
      link.received addr = some last ∧ last ≤ link.session.lastActivityMs

theorem inStep_start (rule : ListenerRule) : (UdpLink.start rule).InStep rule where
  mapped := rfl
  slots := length_replicate
  activity := le_refl 0
  armed h := by cases h

theorem candidates_remaining {session : UdpSession}
    (hslots : session.resolvedTargets.length = (rule.targetsFor .udp).length) :
    Candidates session (remainingTargets rule session) where
  ports c hc := by
    have htarget := fst_mem_of_mem_zipIdx (mem_of_mem_drop hc)
    obtain ⟨_, hport⟩ := mem_filter.mp htarget
    exact Option.isSome_iff_exists.mp hport
  slots c hc := by
    have hlt := snd_lt_of_mem_zipIdx (mem_of_mem_drop hc)
    omega
  distinct := by
    unfold remainingTargets
    rw [map_drop, zipIdx_map_snd]
    exact (nodup_range').drop

variable {addr : SocketAddr} {now : Millis}

theorem acceptor_first {network : Network} {session : UdpSession} {known : SocketAddr}
    (hslot : session.resolvedTargets[session.activeTargetIndex]?.join = some known)
    (hacceptor : acceptor network session.resolvedTargets (remainingTargets rule session) =
      some (addr, true)) : addr = known := by
  cases hremaining : remainingTargets rule session with
  | nil =>
    rw [hremaining] at hacceptor
    cases hacceptor
  | cons c rest =>
    have hindex : c.2 = session.activeTargetIndex := by
      have hhead : (remainingTargets rule session).head? = some c := by rw [hremaining]; rfl
      unfold remainingTargets at hhead
      rw [List.head?_drop, List.getElem?_zipIdx] at hhead
      obtain ⟨target, _, rfl⟩ := Option.map_eq_some_iff.mp hhead
      exact Nat.zero_add _
    rw [hremaining] at hacceptor
    unfold acceptor at hacceptor
    cases haccepts : accepts network session.resolvedTargets c with
    | none =>
      rw [haccepts] at hacceptor
      obtain ⟨found, _, hfound⟩ := Option.map_eq_some_iff.mp hacceptor
      cases hfound
    | some found =>
      rw [haccepts] at hacceptor
      cases hacceptor
      unfold accepts at haccepts
      rw [hindex, hslot] at haccepts
      split at haccepts
      · cases haccepts
      · split at haccepts <;> cases haccepts
        rfl

/-- The header counts as sent, and the idle time does not say otherwise. -/
def UdpSession.trusted (session : UdpSession) (now : Millis) : Bool :=
  session.headerSent &&
    decide (session.msSinceLastActivity now < cloudburstProxyMappingTimeoutMs)

theorem forwardDatagram_eq (hraknet : rule.usesRaknetUdp = true) (hproxy : rule.haproxy = true)
    (network : Network) (originalClient : SocketAddr) (payload : Bytes) (now : Millis)
    (session : UdpSession) :
    forwardDatagram rule network originalClient payload now session =
      match trySendFrom rule network originalClient payload
        { session with headerSent := session.trusted now } (remainingTargets rule session) with
      | (session, some sent) => (session.touch now, some sent)
      | (session, none) => (session, none) := by
  have harmed : (if (rule.usesRaknetUdp && rule.haproxy &&
        decide (cloudburstProxyMappingTimeoutMs ≤ session.msSinceLastActivity now)) = true
      then { session with headerSent := false } else session) =
      { session with headerSent := session.trusted now } := by
    unfold UdpSession.trusted
    rw [hraknet, hproxy]
    by_cases hidle : cloudburstProxyMappingTimeoutMs ≤ session.msSinceLastActivity now
    · rw [decide_eq_true hidle, decide_eq_false (Nat.not_lt.mpr hidle), Bool.and_false]
      rfl
    · have hbusy := Nat.not_le.mp hidle
      simp [hidle, hbusy]
  unfold forwardDatagram trySendUdp
  dsimp only
  rw [harmed]
  rfl

theorem forwardDatagram_spec (hraknet : rule.usesRaknetUdp = true) (hproxy : rule.haproxy = true)
    (network : Network) (originalClient : SocketAddr) (payload : Bytes) (now : Millis)
    {session : UdpSession}
    (hslots : session.resolvedTargets.length = (rule.targetsFor .udp).length) :
    match acceptor network session.resolvedTargets (remainingTargets rule session) with
    | some (addr, first) => ∃ after sent,
        forwardDatagram rule network originalClient payload now session =
          (after.touch now, some sent) ∧ sent.target = addr ∧
          sent.header = !(session.trusted now && first) ∧ session.SentTo after addr
    | none => ∃ after,
        forwardDatagram rule network originalClient payload now session = (after, none) ∧
          after.activeTargetIndex = session.activeTargetIndex ∧
          after.lastActivityMs = session.lastActivityMs ∧
          after.resolvedTargets.length = session.resolvedTargets.length ∧
          (after.headerSent = true → after = session) := by
  have hcandidates : Candidates { session with headerSent := session.trusted now }
      (remainingTargets rule session) := candidates_remaining hslots
  have hspec := trySendFrom_spec network originalClient payload hraknet hproxy hcandidates
  rw [forwardDatagram_eq hraknet hproxy]
  dsimp only at hspec
  cases hacceptor : acceptor network session.resolvedTargets (remainingTargets rule session) with
  | some found =>
    obtain ⟨addr, first⟩ := found
    rw [hacceptor] at hspec
    obtain ⟨after, sent, heq, htarget, hheader, hsent⟩ := hspec
    rw [heq]
    exact ⟨after, sent, rfl, htarget, hheader,
      ⟨hsent.armed, hsent.activity, hsent.slots, hsent.resolved⟩⟩
  | none =>
    rw [hacceptor] at hspec
    obtain ⟨after, heq, hactive, hactivity, hlength, hkept⟩ := hspec
    rw [heq]
    refine ⟨after, rfl, hactive, hactivity, hlength, ?_⟩
    intro harmed
    have hafter := hkept harmed
    have htrusted : session.trusted now = true := by
      rw [hafter] at harmed
      exact harmed
    have hsent : session.headerSent = true := (Bool.and_eq_true_iff.mp htrusted).1
    rw [hafter, htrusted, ← hsent]

/-! ### The theorem -/

theorem alive_eq_false_of_le {last activity : Millis} (hle : last ≤ activity)
    (hidle : ¬ now - activity < cloudburstProxyMappingTimeoutMs) :
    alive now (some last) = false := by
  have hlong : ¬ now - last < cloudburstProxyMappingTimeoutMs :=
    fun h => hidle (lt_of_le_of_lt (Nat.sub_le_sub_left hle now) h)
  exact decide_eq_false hlong

/-- A trusted session whose active target takes the datagram sent the last one
there. -/
theorem not_alive_of_idle (hlink : link.InStep rule) {network : Network}
    (hsent : link.session.headerSent = true)
    (hacceptor : acceptor network link.session.resolvedTargets
      (remainingTargets rule link.session) = some (addr, true))
    (hidle : ¬ link.session.msSinceLastActivity now < cloudburstProxyMappingTimeoutMs) :
    alive now (link.received addr) = false := by
  obtain ⟨known, last, hslot, hreceived, hle⟩ := hlink.armed hsent
  rw [acceptor_first hslot hacceptor, hreceived]
  exact alive_eq_false_of_le hle hidle

theorem timely_iff (hlink : link.InStep rule) {network : Network} (originalClient : SocketAddr)
    (payload : Bytes) (horder : link.clock ≤ now) {first : Bool}
    (hacceptor : acceptor network link.session.resolvedTargets
      (remainingTargets rule link.session) = some (addr, first)) :
    link.Timely rule (.datagram now network originalClient payload) ↔
      (link.session.trusted now && first) = alive now (link.received addr) := by
  have honly : link.Timely rule (.datagram now network originalClient payload) ↔
      if link.session.headerSent && first then
        link.session.msSinceLastActivity now < cloudburstProxyMappingTimeoutMs →
          alive now (link.received addr) = true
      else alive now (link.received addr) = false := by
    unfold UdpLink.Timely
    dsimp only
    rw [hacceptor]
    constructor
    · intro h
      exact h.2 (addr, first) rfl
    · intro h
      refine ⟨horder, fun found heq => ?_⟩
      cases heq
      exact h
  rw [honly]
  unfold UdpSession.trusted
  cases first with
  | false =>
    rw [Bool.and_false, Bool.and_false, if_neg Bool.false_ne_true]
    exact eq_comm
  | true =>
    cases hsent : link.session.headerSent with
    | false =>
      rw [Bool.and_true, if_neg Bool.false_ne_true, Bool.false_and, Bool.false_and]
      exact eq_comm
    | true =>
      by_cases hbusy : link.session.msSinceLastActivity now < cloudburstProxyMappingTimeoutMs
      · rw [decide_eq_true hbusy, Bool.and_true, if_pos rfl]
        exact ⟨fun h => (h hbusy).symm, fun h _ => h.symm⟩
      · rw [decide_eq_false hbusy, Bool.and_true, if_pos rfl,
          not_alive_of_idle hlink hsent hacceptor hbusy]
        exact ⟨fun _ => rfl, fun _ h => absurd h hbusy⟩

/-- In step with the backends, a datagram is right exactly when it is timely. -/
theorem matches_iff_timely (hraknet : rule.usesRaknetUdp = true) (hproxy : rule.haproxy = true)
    (hlink : link.InStep rule) (horder : link.clock ≤ event.now) :
    link.Matches rule event ↔ link.Timely rule event := by
  cases event with
  | reply now =>
    refine ⟨fun _ => ⟨horder, trivial⟩, fun _ sent hsent => ?_⟩
    cases hsent
  | datagram now network originalClient payload =>
    have horder' : link.clock ≤ now := horder
    have hspec := forwardDatagram_spec hraknet hproxy network originalClient payload now hlink.slots
    cases hacceptor : acceptor network link.session.resolvedTargets
        (remainingTargets rule link.session) with
    | none =>
      rw [hacceptor] at hspec
      obtain ⟨after, heq, _⟩ := hspec
      unfold UdpLink.Matches UdpLink.Timely UdpLink.sends
      dsimp only
      rw [heq, hacceptor]
      exact ⟨fun _ => ⟨horder, fun _ h => by cases h⟩, fun _ _ h => by cases h⟩
    | some found =>
      obtain ⟨addr, first⟩ := found
      rw [hacceptor] at hspec
      obtain ⟨after, sent, heq, htarget, hheader, _⟩ := hspec
      rw [timely_iff hlink originalClient payload horder' hacceptor]
      unfold UdpLink.Matches UdpLink.sends
      dsimp only [LinkEvent.now]
      rw [heq, hlink.mapped, ← htarget]
      have hbool : ∀ trusted live : Bool, ((!trusted) = true ↔ live = false) ↔
          trusted = live := by decide
      rw [← hbool, ← hheader]
      constructor
      · intro h
        exact h sent rfl
      · intro h sent' hsent'
        cases hsent'
        exact h

/-- Whether with a header or without one, the mapping is now as old as the datagram. -/
theorem receiveMapped_of_iff {header : Bool} {mapping : Option Millis}
    (h : header = true ↔ alive now mapping = false) :
    receiveMapped now header mapping = some now := by
  have htouched : (header || alive now mapping) = true := by
    cases header with
    | true => rfl
    | false =>
      rw [Bool.false_or, ← Bool.not_eq_false]
      exact fun hdead => Bool.false_ne_true (h.mpr hdead)
  unfold receiveMapped
  rw [if_pos htouched]

theorem inStep_step (hraknet : rule.usesRaknetUdp = true) (hproxy : rule.haproxy = true)
    (hlink : link.InStep rule) (htimely : link.Timely rule event)
    (hstep : link.step rule event = some link') : link'.InStep rule := by
  cases event with
  | reply now =>
    cases hstep
    refine ⟨hlink.mapped, hlink.slots, le_refl now, ?_⟩
    intro hsent
    obtain ⟨addr, last, hslot, hreceived, hle⟩ := hlink.armed hsent
    exact ⟨addr, last, hslot, hreceived, hle.trans (hlink.activity.trans htimely.1)⟩
  | datagram now network originalClient payload =>
    have horder : link.clock ≤ now := htimely.1
    have hmatches := (matches_iff_timely hraknet hproxy hlink htimely.1).mpr htimely
    have hspec := forwardDatagram_spec hraknet hproxy network originalClient payload now hlink.slots
    dsimp only [UdpLink.step] at hstep
    unfold UdpLink.Matches UdpLink.sends at hmatches
    dsimp only at hmatches
    cases hacceptor : acceptor network link.session.resolvedTargets
        (remainingTargets rule link.session) with
    | none =>
      rw [hacceptor] at hspec
      obtain ⟨after, heq, hactive, hactivity, hslots, hkept⟩ := hspec
      rw [heq] at hstep
      cases hstep
      refine ⟨hlink.mapped, hslots.trans hlink.slots, hactivity.le.trans
        (hlink.activity.trans horder), ?_⟩
      intro hsent
      have hsame : after = link.session := hkept hsent
      dsimp only at hsent ⊢
      rw [hsame] at hsent ⊢
      exact hlink.armed hsent
    | some found =>
      obtain ⟨addr, first⟩ := found
      rw [hacceptor] at hspec
      obtain ⟨after, sent, heq, htarget, hheader, hsent⟩ := hspec
      rw [heq] at hstep hmatches
      cases hstep
      have hright := hmatches sent rfl
      have hmapping : receiveMapped now sent.header (link.mappings sent.target) = some now :=
        receiveMapped_of_iff hright
      refine ⟨?_, hsent.slots.trans hlink.slots, le_refl now, fun _ => ?_⟩
      · unfold UdpLink.deliver
        dsimp only
        rw [hmapping, hlink.mapped]
      · refine ⟨addr, now, hsent.resolved, ?_, le_refl now⟩
        rw [← htarget]
        exact Function.update_self _ _ _

/-- The events of a session come in the order of the clock. -/
def UdpLink.InOrder (link : UdpLink) (event : LinkEvent) : Prop := link.clock ≤ event.now

instance (link : UdpLink) (event : LinkEvent) : Decidable (link.InOrder event) :=
  inferInstanceAs (Decidable (link.clock ≤ event.now))

/-- **Headers and mappings.**  In every run of a RakNet session with `haproxy`,
every datagram carries a header exactly when its target has no live mapping if
and only if every event of the run is timely. -/
theorem header_iff_no_mapping (hraknet : rule.usesRaknetUdp = true) (hproxy : rule.haproxy = true)
    {events : List LinkEvent}
    (horder : Runs.Guarded (UdpLink.step rule) UdpLink.InOrder (UdpLink.start rule) events) :
    Runs.Guarded (UdpLink.step rule) (UdpLink.Matches rule) (UdpLink.start rule) events ↔
      Runs.Guarded (UdpLink.step rule) (UdpLink.Timely rule) (UdpLink.start rule) events :=
  Runs.guarded_congr
    (fun _ _ hlink hnow => matches_iff_timely hraknet hproxy hlink hnow)
    (fun _ _ _ hlink _ htimely hstep => inStep_step hraknet hproxy hlink htimely hstep)
    (inStep_start rule) horder

end Runs

/-! ### A reply that hides an expired mapping -/

/-- A backend behind a RakNet rule that sends headers. -/
def bedrockRule : ListenerRule :=
  { udp := some 19132, haproxy := true,
    target := some { host := "backend".toList, udp := some 19133 } }

def backendAddr : SocketAddr := ⟨.v4 (.new 10 0 0 2), 19133⟩

def steadyNetwork : Network := ⟨fun _ _ => some backendAddr, fun _ => true⟩

def clientDatagram (now : Millis) : LinkEvent := .datagram now steadyNetwork playerAddr [0x84]

/-- A datagram every six seconds, with a reply in between. -/
theorem header_iff_no_mapping_steady :
    Runs.Guarded (UdpLink.step bedrockRule) (UdpLink.Matches bedrockRule)
      (UdpLink.start bedrockRule) [clientDatagram 0, .reply 3000, clientDatagram 6000] := by
  refine (header_iff_no_mapping (by decide) (by decide) (by decide)).mpr ?_
  decide

/-- The client is silent for twelve seconds, but a reply reaches it after five:
its next datagram carries no header, and the mapping has expired. -/
theorem header_missing :
    ¬ ∀ (rule : ListenerRule), rule.usesRaknetUdp = true → rule.haproxy = true →
      ∀ events : List LinkEvent,
        Runs.Guarded (UdpLink.step rule) UdpLink.InOrder (UdpLink.start rule) events →
        Runs.Guarded (UdpLink.step rule) (UdpLink.Matches rule) (UdpLink.start rule) events := by
  intro hall
  have hmatches := hall bedrockRule (by decide) (by decide)
    [clientDatagram 0, .reply 5000, clientDatagram 12000] (by decide)
  revert hmatches
  decide

end FerrumProxy
