import FerrumProxy.DdosBuckets

/-!
# Pruning cannot be observed

The guard is compared with one that never prunes.  A request is answered from the `Standing` of an
entry alone, time moves the standing on, and an entry that is pruned has the standing of a new one,
provided that ten minutes refill every bucket.
-/

namespace FerrumProxy

/-! ### The guard that never prunes -/

section Kept

variable {F : Type} [Add F] [Sub F] [Mul F] [Min F] [NatCast F]
  [LT F] [DecidableLT F] [LE F] [DecidableLE F] (asSecsF64 : Duration → F)

def onEntryKept (settings : DdosGuardSettings F) (now : Instant) (ip : IpAddr)
    (op : IpProtectionState F → Except DropReason Unit × IpProtectionState F)
    (states : ProtectionStates F) : Except DropReason Unit × ProtectionStates F :=
  let r := op ((states ip).getD (IpProtectionState.new now settings))
  (r.1, Function.update states ip (some r.2))

def tcpConnectionOpenedKept (settings : DdosGuardSettings F) (now : Instant) (ip : IpAddr)
    (states : ProtectionStates F) :
    Except DropReason TcpConnectionPermit × ProtectionStates F :=
  if settings.enabled then
    let r := onEntryKept settings now ip (fun st => st.openTcp asSecsF64 settings now) states
    (r.1.map (fun _ => { ip := ip, released := false }), r.2)
  else
    (.ok { ip := ip, released := true }, states)

def udpDatagramAllowedKept (settings : DdosGuardSettings F) (now : Instant) (ip : IpAddr)
    (bytes : Nat) (states : ProtectionStates F) :
    Except DropReason Unit × ProtectionStates F :=
  if settings.enabled then
    onEntryKept settings now ip (fun st => st.allowDatagram asSecsF64 settings bytes now) states
  else
    (.ok (), states)

/-- One operation, with its answer. -/
def GuardTrace.stepKept (settings : DdosGuardSettings F) (t : GuardTrace F) (e : GuardEvent) :
    Option (GuardTrace F) :=
  match e.op with
  | .tcpOpened ip =>
    let r := tcpConnectionOpenedKept asSecsF64 settings e.now ip t.run.states
    some {
      run := {
        states := r.2
        permits := r.1.toOption.toList ++ t.run.permits
        clock := e.now }
      log := (e, r.1.map (fun _ => ())) :: t.log }
  | .udpDatagram ip bytes =>
    let r := udpDatagramAllowedKept asSecsF64 settings e.now ip bytes t.run.states
    some {
      run := { t.run with states := r.2, clock := e.now }
      log := (e, r.1) :: t.log }
  | .dropped position =>
    match t.run.permits[position]? with
    | none => none
    | some permit =>
      some {
        run := {
          states := dropPermit e.now permit t.run.states
          permits := t.run.permits.eraseIdx position
          clock := e.now }
        log := (e, .ok ()) :: t.log }

end Kept

/-! ### Standings -/

/-- What matters of an entry at a time. -/
structure Standing where
  active : Nat
  connections : ℚ
  datagrams : ℚ
  octets : ℚ
  /-- The violations that still count and the time of the last one. -/
  recent : Option (Nat × Instant)
  /-- The end of a block that is not over. -/
  blocked : Option Instant

def IpProtectionState.recentViolations (st : IpProtectionState ℚ) (now : Instant) :
    Option (Nat × Instant) :=
  match st.lastViolation with
  | none => none
  | some last =>
    if violationDecayAfter < durationSince now last then none else some (st.violations, last)

def IpProtectionState.standing (st : IpProtectionState ℚ) (now : Instant) : Standing where
  active := st.activeTcpConnections
  connections := st.tcpNewConnections.level now
  datagrams := st.udpPackets.level now
  octets := st.udpBytes.level now
  recent := st.recentViolations now
  blocked := st.temporaryBlockUntil.filter (fun blockedUntil => decide (now < blockedUntil))

namespace Standing

def fresh (settings : DdosGuardSettings ℚ) : Standing where
  active := 0
  connections := settings.tcpNewConnectionBurst
  datagrams := settings.udpPacketBurst
  octets := settings.udpByteBurst
  recent := none
  blocked := none

def refuse (s : Standing) (now : Instant) (reason : DropReason) :
    Except DropReason Unit × Standing :=
  let violations := min ((s.recent.map Prod.fst).getD 0 + 1) (2 ^ 32 - 1)
  if tempBlockAfterViolations ≤ violations then
    (.error .temporarilyBlocked, { s with
      recent := some (violations, now)
      blocked := some (now + min
        (tempBlockBase * (violations - tempBlockAfterViolations + 1 : Nat)) tempBlockMax) })
  else
    (.error reason, { s with recent := some (violations, now) })

def serve (settings : DdosGuardSettings ℚ) (now : Instant) (s : Standing) :
    GuardRequest → Except DropReason Unit × Standing
  | .tcp =>
    if s.blocked.isSome then (.error .temporarilyBlocked, s)
    else if settings.tcpMaxActivePerIp ≤ s.active then s.refuse now .tcpActiveConnectionLimit
    else if s.connections < 1 then s.refuse now .tcpNewConnectionRateLimit
    else (.ok (), { s with active := s.active + 1, connections := s.connections - 1 })
  | .udp bytes =>
    if s.blocked.isSome then (.error .temporarilyBlocked, s)
    else if settings.udpMaxDatagramBytes < bytes then s.refuse now .udpDatagramTooLarge
    else if s.datagrams < 1 then s.refuse now .udpPacketRateLimit
    else
      let s := { s with datagrams := s.datagrams - 1 }
      if s.octets < (bytes : ℚ) then s.refuse now .udpByteRateLimit
      else (.ok (), { s with octets := s.octets - bytes })

/-- The standing after some time without operations. -/
def advance (settings : DdosGuardSettings ℚ) (now after : Instant) (s : Standing) : Standing where
  active := s.active
  connections := min (s.connections + settings.tcpNewConnectionsPerSecond * (after - now))
    settings.tcpNewConnectionBurst
  datagrams := min (s.datagrams + settings.udpPacketsPerSecond * (after - now))
    settings.udpPacketBurst
  octets := min (s.octets + settings.udpBytesPerSecond * (after - now)) settings.udpByteBurst
  recent := s.recent.filter (fun counted =>
    !decide (violationDecayAfter < durationSince after counted.2))
  blocked := s.blocked.filter (fun blockedUntil => decide (after < blockedUntil))

def close (s : Standing) : Standing := { s with active := s.active - 1 }

end Standing

/-! ### A request is answered from the standing -/

open IpProtectionState

section Serving

variable {settings : DdosGuardSettings ℚ} {now : Instant} {st : IpProtectionState ℚ}

/-- An answer with the standing of the entry. -/
def IpProtectionState.shown (now : Instant) (r : Except DropReason Unit × IpProtectionState ℚ) :
    Except DropReason Unit × Standing :=
  (r.1, r.2.standing now)

/-- The standing knows whether the entry is blocked. -/
theorem standing_blocked (st : IpProtectionState ℚ) (now : Instant) :
    (st.standing now).blocked.isSome = st.blockedAt now := by
  unfold standing blockedAt
  cases st.temporaryBlockUntil with
  | none => rfl
  | some u => by_cases h : now < u <;> simp [h]

/-- The standing knows the next count of violations. -/
theorem nextViolations_eq (st : IpProtectionState ℚ) (now : Instant) :
    st.nextViolations now =
      min (((st.standing now).recent.map Prod.fst).getD 0 + 1) (2 ^ 32 - 1) := by
  unfold nextViolations standing recentViolations
  cases st.lastViolation with
  | none => rfl
  | some last => by_cases h : violationDecayAfter < durationSince now last <;> simp [h]

/-- A violation that has just happened counts. -/
theorem recent_of_now (hlast : st.lastViolation = some now) :
    st.recentViolations now = some (st.violations, now) := by
  have hnot : ¬ violationDecayAfter < durationSince now now := by
    unfold durationSince violationDecayAfter
    rw [sub_self, max_self]
    norm_num
  unfold recentViolations
  rw [hlast]
  exact if_neg hnot

/-- A block that is set is not over. -/
theorem lt_block (now : Instant) (violations : Nat) :
    now < now + min (tempBlockBase * (violations + 1 : Nat)) tempBlockMax := by
  have hbase : (0 : ℚ) < tempBlockBase * (violations + 1 : Nat) := by
    unfold tempBlockBase
    positivity
  have hmax : (0 : ℚ) < tempBlockMax := by norm_num [tempBlockMax]
  exact lt_add_of_pos_right now (lt_min hbase hmax)

/-- A refusal goes by the standing. -/
theorem standing_refuse (st : IpProtectionState ℚ) (now : Instant)
    (hnone : st.temporaryBlockUntil = none) (reason : DropReason) :
    shown now (st.refuse now reason) = (st.standing now).refuse now reason := by
  unfold Standing.refuse
  rw [← nextViolations_eq st now]
  rcases refuse_cases st now reason with ⟨hblock, heq⟩ | ⟨hblock, heq⟩
  · have hlater := lt_block now (st.nextViolations now - tempBlockAfterViolations)
    rw [heq, if_pos hblock]
    unfold shown standing
    rw [recent_of_now rfl, Option.filter_some, if_pos (decide_eq_true hlater)]
  · rw [heq, if_neg (Nat.not_le.mpr hblock)]
    unfold shown standing
    rw [recent_of_now rfl, hnone]

section

variable (hfree : st.blockedAt now = false)

include hfree

theorem standing_free : (st.standing now).blocked = none := by
  apply Option.not_isSome_iff_eq_none.mp
  rw [standing_blocked, hfree]
  exact Bool.false_ne_true

/-- The standing of an entry whose block is over. -/
theorem standing_moved (tcp packets bytes : TokenBucket ℚ) :
    (st.moved tcp packets bytes).standing now = { st.standing now with
      connections := tcp.level now
      datagrams := packets.level now
      octets := bytes.level now } := by
  have hnone := standing_free hfree
  dsimp only at hnone ⊢
  rw [hnone]
  rfl

theorem standing_refuse_moved {tcp packets bytes : TokenBucket ℚ} {s : Standing}
    (hs : { st.standing now with
      connections := tcp.level now
      datagrams := packets.level now
      octets := bytes.level now } = s) (reason : DropReason) :
    shown now ((st.moved tcp packets bytes).refuse now reason) = s.refuse now reason := by
  rw [standing_refuse _ now rfl, standing_moved hfree, hs]

/-- An entry that has accepted a request. -/
theorem standing_accepted (tcp packets bytes : TokenBucket ℚ) (active : Nat) :
    ({ st.moved tcp packets bytes with
        activeTcpConnections := active
        lastSeen := now } : IpProtectionState ℚ).standing now =
      { st.standing now with
        active := active
        connections := tcp.level now
        datagrams := packets.level now
        octets := bytes.level now } :=
  congrArg (fun s : Standing => { s with active := active })
    (standing_moved hfree tcp packets bytes)

end

/-- A connection is opened by the standing. -/
theorem standing_openTcp (hst : st.Sound settings now) (hfree : st.blockedAt now = false) :
    shown now (st.openTcp id settings now) = (st.standing now).serve settings now .tcp := by
  have htcp := sound_later hst.tcp hst.seen
  have hburst : st.tcpNewConnections.level now ≤ st.tcpNewConnections.burst := min_le_right _ _
  have hnone : ¬ (st.standing now).blocked.isSome = true :=
    Option.not_isSome_iff_eq_none.mpr (standing_free hfree)
  unfold openTcp
  rw [blockReason_free hfree]
  dsimp only [Standing.serve]
  rw [if_neg hnone]
  by_cases hfull : settings.tcpMaxActivePerIp ≤ st.activeTcpConnections
  · have hactive : settings.tcpMaxActivePerIp ≤ (st.standing now).active := hfull
    rw [if_pos hfull, if_pos hactive]
    exact standing_refuse_moved hfree rfl _
  · rw [if_neg hfull,
      if_neg (show ¬ settings.tcpMaxActivePerIp ≤ (st.standing now).active from hfull),
      consume_eq htcp, Nat.cast_one]
    by_cases hshort : st.tcpNewConnections.level now < 1
    · rw [if_pos hshort, if_pos (show (st.standing now).connections < 1 from hshort),
        if_neg Bool.false_ne_true]
      refine standing_refuse_moved hfree ?_ _
      rw [level_setTo hburst]
      rfl
    · rw [if_neg hshort, if_neg (show ¬ (st.standing now).connections < 1 from hshort), if_pos rfl]
      refine Prod.ext rfl ((standing_accepted hfree _ _ _ _).trans ?_)
      rw [level_setTo ((sub_le_self _ zero_le_one).trans hburst)]
      rfl

/-- A datagram is let through by the standing. -/
theorem standing_allowDatagram (hst : st.Sound settings now) (hfree : st.blockedAt now = false)
    (bytes : Nat) :
    shown now (st.allowDatagram id settings bytes now) =
      (st.standing now).serve settings now (.udp bytes) := by
  have hpackets := sound_later hst.packets hst.seen
  have hbytes := sound_later hst.bytes hst.seen
  have hburst : st.udpPackets.level now ≤ st.udpPackets.burst := min_le_right _ _
  have hbyteBurst : st.udpBytes.level now ≤ st.udpBytes.burst := min_le_right _ _
  have hone : st.udpPackets.level now - 1 ≤ st.udpPackets.burst :=
    (sub_le_self _ zero_le_one).trans hburst
  have hnone : ¬ (st.standing now).blocked.isSome = true :=
    Option.not_isSome_iff_eq_none.mpr (standing_free hfree)
  unfold allowDatagram
  rw [blockReason_free hfree]
  dsimp only [Standing.serve]
  rw [if_neg hnone]
  by_cases hlarge : settings.udpMaxDatagramBytes < bytes
  · rw [if_pos hlarge, if_pos hlarge]
    exact standing_refuse_moved hfree rfl _
  · rw [if_neg hlarge, if_neg hlarge, consume_eq hpackets, Nat.cast_one]
    by_cases hshort : st.udpPackets.level now < 1
    · rw [if_pos hshort, if_pos (show (st.standing now).datagrams < 1 from hshort),
        if_neg Bool.false_ne_true]
      refine standing_refuse_moved hfree ?_ _
      rw [level_setTo hburst]
      rfl
    · rw [if_neg hshort, if_neg (show ¬ (st.standing now).datagrams < 1 from hshort),
        if_pos rfl, consume_eq hbytes]
      by_cases hheavy : st.udpBytes.level now < bytes
      · rw [if_pos hheavy, if_pos (show (st.standing now).octets < bytes from hheavy),
          if_neg Bool.false_ne_true]
        refine standing_refuse_moved hfree ?_ _
        rw [level_setTo hone, level_setTo hbyteBurst]
        rfl
      · rw [if_neg hheavy, if_neg (show ¬ (st.standing now).octets < bytes from hheavy), if_pos rfl]
        refine Prod.ext rfl ((standing_accepted hfree _ _ _ _).trans ?_)
        have hbytes := (sub_le_self _ (Nat.cast_nonneg bytes)).trans hbyteBurst
        rw [level_setTo hone, level_setTo hbytes]
        rfl

/-- **A request is answered from the standing.** -/
theorem standing_serve (hst : st.Sound settings now) (request : GuardRequest) :
    shown now (st.serve id settings now request) =
      (st.standing now).serve settings now request := by
  cases hblocked : st.blockedAt now with
  | true =>
    have hsome : (st.standing now).blocked.isSome = true :=
      (standing_blocked st now).trans hblocked
    have hserve : (st.standing now).serve settings now request =
        (.error .temporarilyBlocked, st.standing now) := by
      cases request <;> exact if_pos hsome
    rw [serve_blocked id settings request hblocked, hserve]
    rfl
  | false =>
    cases request with
    | tcp => exact standing_openTcp hst hblocked
    | udp bytes => exact standing_allowDatagram hst hblocked bytes

end Serving

/-! ### Time and pruning -/

/-- Every bucket is refilled within the ten minutes after which an entry may be
pruned. -/
def DdosGuardSettings.Refills (settings : DdosGuardSettings ℚ) : Prop :=
  ∀ resource : Resource,
    0 ≤ resource.burst settings ∧ resource.burst settings ≤ 600 * resource.rate settings

/-- No violation happened after the entry was last seen. -/
def IpProtectionState.Noted (st : IpProtectionState ℚ) : Prop :=
  ∀ last, st.lastViolation = some last → last ≤ st.lastSeen

open Standing

section Time

variable {settings : DdosGuardSettings ℚ} {now after : Instant} {st : IpProtectionState ℚ}

theorem nonNegative_of_refills (h : settings.Refills) : settings.NonNegative := by
  have hrate : ∀ resource : Resource, 0 ≤ resource.rate settings := by
    intro resource
    obtain ⟨hburst, hrefill⟩ := h resource
    linarith
  exact ⟨hrate .connections, (h .connections).1, hrate .datagrams, (h .datagrams).1,
    hrate .octets, (h .octets).1⟩

/-- Violations are forgotten with time. -/
theorem recent_later (st : IpProtectionState ℚ) (hle : now ≤ after) :
    st.recentViolations after = (st.recentViolations now).filter (fun counted =>
      !decide (violationDecayAfter < durationSince after counted.2)) := by
  unfold recentViolations
  cases st.lastViolation with
  | none => rfl
  | some last =>
    have hlater := durationSince_mono last hle
    by_cases hbefore : violationDecayAfter < durationSince now last
    · simp [hbefore, hbefore.trans_le hlater]
    · by_cases hover : violationDecayAfter < durationSince after last <;>
        simp [hbefore, hover, Option.filter_some]

/-- Blocks end with time. -/
theorem blocked_later (blockedUntil : Option Instant) (hle : now ≤ after) :
    blockedUntil.filter (fun u => decide (after < u)) =
      (blockedUntil.filter (fun u => decide (now < u))).filter (fun u => decide (after < u)) := by
  rw [Option.filter_filter]
  congr 1
  funext u
  simp only [Bool.eq_and_self, decide_eq_true_eq]
  exact hle.trans_lt

/-- **Time moves the standing on.** -/
theorem standing_later (hsettings : settings.NonNegative) (hst : st.Sound settings now)
    (hle : now ≤ after) : st.standing after = (st.standing now).advance settings now after := by
  unfold standing advance
  rw [level_after hsettings.tcpRate (sound_later hst.tcp hst.seen) hle,
    level_after hsettings.packetRate (sound_later hst.packets hst.seen) hle,
    level_after hsettings.byteRate (sound_later hst.bytes hst.seen) hle,
    recent_later st hle, blocked_later _ hle]

/-- Time does not change a fresh standing. -/
theorem advance_fresh (hsettings : settings.NonNegative) (hle : now ≤ after) :
    (fresh settings).advance settings now after = fresh settings := by
  have hd := sub_nonneg.mpr hle
  unfold advance fresh
  rw [min_eq_right (le_add_of_nonneg_right (mul_nonneg hsettings.tcpRate hd)),
    min_eq_right (le_add_of_nonneg_right (mul_nonneg hsettings.packetRate hd)),
    min_eq_right (le_add_of_nonneg_right (mul_nonneg hsettings.byteRate hd))]
  rfl

theorem standing_new (settings : DdosGuardSettings ℚ) (now : Instant) :
    (new now settings).standing now = fresh settings := by
  unfold standing new fresh
  rw [level_new, level_new, level_new]
  rfl

/-- **A pruned entry has the standing of a new one.** -/
theorem standing_pruned (hrefills : settings.Refills) (hst : st.Sound settings now)
    (hnoted : st.Noted) (hpruned : retained now st = false) :
    st.standing now = fresh settings := by
  obtain ⟨hactive, hfree, hrest⟩ := idle_of_pruned hpruned
  have hsettings := nonNegative_of_refills hrefills
  have hfull : ∀ resource : Resource, (resource.bucket st).level now = resource.burst settings := by
    intro resource
    have hburst : resource.burst settings ≤ idleStateRetention * resource.rate settings := by
      have hten : idleStateRetention = 600 := by norm_num [idleStateRetention]
      rw [hten]
      exact (hrefills resource).2
    exact level_eq_burst (resource.sound_bucket hst) hburst (resource.rate_nonneg hsettings) hrest
  have hold : st.recentViolations now = none := by
    unfold recentViolations
    cases hlast : st.lastViolation with
    | none => rfl
    | some last =>
      have hseen := hnoted last hlast
      have hlong : violationDecayAfter < now - last := by
        unfold violationDecayAfter
        unfold idleStateRetention at hrest
        linarith
      exact if_pos (lt_of_lt_of_le hlong (le_max_left _ _))
  have hnone := standing_free hfree
  unfold standing at hnone ⊢
  dsimp only at hnone
  rw [hactive, hold, hnone]
  congr 1
  · exact hfull .connections
  · exact hfull .datagrams
  · exact hfull .octets

end Time

/-! ### The two guards side by side -/

/-- What an address shows of its entry at a time. -/
def Shows (settings : DdosGuardSettings ℚ) (now : Instant) (s : Standing) :
    Option (IpProtectionState ℚ) → Prop
  | none => s = Standing.fresh settings
  | some st => st.Sound settings now ∧ st.Noted ∧ st.standing now = s

section Shown

variable {settings : DdosGuardSettings ℚ} {now after : Instant} {s : Standing}
  {entry : Option (IpProtectionState ℚ)} {st : IpProtectionState ℚ}

theorem shows_later (hsettings : settings.NonNegative) (h : Shows settings now s entry)
    (hle : now ≤ after) : Shows settings after (s.advance settings now after) entry := by
  cases entry with
  | none =>
    have hfresh : s = fresh settings := h
    rw [hfresh]
    exact advance_fresh hsettings hle
  | some st =>
    obtain ⟨hst, hnoted, hstanding⟩ := h
    refine ⟨⟨hst.tcp, hst.packets, hst.bytes, hst.seen.trans hle⟩, hnoted, ?_⟩
    rw [standing_later hsettings hst hle, hstanding]

/-- Pruning does not change what an address shows. -/
theorem shows_prune (hrefills : settings.Refills) {states : ProtectionStates ℚ} {ip : IpAddr}
    (h : Shows settings now s (states ip)) :
    Shows settings now s (pruneIdleStates now states ip) := by
  refine pruneIdleStates_cases h (fun st hst hkept => ?_)
  rw [hst] at h
  obtain ⟨hsound, hnoted, hstanding⟩ := h
  rw [← hstanding]
  exact standing_pruned hrefills hsound hnoted hkept

/-- Requests note their violations. -/
theorem noted_served {request : GuardRequest}
    {r : Except DropReason Unit × IpProtectionState ℚ} (hst : st.Sound settings now)
    (hnoted : st.Noted) (hserved : st.Served id now request r) : r.2.Noted := by
  cases hserved with
  | blocked | accepted => exact fun last hlast => (hnoted last hlast).trans hst.seen
  | refused hfree tcp packets bytes htcp hpackets hbytes reason =>
    obtain ⟨_, _, _, heq⟩ := refuse_eq (st.moved tcp packets bytes) now reason
    rw [heq]
    intro last hlast
    cases hlast
    exact le_refl now

/-- A request is answered and changes the entry as the standing says. -/
theorem shows_serve (hsettings : settings.NonNegative) (h : Shows settings now s entry)
    (request : GuardRequest) :
    ((entry.getD (new now settings)).serve id settings now request).1 =
        (s.serve settings now request).1 ∧
      Shows settings now (s.serve settings now request).2
        (some
          ((entry.getD (new now settings)).serve id settings now request).2) := by
  have hentry : ∃ st, entry.getD (new now settings) = st ∧
      st.Sound settings now ∧ st.Noted ∧ st.standing now = s := by
    cases entry with
    | none =>
      refine ⟨_, rfl, sound_new hsettings now, ?_, (standing_new settings now).trans h.symm⟩
      intro last hlast
      cases hlast
    | some st => exact ⟨st, rfl, h⟩
  obtain ⟨st, heq, hst, hnoted, hstanding⟩ := hentry
  have hserved := serve_served id settings st now request
  rw [heq, ← hstanding, ← standing_serve hst request]
  exact ⟨rfl, (sound_served hsettings hst hserved).1, noted_served hst hnoted hserved, rfl⟩

theorem shows_closed (h : Shows settings now s (some st)) :
    Shows settings now s.close (some (st.closed now)) := by
  obtain ⟨hst, hnoted, hstanding⟩ := h
  refine ⟨sound_closed hst, fun last hlast => (hnoted last hlast).trans hst.seen, ?_⟩
  rw [← hstanding]
  rfl

/-- Both tables show the same standing of every address. -/
def Alike (settings : DdosGuardSettings ℚ) (now : Instant) (states kept : ProtectionStates ℚ) :
    Prop :=
  ∀ ip, ∃ s, Shows settings now s (states ip) ∧ Shows settings now s (kept ip)

/-- Both have given the same answer, and their tables are alike. -/
def SameAnswer {β : Type} (settings : DdosGuardSettings ℚ) (now : Instant)
    (r k : Except DropReason β × ProtectionStates ℚ) : Prop :=
  r.1 = k.1 ∧ Alike settings now r.2 k.2

variable {states kept : ProtectionStates ℚ}

/-- Time keeps the tables alike. -/
theorem alike_later (hsettings : settings.NonNegative) (h : Alike settings now states kept)
    (hle : now ≤ after) : Alike settings after states kept := by
  intro ip
  obtain ⟨s, hstates, hkept⟩ := h ip
  exact ⟨_, shows_later hsettings hstates hle, shows_later hsettings hkept hle⟩

section

variable (hrefills : settings.Refills) (h : Alike settings now states kept) (ip : IpAddr)

include hrefills h ip

/-- A request gets the same answer from both. -/
theorem alike_onEntry (request : GuardRequest) :
    SameAnswer settings now
      (onEntry settings now ip (fun st => st.serve id settings now request) states)
      (onEntryKept settings now ip (fun st => st.serve id settings now request) kept) := by
  have hsettings := nonNegative_of_refills hrefills
  obtain ⟨s, hstates, hkept⟩ := h ip
  obtain ⟨hanswer, hafter⟩ := shows_serve hsettings (shows_prune hrefills hstates) request
  obtain ⟨hanswerKept, hafterKept⟩ := shows_serve hsettings hkept request
  refine ⟨hanswer.trans hanswerKept.symm, ?_⟩
  intro other
  unfold onEntry onEntryKept
  dsimp only
  by_cases hother : other = ip
  · subst hother
    rw [Function.update_self, Function.update_self]
    exact ⟨_, hafter, hafterKept⟩
  · rw [Function.update_of_ne hother, Function.update_of_ne hother]
    obtain ⟨s, hstates, hkept⟩ := h other
    exact ⟨s, shows_prune hrefills hstates, hkept⟩

theorem alike_tcpConnectionOpened :
    SameAnswer settings now (tcpConnectionOpened id settings now ip states)
      (tcpConnectionOpenedKept id settings now ip kept) := by
  obtain ⟨hanswer, halike⟩ := alike_onEntry hrefills h ip .tcp
  unfold tcpConnectionOpened tcpConnectionOpenedKept
  split
  · exact ⟨congrArg (Except.map _) hanswer, halike⟩
  · exact ⟨rfl, h⟩

theorem alike_udpDatagramAllowed (bytes : Nat) :
    SameAnswer settings now (udpDatagramAllowed id settings now ip bytes states)
      (udpDatagramAllowedKept id settings now ip bytes kept) := by
  have hentry := alike_onEntry hrefills h ip (.udp bytes)
  unfold udpDatagramAllowed udpDatagramAllowedKept
  split
  · exact hentry
  · exact ⟨rfl, h⟩

end

/-- Closing a connection, where one of the guards may have forgotten the entry. -/
theorem shows_closeEntry (h : Shows settings now s entry) :
    Shows settings now s.close (entry.map (fun st => st.closed now)) := by
  cases entry with
  | none =>
    have hfresh : s = fresh settings := h
    rw [hfresh]
    rfl
  | some st => exact shows_closed h

theorem tcpConnectionClosed_apply (now : Instant) (ip other : IpAddr)
    (states : ProtectionStates ℚ) :
    tcpConnectionClosed now ip states other =
      if other = ip then (states other).map (fun st => st.closed now) else states other := by
  unfold tcpConnectionClosed
  by_cases hother : other = ip
  · subst hother
    rw [if_pos rfl]
    cases hst : states other with
    | none => exact hst
    | some st => exact Function.update_self ..
  · rw [if_neg hother]
    cases hst : states ip with
    | none => rfl
    | some st => exact Function.update_of_ne hother ..

/-- Giving back a permit keeps the tables alike. -/
theorem alike_dropPermit (h : Alike settings now states kept) (permit : TcpConnectionPermit) :
    Alike settings now (dropPermit now permit states) (dropPermit now permit kept) := by
  unfold dropPermit
  split
  · exact h
  · intro other
    obtain ⟨s, hstates, hkept⟩ := h other
    rw [tcpConnectionClosed_apply, tcpConnectionClosed_apply]
    split
    · exact ⟨_, shows_closeEntry hstates, shows_closeEntry hkept⟩
    · exact ⟨s, hstates, hkept⟩

/-! ### Runs -/

/-- The two guards have given the same answers, hold the same permits and show
the same standings. -/
structure SideBySide (settings : DdosGuardSettings ℚ) (t k : GuardTrace ℚ) : Prop where
  clock : k.run.clock = t.run.clock
  permits : k.run.permits = t.run.permits
  log : k.log = t.log
  alike : Alike settings t.run.clock t.run.states k.run.states

theorem sideBySide_start : SideBySide settings GuardTrace.start GuardTrace.start :=
  ⟨rfl, rfl, rfl, fun _ => ⟨_, rfl, rfl⟩⟩

/-- One operation on both. -/
theorem sideBySide_step (hrefills : settings.Refills) {t k : GuardTrace ℚ} {e : GuardEvent}
    (h : SideBySide settings t k) (hok : t.InOrder e) :
    (t.step id settings e = none ∧ k.stepKept id settings e = none) ∨
      ∃ t' k', t.step id settings e = some t' ∧ k.stepKept id settings e = some k' ∧
        t'.run.clock = e.now ∧ SideBySide settings t' k' := by
  have hsettings := nonNegative_of_refills hrefills
  have hnow := alike_later hsettings h.alike hok
  obtain ⟨now, op⟩ := e
  cases op with
  | tcpOpened ip =>
    obtain ⟨hanswer, halike⟩ := alike_tcpConnectionOpened hrefills hnow ip
    refine Or.inr ⟨_, _, rfl, rfl, rfl, rfl, ?_, ?_, halike⟩
    · dsimp only
      rw [hanswer, h.permits]
    · dsimp only [GuardRun.answer]
      rw [hanswer, h.log]
  | udpDatagram ip bytes =>
    obtain ⟨hanswer, halike⟩ := alike_udpDatagramAllowed hrefills hnow ip bytes
    refine Or.inr ⟨_, _, rfl, rfl, rfl, rfl, h.permits, ?_, halike⟩
    dsimp only [GuardRun.answer]
    rw [hanswer, h.log]
  | dropped position =>
    dsimp only [GuardTrace.step, GuardRun.step, GuardTrace.stepKept]
    rw [h.permits]
    cases hpermit : t.run.permits[position]? with
    | none => exact Or.inl ⟨rfl, rfl⟩
    | some permit =>
      refine Or.inr ⟨_, _, rfl, rfl, rfl, rfl, rfl, ?_, alike_dropPermit hnow permit⟩
      dsimp only [GuardRun.answer]
      rw [h.log]

/-- Guards side by side answer the same from then on. -/
theorem answers_of_sideBySide (hrefills : settings.Refills) {events : List GuardEvent}
    {t k : GuardTrace ℚ} (h : SideBySide settings t k)
    (horder : inOrderFrom t.run.clock events = true) :
    (Runs.run (GuardTrace.step id settings) t events).map GuardTrace.log =
      (Runs.run (GuardTrace.stepKept id settings) k events).map GuardTrace.log := by
  induction events generalizing t k with
  | nil => exact congrArg some h.log.symm
  | cons e rest ih =>
    obtain ⟨hfirst, hrest⟩ := Bool.and_eq_true_iff.mp horder
    have hle : t.run.clock ≤ e.now := of_decide_eq_true hfirst
    unfold Runs.run
    rcases sideBySide_step hrefills h hle with
      ⟨hstop, hstopKept⟩ | ⟨t', k', hstep, hstepKept, hclock, hafter⟩
    · rw [hstop, hstopKept]
      rfl
    · rw [hstep, hstepKept]
      exact ih hafter (hclock.symm ▸ hrest)

/-- **Pruning cannot be observed.**  Where ten minutes refill every bucket, every
sequence of operations at non-decreasing times gets the same answers, with the
same reasons, from the guard and from the guard that never prunes. -/
theorem pruning_unobservable (hrefills : settings.Refills) {events : List GuardEvent}
    (horder : inOrderFrom 0 events = true) :
    (Runs.run (GuardTrace.step id settings) GuardTrace.start events).map GuardTrace.log =
      (Runs.run (GuardTrace.stepKept id settings) GuardTrace.start events).map GuardTrace.log :=
  answers_of_sideBySide hrefills sideBySide_start horder

end Shown

/-- The default settings, and a datagram after an hour, when the entry of the
first one has been pruned. -/
theorem pruning_unobservable_default :
    let ip : IpAddr := .v4 ⟨[192, 0, 2, 10], rfl⟩
    let events : List GuardEvent := [⟨0, .udpDatagram ip 1200⟩, ⟨3600, .udpDatagram ip 1200⟩]
    DdosGuardSettings.default.Refills ∧ inOrderFrom 0 events = true ∧
      (Runs.run (GuardTrace.step id DdosGuardSettings.default) GuardTrace.start events).map
          GuardTrace.log =
        (Runs.run (GuardTrace.stepKept id DdosGuardSettings.default) GuardTrace.start events).map
          GuardTrace.log := by
  intro ip events
  have hrefills : DdosGuardSettings.default.Refills := by
    intro resource
    cases resource <;> norm_num [Resource.burst, Resource.rate, DdosGuardSettings.default]
  have horder : inOrderFrom 0 events = true := by decide +kernel
  exact ⟨hrefills, horder, pruning_unobservable hrefills horder⟩

end FerrumProxy
