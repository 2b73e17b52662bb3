import FerrumProxy.DdosBlocks

/-!
# Exact token buckets

With rational numbers for tokens, a lazily refilled bucket is known by its level at any time from
its last refill on: refilling changes no level, and a request takes its amount from the level or
nothing.
-/

namespace FerrumProxy

/-- The tokens there are at the given time, refilled or not. -/
def TokenBucket.level (b : TokenBucket ℚ) (now : Instant) : ℚ :=
  min (b.tokens + (now - b.lastRefill) * b.refillPerSecond) b.burst

/-- A bucket of the given rate and burst that holds no debt and no more than its
burst. -/
structure TokenBucket.Sound (rate burst : ℚ) (seen : Instant) (b : TokenBucket ℚ) : Prop where
  rate_eq : b.refillPerSecond = rate
  burst_eq : b.burst = burst
  tokens_nonneg : 0 ≤ b.tokens
  tokens_le : b.tokens ≤ b.burst
  refilled : b.lastRefill ≤ seen

open TokenBucket

section Bucket

variable {rate burst : ℚ} {b b' : TokenBucket ℚ} {now after : Instant} {amount : Nat}

theorem level_le_burst (h : b.Sound rate burst now) (after : Instant) : b.level after ≤ burst :=
  (min_le_right _ _).trans h.burst_eq.le

theorem level_nonneg (hrate : 0 ≤ rate) (h : b.Sound rate burst now) : 0 ≤ b.level now := by
  have hrefill : 0 ≤ (now - b.lastRefill) * b.refillPerSecond := by
    rw [h.rate_eq]
    exact mul_nonneg (sub_nonneg.mpr h.refilled) hrate
  exact le_min (add_nonneg h.tokens_nonneg hrefill) (h.tokens_nonneg.trans h.tokens_le)

theorem level_after (hrate : 0 ≤ rate) (h : b.Sound rate burst now) (hle : now ≤ after) :
    b.level after = min (b.level now + rate * (after - now)) burst := by
  have hrise : 0 ≤ rate * (after - now) := mul_nonneg hrate (sub_nonneg.mpr hle)
  have hlinear : b.tokens + (after - b.lastRefill) * rate =
      b.tokens + (now - b.lastRefill) * rate + rate * (after - now) := by ring
  unfold level
  rw [h.rate_eq, h.burst_eq, hlinear, ← min_add_add_right, min_assoc,
    min_eq_right (le_add_of_nonneg_right hrise)]

theorem sound_later (h : b.Sound rate burst now) (hle : now ≤ after) : b.Sound rate burst after :=
  ⟨h.rate_eq, h.burst_eq, h.tokens_nonneg, h.tokens_le, h.refilled.trans hle⟩

/-- A bucket that was refilled long enough ago is full. -/
theorem level_eq_burst (h : b.Sound rate burst now) {rest : ℚ}
    (hrest : burst ≤ rest * rate) (hrate : 0 ≤ rate) (hle : now + rest ≤ after) :
    b.level after = burst := by
  have hlong : rest ≤ after - b.lastRefill := by linarith [h.refilled]
  have hrefill : rest * rate ≤ (after - b.lastRefill) * rate :=
    mul_le_mul_of_nonneg_right hlong hrate
  unfold level
  rw [h.burst_eq, h.rate_eq]
  exact min_eq_right (by linarith [h.tokens_nonneg])

/-- A new bucket is full. -/
theorem level_new (rate burst : ℚ) (now : Instant) : (new rate burst now).level now = burst := by
  unfold level new
  rw [sub_self, zero_mul, add_zero, min_self]

/-! ### Refilling and taking -/

/-- The bucket brought to a level. -/
def TokenBucket.setTo (b : TokenBucket ℚ) (tokens : ℚ) (now : Instant) : TokenBucket ℚ :=
  { b with tokens := tokens, lastRefill := now }

variable {tokens : ℚ}

theorem level_setTo (hle : tokens ≤ b.burst) : (b.setTo tokens now).level now = tokens := by
  unfold level setTo
  rw [sub_self, zero_mul, add_zero, min_eq_left hle]

theorem sound_setTo (h : b.Sound rate burst now) (hnonneg : 0 ≤ tokens) (hle : tokens ≤ b.burst) :
    (b.setTo tokens now).Sound rate burst now :=
  ⟨h.rate_eq, h.burst_eq, hnonneg, hle, le_refl now⟩

theorem refill_eq (h : b.Sound rate burst now) : b.refill id now = b.setTo (b.level now) now := by
  have helapsed : durationSince now b.lastRefill = now - b.lastRefill :=
    max_eq_left (sub_nonneg.mpr h.refilled)
  unfold refill
  dsimp only [id]
  rw [helapsed]
  split
  · rename_i hzero
    -- no time has passed, so the bucket is already there
    have hsame : b.lastRefill = now :=
      le_antisymm h.refilled (sub_nonpos.mp (by exact_mod_cast hzero))
    unfold setTo level
    rw [← hsame, sub_self, zero_mul, add_zero, min_eq_left h.tokens_le]
  · rfl

/-- A request takes its amount from the level or nothing. -/
theorem consume_eq (h : b.Sound rate burst now) (amount : ℚ) :
    b.consume id amount now =
      if b.level now < amount then (false, b.setTo (b.level now) now)
      else (true, b.setTo (b.level now - amount) now) := by
  unfold consume
  rw [refill_eq h]
  rfl

/-- A bucket that was asked has no more than before. -/
theorem drawn_spec (hrate : 0 ≤ rate) (h : b.Sound rate burst now) (hdrawn : b.Drawn id now b') :
    b'.Sound rate burst now ∧ b'.level now ≤ b.level now := by
  have hnonneg := level_nonneg hrate h
  have hburst : b.level now ≤ b.burst := min_le_right _ _
  rcases hdrawn with rfl | ⟨amount, rfl⟩
  · exact ⟨h, le_refl _⟩
  · rw [consume_eq h]
    split
    · exact ⟨sound_setTo h hnonneg hburst, (level_setTo hburst).le⟩
    · rename_i hamount
      have hless : b.level now - amount ≤ b.level now := sub_le_self _ (Nat.cast_nonneg amount)
      refine ⟨sound_setTo h (sub_nonneg.mpr (not_lt.mp hamount)) (hless.trans hburst), ?_⟩
      rw [level_setTo (hless.trans hburst)]
      exact hless

theorem gave_spec (hrate : 0 ≤ rate) (h : b.Sound rate burst now)
    (hgave : b.Gave id now amount b') :
    b'.Sound rate burst now ∧ (amount : ℚ) ≤ b.level now ∧
      b'.level now = b.level now - amount := by
  have hnonneg := level_nonneg hrate h
  have hburst : b.level now ≤ b.burst := min_le_right _ _
  rcases hgave with ⟨rfl, rfl⟩ | hconsume
  · rw [Nat.cast_zero, sub_zero]
    exact ⟨h, hnonneg, rfl⟩
  · rw [consume_eq h] at hconsume
    split at hconsume <;> cases hconsume
    next hamount =>
    have hless : b.level now - amount ≤ b.burst :=
      (sub_le_self _ (Nat.cast_nonneg amount)).trans hburst
    exact ⟨sound_setTo h (sub_nonneg.mpr (not_lt.mp hamount)) hless, not_lt.mp hamount,
      level_setTo hless⟩

end Bucket

/-! ### Entries -/

/-- What the buckets count. -/
inductive Resource where
  | connections
  | datagrams
  | octets

namespace Resource

def rate (settings : DdosGuardSettings ℚ) : Resource → ℚ
  | connections => settings.tcpNewConnectionsPerSecond
  | datagrams => settings.udpPacketsPerSecond
  | octets => settings.udpBytesPerSecond

def burst (settings : DdosGuardSettings ℚ) : Resource → ℚ
  | connections => settings.tcpNewConnectionBurst
  | datagrams => settings.udpPacketBurst
  | octets => settings.udpByteBurst

def bucket (st : IpProtectionState ℚ) : Resource → TokenBucket ℚ
  | connections => st.tcpNewConnections
  | datagrams => st.udpPackets
  | octets => st.udpBytes

def amount (request : GuardRequest) : Resource → Nat
  | connections => request.connections
  | datagrams => request.datagrams
  | octets => request.octets

end Resource

variable {st : IpProtectionState ℚ}

/-- An entry is pruned only when nothing is open or blocked, and after its rest. -/
theorem idle_of_pruned {now : Instant} (hpruned : IpProtectionState.retained now st = false) :
    st.activeTcpConnections = 0 ∧ st.blockedAt now = false ∧
      st.lastSeen + idleStateRetention ≤ now := by
  obtain ⟨hbusy, hidle⟩ := Bool.or_eq_false_iff.mp hpruned
  obtain ⟨hactive, hblocked⟩ := Bool.or_eq_false_iff.mp hbusy
  refine ⟨Nat.eq_zero_of_not_pos (of_decide_eq_false hactive), hblocked, ?_⟩
  have hpos : (0 : ℚ) < idleStateRetention := by norm_num [idleStateRetention]
  rcases le_max_iff.mp (not_lt.mp (of_decide_eq_false hidle)) with hlong | hshort
  · linarith
  · exact absurd hshort (not_le.mpr hpos)

/-- Settings with rates and bursts that are not negative. -/
structure DdosGuardSettings.NonNegative (settings : DdosGuardSettings ℚ) : Prop where
  tcpRate : 0 ≤ settings.tcpNewConnectionsPerSecond
  tcpBurst : 0 ≤ settings.tcpNewConnectionBurst
  packetRate : 0 ≤ settings.udpPacketsPerSecond
  packetBurst : 0 ≤ settings.udpPacketBurst
  byteRate : 0 ≤ settings.udpBytesPerSecond
  byteBurst : 0 ≤ settings.udpByteBurst

theorem Resource.rate_nonneg {settings : DdosGuardSettings ℚ} (h : settings.NonNegative)
    (resource : Resource) : 0 ≤ resource.rate settings := by
  cases resource with
  | connections => exact h.tcpRate
  | datagrams => exact h.packetRate
  | octets => exact h.byteRate

theorem Resource.burst_nonneg {settings : DdosGuardSettings ℚ} (h : settings.NonNegative)
    (resource : Resource) : 0 ≤ resource.burst settings := by
  cases resource with
  | connections => exact h.tcpBurst
  | datagrams => exact h.packetBurst
  | octets => exact h.byteBurst

/-- The three buckets of an entry are sound, and none was refilled after the
entry was last seen. -/
structure IpProtectionState.Sound (settings : DdosGuardSettings ℚ) (now : Instant)
    (st : IpProtectionState ℚ) : Prop where
  tcp : st.tcpNewConnections.Sound settings.tcpNewConnectionsPerSecond
    settings.tcpNewConnectionBurst st.lastSeen
  packets : st.udpPackets.Sound settings.udpPacketsPerSecond settings.udpPacketBurst st.lastSeen
  bytes : st.udpBytes.Sound settings.udpBytesPerSecond settings.udpByteBurst st.lastSeen
  seen : st.lastSeen ≤ now

section Entry

variable {settings : DdosGuardSettings ℚ}

theorem Resource.sound_bucket {now : Instant} (h : st.Sound settings now) (resource : Resource) :
    (resource.bucket st).Sound (resource.rate settings) (resource.burst settings) st.lastSeen := by
  cases resource with
  | connections => exact h.tcp
  | datagrams => exact h.packets
  | octets => exact h.bytes

theorem sound_new (hsettings : settings.NonNegative) (now : Instant) :
    (IpProtectionState.new now settings).Sound settings now where
  tcp := ⟨rfl, rfl, hsettings.tcpBurst, le_refl _, le_refl _⟩
  packets := ⟨rfl, rfl, hsettings.packetBurst, le_refl _, le_refl _⟩
  bytes := ⟨rfl, rfl, hsettings.byteBurst, le_refl _, le_refl _⟩
  seen := le_refl _

/-- Every way through a request that touches a bucket also notes the time. -/
theorem sound_served (hsettings : settings.NonNegative) {now : Instant} {request : GuardRequest}
    {r : Except DropReason Unit × IpProtectionState ℚ} (h : st.Sound settings now)
    (hserved : st.Served id now request r) : r.2.Sound settings now ∧ r.2.lastSeen = now := by
  have htcp := sound_later h.tcp h.seen
  have hpackets := sound_later h.packets h.seen
  have hbytes := sound_later h.bytes h.seen
  cases hserved with
  | blocked hblocked => exact ⟨⟨htcp, hpackets, hbytes, le_refl now⟩, rfl⟩
  | refused hfree tcp packets bytes hdrawTcp hdrawPackets hdrawBytes reason =>
    obtain ⟨_, _, _, heq⟩ := refuse_eq (st.moved tcp packets bytes) now reason
    rw [heq]
    exact ⟨⟨(drawn_spec hsettings.tcpRate htcp hdrawTcp).1,
      (drawn_spec hsettings.packetRate hpackets hdrawPackets).1,
      (drawn_spec hsettings.byteRate hbytes hdrawBytes).1, le_refl now⟩, rfl⟩
  | accepted hfree tcp packets bytes hgaveTcp hgavePackets hgaveBytes =>
    exact ⟨⟨(gave_spec hsettings.tcpRate htcp hgaveTcp).1,
      (gave_spec hsettings.packetRate hpackets hgavePackets).1,
      (gave_spec hsettings.byteRate hbytes hgaveBytes).1, le_refl now⟩, rfl⟩

theorem sound_closed {now : Instant} (h : st.Sound settings now) :
    (st.closed now).Sound settings now :=
  ⟨sound_later h.tcp h.seen, sound_later h.packets h.seen, sound_later h.bytes h.seen, le_refl _⟩

/-- **The buckets of every entry are sound in every run.** -/
theorem sound_entries (hsettings : settings.NonNegative) {g : GuardRun ℚ}
    (hreach : Runs.Reaches (GuardRun.step id settings) InOrder GuardRun.start g) :
    g.Entries (IpProtectionState.Sound settings) :=
  entry_invariant (fun now _ => sound_new hsettings now)
    (fun _ _ _ h hle => ⟨h.tcp, h.packets, h.bytes, h.seen.trans hle⟩)
    (fun now st request h =>
      (sound_served hsettings h (serve_served id settings st now request)).1)
    (fun _ _ h => sound_closed h)
    hreach

end Entry

end FerrumProxy
