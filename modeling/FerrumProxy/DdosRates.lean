import FerrumProxy.DdosBuckets
import FerrumProxy.SpendingWindows

/-!
# Rates of the DDoS guard

How much one address is granted in any window of time.  Each of the three buckets is an account of
what was granted.  An entry is pruned after ten minutes of rest, and the next one starts with full
buckets.
-/

namespace FerrumProxy

open Windows

/-- What was granted of a resource to the address by one answer. -/
def granted (resource : Resource) (ip : IpAddr) :
    GuardEvent × Except DropReason Unit → Option Nat
  | (_, .error _) => none
  | (e, .ok ()) =>
    match e.op.asks with
    | none => none
    | some (asked, request) => if asked = ip then some (resource.amount request) else none

/-- How much of a resource the address was granted from `t₁` to `t₂`. -/
def grantedIn (resource : Resource) (ip : IpAddr) (t₁ t₂ : Instant) :
    List (GuardEvent × Except DropReason Unit) → Nat
  | [] => 0
  | entry :: rest =>
    (if t₁ ≤ entry.1.now ∧ entry.1.now ≤ t₂ then (granted resource ip entry).getD 0 else 0) +
      grantedIn resource ip t₁ t₂ rest

/-- All that the address was granted, with the times. -/
def grants (resource : Resource) (ip : IpAddr) :
    List (GuardEvent × Except DropReason Unit) → List (ℚ × ℚ)
  | [] => []
  | entry :: rest =>
    match granted resource ip entry with
    | none => grants resource ip rest
    | some amount => (entry.1.now, (amount : ℚ)) :: grants resource ip rest

theorem grantedIn_eq (resource : Resource) (ip : IpAddr) (t₁ t₂ : Instant)
    (log : List (GuardEvent × Except DropReason Unit)) :
    (grantedIn resource ip t₁ t₂ log : ℚ) =
      spentIn t₁ t₂ (grants resource ip log) := by
  induction log with
  | nil => rfl
  | cons entry rest ih =>
    unfold grantedIn grants
    rw [Nat.cast_add, ih]
    cases granted resource ip entry with
    | none =>
      rw [Option.getD_none, ite_self, Nat.cast_zero, zero_add]
    | some amount =>
      conv_rhs => unfold spentIn
      rw [Option.getD_some, Nat.cast_ite, Nat.cast_zero]

/-! ### One request -/

section Grants

variable {settings : DdosGuardSettings ℚ}

/-- The account that a bucket keeps. -/
def Resource.terms (hsettings : settings.NonNegative) (resource : Resource) : Terms ℚ where
  rate := resource.rate settings
  burst := resource.burst settings
  rest := idleStateRetention
  rate_nonneg := resource.rate_nonneg hsettings
  burst_nonneg := resource.burst_nonneg hsettings
  rest_pos := by norm_num [idleStateRetention]

variable {request : GuardRequest} {r : Except DropReason Unit × IpProtectionState ℚ} {ip : IpAddr}
  {e : GuardEvent}

/-- A request that is accepted takes its amount; any other takes something or
nothing. -/
theorem Resource.level_served (hsettings : settings.NonNegative) {now : Instant}
    {st : IpProtectionState ℚ} (h : st.Sound settings now) (hserved : st.Served id now request r)
    (resource : Resource) :
    (r.1 = .ok () ∧ (resource.amount request : ℚ) ≤ (resource.bucket st).level now ∧
        (resource.bucket r.2).level now =
          (resource.bucket st).level now - resource.amount request) ∨
      ((∃ reason, r.1 = .error reason) ∧
        (resource.bucket r.2).level now ≤ (resource.bucket st).level now) := by
  have htcp := sound_later h.tcp h.seen
  have hpackets := sound_later h.packets h.seen
  have hbytes := sound_later h.bytes h.seen
  cases hserved with
  | blocked hblocked =>
    refine Or.inr ⟨⟨_, rfl⟩, ?_⟩
    cases resource <;> exact le_refl _
  | refused hfree tcp packets bytes hdrawTcp hdrawPackets hdrawBytes reason =>
    obtain ⟨_, _, _, heq⟩ := refuse_eq (st.moved tcp packets bytes) now reason
    rw [heq]
    refine Or.inr ⟨⟨_, rfl⟩, ?_⟩
    cases resource with
    | connections => exact (drawn_spec hsettings.tcpRate htcp hdrawTcp).2
    | datagrams => exact (drawn_spec hsettings.packetRate hpackets hdrawPackets).2
    | octets => exact (drawn_spec hsettings.byteRate hbytes hdrawBytes).2
  | accepted hfree tcp packets bytes hgaveTcp hgavePackets hgaveBytes =>
    refine Or.inl ⟨rfl, ?_⟩
    cases resource with
    | connections => exact (gave_spec hsettings.tcpRate htcp hgaveTcp).2
    | datagrams => exact (gave_spec hsettings.packetRate hpackets hgavePackets).2
    | octets => exact (gave_spec hsettings.byteRate hbytes hgaveBytes).2

/-! ### Runs -/

/-- The account of an address at a time: that of its bucket when the entry was
last seen, or of a full bucket where there is no entry. -/
def AccountOf (terms : Terms ℚ) (resource : Resource) (log : List (ℚ × ℚ))
    (now : Instant) : Option (IpProtectionState ℚ) → Prop
  | none => Account terms log now terms.burst
  | some st => Account terms log st.lastSeen ((resource.bucket st).level st.lastSeen)

variable {hsettings : settings.NonNegative} {resource : Resource} {log : List (ℚ × ℚ)}
  {now : Instant} {entry : Option (IpProtectionState ℚ)} {st : IpProtectionState ℚ}

theorem accountOf_later {after : Instant}
    (h : AccountOf (resource.terms hsettings) resource log now entry) (hle : now ≤ after) :
    AccountOf (resource.terms hsettings) resource log after entry := by
  cases entry with
  | none =>
    refine Within.refill h (limit_grows _) hle (le_refl _)
      (le_add_of_nonneg_right ?_)
    exact mul_nonneg (resource.terms hsettings).rate_nonneg (sub_nonneg.mpr hle)
  | some st => exact h

/-- The account of an entry at a later time. -/
theorem account_at (hst : st.Sound settings now)
    (h : AccountOf (resource.terms hsettings) resource log now (some st)) :
    Account (resource.terms hsettings) log now ((resource.bucket st).level now) := by
  have hsound := resource.sound_bucket hst
  refine Within.refill h (limit_grows _) hst.seen (level_le_burst hsound now) ?_
  rw [level_after (resource.terms hsettings).rate_nonneg hsound hst.seen]
  exact min_le_left _ _

/-- **Pruning opens the account anew, and only after the rest that allows it.** -/
theorem accountOf_prune {states : ProtectionStates ℚ}
    (hsound : ∀ st, states ip = some st → st.Sound settings now)
    (h : AccountOf (resource.terms hsettings) resource log now (states ip)) :
    AccountOf (resource.terms hsettings) resource log now (pruneIdleStates now states ip) := by
  refine pruneIdleStates_cases h (fun st hst hkept => ?_)
  rw [hst] at h
  have hlevel := level_nonneg (resource.terms hsettings).rate_nonneg
    (resource.sound_bucket (hsound st hst))
  exact Account.reopen h hlevel (idle_of_pruned hkept).2.2

theorem account_entryAt {g : GuardRun ℚ}
    (hsound : ∀ st, g.states ip = some st → st.Sound settings now)
    (h : AccountOf (resource.terms hsettings) resource log now (g.states ip)) :
    (g.entryAt settings now ip).Sound settings now ∧
      Account (resource.terms hsettings) log now
        ((resource.bucket (g.entryAt settings now ip)).level now) := by
  have hpruned := accountOf_prune hsound h
  unfold GuardRun.entryAt
  cases hst : pruneIdleStates now g.states ip with
  | none =>
    rw [hst] at hpruned
    refine ⟨sound_new hsettings now, ?_⟩
    have hfull : (resource.bucket (IpProtectionState.new now settings)).level now =
        (resource.terms hsettings).burst := by
      cases resource with
      | connections | datagrams | octets => exact level_new _ _ _
    rw [Option.getD_none, hfull]
    exact hpruned
  | some st =>
    rw [hst] at hpruned
    have hst' := hsound st (pruneIdleStates_eq_some hst)
    exact ⟨hst', account_at hst' hpruned⟩

/-- The account follows every answer. -/
theorem account_served (hst : st.Sound settings now)
    (h : Account (resource.terms hsettings) log now ((resource.bucket st).level now))
    (hserved : st.Served id now request r) :
    AccountOf (resource.terms hsettings) resource
      (match r.1 with
        | .ok () => (now, (resource.amount request : ℚ)) :: log
        | .error _ => log) now (some r.2) := by
  obtain ⟨hsound, hseen⟩ := sound_served hsettings hst hserved
  dsimp only [AccountOf]
  rw [hseen]
  rcases resource.level_served hsettings hst hserved with
    ⟨hok, henough, hlevel⟩ | ⟨⟨reason, herror⟩, hlevel⟩
  · rw [hok, hlevel]
    exact h.spend (limit_grows _) henough
  · rw [herror]
    refine h.refill (limit_grows _) (le_refl _)
      (level_le_burst (resource.sound_bucket hsound) now) ?_
    rw [sub_self, mul_zero, add_zero]
    exact hlevel

/-- The account of an address in a run with its answers. -/
def GuardTrace.Granted (hsettings : settings.NonNegative) (resource : Resource) (ip : IpAddr)
    (t : GuardTrace ℚ) : Prop :=
  AccountOf (resource.terms hsettings) resource (grants resource ip t.log) t.run.clock
    (t.run.states ip)

theorem granted_of_not_asked (answer : Except DropReason Unit)
    (hasks : ∀ request, e.op.asks ≠ some (ip, request)) :
    granted resource ip (e, answer) = none := by
  cases answer with
  | error reason => rfl
  | ok _ =>
    dsimp only [granted]
    cases hasked : e.op.asks with
    | none => rfl
    | some asked =>
      obtain ⟨asked, request⟩ := asked
      refine if_neg (fun hip => ?_)
      exact hasks request (hip ▸ hasked)

theorem grants_of_not_asked (answer : Except DropReason Unit)
    (rest : List (GuardEvent × Except DropReason Unit))
    (hasks : ∀ request, e.op.asks ≠ some (ip, request)) :
    grants resource ip ((e, answer) :: rest) = grants resource ip rest := by
  rw [grants, granted_of_not_asked answer hasks]

theorem grants_of_asked (answer : Except DropReason Unit)
    (rest : List (GuardEvent × Except DropReason Unit)) (hasks : e.op.asks = some (ip, request)) :
    grants resource ip ((e, answer) :: rest) =
      match answer with
      | .ok () => (e.now, (resource.amount request : ℚ)) :: grants resource ip rest
      | .error _ => grants resource ip rest := by
  cases answer with
  | error reason => rfl
  | ok _ =>
    have hsome : granted resource ip (e, .ok ()) = some (resource.amount request) := by
      dsimp only [granted]
      rw [hasks]
      exact if_pos rfl
    rw [grants, hsome]

theorem granted_step (henabled : settings.enabled = true) {t t' : GuardTrace ℚ}
    (hsound : t.run.Entries (IpProtectionState.Sound settings))
    (h : t.Granted hsettings resource ip) (hok : t.InOrder e)
    (hstep : t.step id settings e = some t') : t'.Granted hsettings resource ip := by
  obtain ⟨g, hg, rfl⟩ := Option.map_eq_some_iff.mp hstep
  have hclock := clock_of_step hg
  have hsoundNow : ∀ st, t.run.states ip = some st → st.Sound settings e.now := by
    intro st hst
    have hst' := hsound ip st hst
    exact ⟨hst'.tcp, hst'.packets, hst'.bytes, hst'.seen.trans hok⟩
  have hnow := accountOf_later h hok
  unfold GuardTrace.Granted
  rw [hclock]
  by_cases hasks : ∃ request, e.op.asks = some (ip, request)
  · -- the address asks: its entry serves the request
    obtain ⟨request, hasks⟩ := hasks
    obtain ⟨hentry, haccount⟩ := account_entryAt hsoundNow hnow
    have hserved := serve_served id settings (t.run.entryAt settings e.now ip) e.now request
    rw [states_of_asks henabled hasks hg, Function.update_self, grants_of_asked _ _ hasks,
      answer_of_asks henabled hasks]
    exact account_served hentry haccount hserved
  · have hother : ∀ request, e.op.asks ≠ some (ip, request) :=
      fun request h => hasks ⟨request, h⟩
    rw [grants_of_not_asked _ _ hother]
    rcases step_entry hg ip with
      ⟨_, request, hasked, _⟩ | hsame | hpruned | ⟨st, hst, hclosed⟩
    · exact absurd hasked (hother request)
    · rw [hsame]
      exact hnow
    · rw [hpruned]
      exact accountOf_prune hsoundNow hnow
    · rw [hclosed]
      rw [hst] at hnow
      have hat := account_at (hsoundNow st hst) hnow
      cases resource <;> exact hat

/-- What an address may be granted in a window of the given length: the burst,
what is refilled in the window, and for every ten minutes in it what the burst
exceeds ten minutes of refill. -/
def rateLimit (rate burst : ℚ) (length : Duration) : ℚ :=
  burst + rate * length +
    ⌊length / idleStateRetention⌋ * max 0 (burst - rate * idleStateRetention)

/-- With a burst that is refilled in ten minutes, the limit is the one of a
bucket that is never forgotten. -/
theorem rateLimit_of_refilled {rate burst : ℚ} (h : burst ≤ rate * idleStateRetention)
    (length : Duration) : rateLimit rate burst length = burst + rate * length := by
  unfold rateLimit
  rw [max_eq_left (sub_nonpos.mpr h), mul_zero, add_zero]

/-- **How much an address is granted.**  In every run of an enabled guard and
every window of time, the connections, datagrams and bytes of an address stay
within the limit of their bucket, which is the burst plus the rate times the
length of the window when ten minutes refill the burst. -/
theorem rate_bound (henabled : settings.enabled = true) (hsettings : settings.NonNegative)
    {t : GuardTrace ℚ}
    (hreach : Runs.Reaches (GuardTrace.step id settings) GuardTrace.InOrder GuardTrace.start t)
    (ip : IpAddr) {t₁ t₂ : Instant} (hle : t₁ ≤ t₂) (resource : Resource) :
    (grantedIn resource ip t₁ t₂ t.log : ℚ) ≤
        rateLimit (resource.rate settings) (resource.burst settings) (t₂ - t₁) ∧
      (resource.burst settings ≤ resource.rate settings * 600 →
        (grantedIn resource ip t₁ t₂ t.log : ℚ) ≤
          resource.burst settings + resource.rate settings * (t₂ - t₁)) := by
  have hgranted : t.Granted hsettings resource ip := by
    induction hreach with
    | start => exact within_nil (limit_grows _) _
    | next before hok hstep ih =>
      have hsound := sound_entries hsettings (GuardTrace.reaches_run before)
      exact granted_step henabled hsound ih hok hstep
  have hlimit : (grantedIn resource ip t₁ t₂ t.log : ℚ) ≤
      rateLimit (resource.rate settings) (resource.burst settings) (t₂ - t₁) := by
    rw [grantedIn_eq]
    unfold GuardTrace.Granted at hgranted
    cases hst : t.run.states ip with
    | none | some =>
      rw [hst] at hgranted
      exact hgranted.windows t₁ t₂ hle
  refine ⟨hlimit, fun hrefilled => ?_⟩
  have h600 : resource.rate settings * 600 = resource.rate settings * idleStateRetention := by
    norm_num [idleStateRetention]
  rw [← rateLimit_of_refilled (h600 ▸ hrefilled)]
  exact hlimit

end Grants

/-- One datagram under the default settings. -/
theorem rate_bound_default :
    let ip : IpAddr := .v4 ⟨[192, 0, 2, 10], rfl⟩
    ∃ t : GuardTrace ℚ,
      Runs.Reaches (GuardTrace.step id DdosGuardSettings.default) GuardTrace.InOrder
        GuardTrace.start t ∧
      grantedIn .octets ip 0 1 t.log = 1200 ∧
      (grantedIn .octets ip 0 1 t.log : ℚ) ≤ 4194304 + 2097152 * (1 - 0) := by
  intro ip
  have hnonneg : DdosGuardSettings.default.NonNegative := by
    constructor <;> norm_num [DdosGuardSettings.default]
  have hrun : (Runs.run (GuardTrace.step id DdosGuardSettings.default) GuardTrace.start
      [⟨0, .udpDatagram ip 1200⟩]).map (fun t => grantedIn .octets ip 0 1 t.log) =
      some 1200 := by
    decide +kernel
  obtain ⟨t, ht, hgranted⟩ := Option.map_eq_some_iff.mp hrun
  have hreach := Runs.reaches_of_guarded (guarded_of_inOrder (by decide +kernel)) ht
  have hburst : Resource.octets.burst DdosGuardSettings.default = 4194304 := by
    norm_num [Resource.burst, DdosGuardSettings.default]
  have hrate : Resource.octets.rate DdosGuardSettings.default = 2097152 := by
    norm_num [Resource.rate, DdosGuardSettings.default]
  have hbound := (rate_bound rfl hnonneg hreach ip (zero_le_one' ℚ) .octets).2
  rw [hburst, hrate] at hbound
  exact ⟨t, hreach, hgranted, hbound (by norm_num)⟩

/-! ### Pruning grants a burst again -/

/-- One connection, refilled in a thousand seconds. -/
def slowSettings : DdosGuardSettings ℚ :=
  { DdosGuardSettings.default with
    tcpNewConnectionsPerSecond := 1 / 1000
    tcpNewConnectionBurst := 1 }

/-- A connection is opened and closed, and another one opened ten minutes later:
two connections in a window that the bucket has at most 1.6 for. -/
theorem burst_granted_twice :
    ¬ ∀ settings : DdosGuardSettings ℚ, settings.enabled = true → settings.NonNegative →
      ∀ t : GuardTrace ℚ,
        Runs.Reaches (GuardTrace.step id settings) GuardTrace.InOrder GuardTrace.start t →
        ∀ (ip : IpAddr) (t₁ t₂ : Instant), t₁ ≤ t₂ → ∀ resource : Resource,
          (grantedIn resource ip t₁ t₂ t.log : ℚ) ≤
            resource.burst settings + resource.rate settings * (t₂ - t₁) := by
  intro hall
  let ip : IpAddr := .v4 ⟨[192, 0, 2, 10], rfl⟩
  let events : List GuardEvent :=
    [⟨0, .tcpOpened ip⟩, ⟨0, .dropped 0⟩, ⟨600, .tcpOpened ip⟩]
  have hnonneg : slowSettings.NonNegative := by
    constructor <;> norm_num [slowSettings, DdosGuardSettings.default]
  have hrun : (Runs.run (GuardTrace.step id slowSettings) GuardTrace.start events).map
      (fun t => grantedIn .connections ip 0 600 t.log) = some 2 := by
    decide +kernel
  obtain ⟨t, ht, htwo⟩ := Option.map_eq_some_iff.mp hrun
  have hreach := Runs.reaches_of_guarded (guarded_of_inOrder (by decide +kernel)) ht
  have hbound := hall slowSettings rfl hnonneg t hreach ip 0 600 (by norm_num) .connections
  rw [htwo] at hbound
  norm_num [Resource.burst, Resource.rate, slowSettings] at hbound

end FerrumProxy
