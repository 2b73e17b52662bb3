import FerrumProxy.GuardedRuns
import FerrumProxy.SpendingWindows
import FerrumProxy.TextStrings

/-!
# The rate limit of the GUI

`consumeSecurityToken` keeps one counter of tokens for each client.  A request refills it at the
rate of its own scope, clips it to the burst of its own scope, and takes a token.  Entries that were
not refilled for half an hour are deleted.  Tokens are exact rational numbers here.
-/

namespace FerrumProxy

open Str Runs Windows

/-- The kinds of requests, each with its own rate. -/
inductive SecurityScope where
  | web
  | api
  | auth
  | websocket
  deriving DecidableEq

def selectSecurityScope (pathname : Text) : SecurityScope :=
  if "/api/auth/".toList.isPrefixOf pathname then .auth
  else if "/api/".toList.isPrefixOf pathname then .api
  else .web

/-- The counter of a client. -/
structure SecurityState where
  tokens : ℚ
  lastRefillAt : ℚ
  violations : Nat
  blockedUntil : Option ℚ := none

/-- The numbers that are read from the environment, with their defaults. -/
structure RateLimitSettings where
  httpPerMinute : ℚ := 240
  httpBurst : ℚ := 80
  authPerMinute : ℚ := 30
  authBurst : ℚ := 10
  websocketPerMinute : ℚ := 30
  websocketBurst : ℚ := 12
  blockAfter : Nat := 6
  blockMs : ℚ := 10 * 60 * 1000

/-- The rate of a scope. -/
structure RateLimitPolicy where
  capacity : ℚ
  refillPerMs : ℚ

def getRateLimitPolicy (settings : RateLimitSettings) : SecurityScope → RateLimitPolicy
  | .auth => ⟨settings.authBurst, settings.authPerMinute / 60000⟩
  | .websocket => ⟨settings.websocketBurst, settings.websocketPerMinute / 60000⟩
  | .web => ⟨settings.httpBurst, settings.httpPerMinute / 60000⟩
  | .api => ⟨settings.httpBurst, settings.httpPerMinute / 60000⟩

/-- `securityStateByClient`. -/
abbrev SecurityStates := Text → Option SecurityState

namespace SecurityState

/-- `blockedUntil && blockedUntil > now`; a time of zero is false. -/
def isBlocked (state : SecurityState) (now : ℚ) : Bool :=
  state.blockedUntil.any (fun blockedUntil => blockedUntil ≠ 0 ∧ now < blockedUntil)

/-- What `pruneExpiredSecurityStates` deletes. -/
def isExpired (state : SecurityState) (now : ℚ) : Bool :=
  !state.isBlocked now && 30 * 60 * 1000 < now - state.lastRefillAt

end SecurityState

def pruneExpiredSecurityStates (now : ℚ) (states : SecurityStates) : SecurityStates :=
  fun clientKey => (states clientKey).filter (fun state => !state.isExpired now)

def getSecurityState (states : SecurityStates) (clientKey : Text) (now initialTokens : ℚ) :
    SecurityState :=
  (states clientKey).getD { tokens := initialTokens, lastRefillAt := now, violations := 0 }

/-- What is answered to a request. -/
structure SecurityAnswer where
  allowed : Bool
  retryAfterMs : Option ℚ := none
  deriving DecidableEq

/-- The entry after the refill that a request makes. -/
def SecurityState.refill (state : SecurityState) (policy : RateLimitPolicy) (now : ℚ) :
    SecurityState :=
  let elapsed := max 0 (now - state.lastRefillAt)
  { state with
    tokens := min policy.capacity (state.tokens + elapsed * policy.refillPerMs)
    lastRefillAt := now }

/-- What a request does to the entry of its client. -/
def SecurityState.consume (settings : RateLimitSettings) (policy : RateLimitPolicy)
    (state : SecurityState) (now : ℚ) : SecurityAnswer × SecurityState :=
  if state.isBlocked now then
    (⟨false, state.blockedUntil.map (· - now)⟩, state)
  else
    let state := state.refill policy now
    if state.tokens < 1 then
      let state := { state with violations := state.violations + 1 }
      if settings.blockAfter ≤ state.violations then
        (⟨false, some settings.blockMs⟩,
          { state with blockedUntil := some (now + settings.blockMs) })
      else
        (⟨false, some ⌈(1 - state.tokens) / policy.refillPerMs⌉⟩, state)
    else
      (⟨true, none⟩,
        { state with
          tokens := state.tokens - 1
          violations := if 0 < state.violations then state.violations - 1 else state.violations })

def consumeSecurityToken (settings : RateLimitSettings) (states : SecurityStates)
    (clientKey : Text) (scope : SecurityScope) (now : ℚ) : SecurityAnswer × SecurityStates :=
  let states := pruneExpiredSecurityStates now states
  let policy := getRateLimitPolicy settings scope
  let state := getSecurityState states clientKey now policy.capacity
  let (answer, state) := state.consume settings policy now
  (answer, Function.update states clientKey (some state))

/-! ## Runs -/

/-- A request with its time. -/
structure SecurityRequest where
  clientKey : Text
  scope : SecurityScope
  now : ℚ

/-- The entries, and what has happened. -/
structure SecurityRun where
  states : SecurityStates := fun _ => none
  /-- The requests that were allowed, the latest first. -/
  allowed : List SecurityRequest := []
  /-- For each client the times between which its entry was idle before it was deleted. -/
  gaps : Text → List (ℚ × ℚ) := fun _ => []
  /-- The time of the last request. -/
  clock : Option ℚ := none

namespace SecurityRun

def noteGaps (s : SecurityRun) (now : ℚ) (clientKey : Text) : List (ℚ × ℚ) :=
  match s.states clientKey with
  | none => s.gaps clientKey
  | some state =>
    if state.isExpired now then (state.lastRefillAt, now) :: s.gaps clientKey
    else s.gaps clientKey

def step (settings : RateLimitSettings) (s : SecurityRun) (request : SecurityRequest) :
    Option SecurityRun :=
  let (answer, states) :=
    consumeSecurityToken settings s.states request.clientKey request.scope request.now
  some {
    states := states
    allowed := if answer.allowed then request :: s.allowed else s.allowed
    gaps := s.noteGaps request.now
    clock := some request.now }

/-- The requests to log in that the client was allowed from `t₁` to `t₂`. -/
def authAllowedIn (s : SecurityRun) (client : Text) (t₁ t₂ : ℚ) : Nat :=
  s.allowed.countP (fun request => request.clientKey = client ∧ request.scope = .auth ∧
    t₁ ≤ request.now ∧ request.now ≤ t₂)

/-- What the client has spent on requests to log in. -/
def authLog (client : Text) : List SecurityRequest → List (ℚ × ℚ)
  | [] => []
  | request :: rest =>
    if request.clientKey = client ∧ request.scope = .auth then
      (request.now, 1) :: authLog client rest
    else authLog client rest

theorem authLog_answered {client : Text} {request : SecurityRequest}
    (hclient : request.clientKey = client) (answer : Bool) (allowed : List SecurityRequest) :
    authLog client (if answer then request :: allowed else allowed) =
      if answer ∧ request.scope = .auth then (request.now, 1) :: authLog client allowed
      else authLog client allowed := by
  cases answer with
  | false => rfl
  | true =>
    rw [if_pos rfl, authLog]
    simp only [hclient, true_and]

theorem authLog_of_other {client : Text} {request : SecurityRequest}
    (hclient : request.clientKey ≠ client) (answer : Bool) (allowed : List SecurityRequest) :
    authLog client (if answer then request :: allowed else allowed) = authLog client allowed := by
  cases answer with
  | false => rfl
  | true => rw [if_pos rfl, authLog, if_neg (fun h => hclient h.1)]

theorem authAllowedIn_eq (s : SecurityRun) (client : Text) (t₁ t₂ : ℚ) :
    (s.authAllowedIn client t₁ t₂ : ℚ) = spentIn t₁ t₂ (authLog client s.allowed) := by
  unfold authAllowedIn
  induction s.allowed with
  | nil => rfl
  | cons request rest ih =>
    rw [List.countP_cons, Nat.cast_add, ih, authLog]
    by_cases hauth : request.clientKey = client ∧ request.scope = .auth
    · rw [if_pos hauth, spentIn]
      simp only [hauth.1, hauth.2, true_and, decide_eq_true_eq]
      split <;> simp [add_comm]
    · rw [if_neg hauth]
      simp only [← and_assoc, hauth, false_and, decide_false, Bool.false_eq_true, if_false,
        Nat.cast_zero, add_zero]

end SecurityRun

/-! ## The account of a client -/

section Account

variable {rate burst now : ℚ} {log gaps : List (ℚ × ℚ)} {state : SecurityState}
  {policy : RateLimitPolicy} {settings : RateLimitSettings}

/-- The entry accounts for what was spent: of its tokens, no more than the burst counts. -/
structure SecurityState.Accounts (rate burst : ℚ) (log gaps : List (ℚ × ℚ)) (now : ℚ)
    (state : SecurityState) : Prop where
  tokens_nonneg : 0 ≤ state.tokens
  seen : state.lastRefillAt ≤ now
  ledger : Ledger rate burst log gaps state.lastRefillAt (min burst state.tokens)

/-- A request refills the entry no faster than the rate. -/
theorem accounts_refill (hrate : 0 ≤ rate) (hburst : 0 ≤ burst) (hcapacity : 0 ≤ policy.capacity)
    (hrefill : 0 ≤ policy.refillPerMs) (h : state.Accounts rate burst log gaps now)
    (hslow : state.lastRefillAt < now → policy.refillPerMs ≤ rate) :
    (state.refill policy now).Accounts rate burst log gaps now := by
  have helapsed : max 0 (now - state.lastRefillAt) = now - state.lastRefillAt :=
    max_eq_right (sub_nonneg.mpr h.seen)
  have hgain : 0 ≤ (now - state.lastRefillAt) * policy.refillPerMs :=
    mul_nonneg (sub_nonneg.mpr h.seen) hrefill
  have hmost : (now - state.lastRefillAt) * policy.refillPerMs ≤
      rate * (now - state.lastRefillAt) := by
    rcases h.seen.eq_or_lt with heq | hlt
    · rw [heq, sub_self, zero_mul, mul_zero]
    · rw [mul_comm]
      exact mul_le_mul_of_nonneg_right (hslow hlt) (sub_nonneg.mpr h.seen)
  refine ⟨?_, le_refl now, ?_⟩
  · show 0 ≤ min policy.capacity _
    rw [helapsed]
    exact le_min hcapacity (add_nonneg h.tokens_nonneg hgain)
  · refine h.ledger.refill (gapLimit_grows hrate hburst gaps) h.seen (min_le_left _ _) ?_
    show min burst (min policy.capacity _) ≤ _
    rw [helapsed, min_add]
    refine le_min ?_ ?_
    · have hle := min_le_left burst (min policy.capacity
        (state.tokens + (now - state.lastRefillAt) * policy.refillPerMs))
      linarith
    · have hle := (min_le_right burst (min policy.capacity
        (state.tokens + (now - state.lastRefillAt) * policy.refillPerMs))).trans (min_le_right _ _)
      linarith

/-- A token is taken for something else than a login. -/
theorem accounts_take (hrate : 0 ≤ rate) (hburst : 0 ≤ burst)
    (h : state.Accounts rate burst log gaps now) (hone : 1 ≤ state.tokens) {violations : Nat} :
    ({ state with tokens := state.tokens - 1, violations } : SecurityState).Accounts
      rate burst log gaps now := by
  refine ⟨sub_nonneg.mpr hone, h.seen, ?_⟩
  refine h.ledger.refill (gapLimit_grows hrate hburst gaps) (le_refl _) (min_le_left _ _) ?_
  have hle : min burst (state.tokens - 1) ≤ min burst state.tokens :=
    min_le_min_left burst (sub_le_self _ zero_le_one)
  rwa [sub_self, mul_zero, add_zero]

/-- A token is taken for a login. -/
theorem accounts_spend (hrate : 0 ≤ rate) (hburst : 0 ≤ burst)
    (h : state.Accounts rate burst log gaps now) (hone : 1 ≤ state.tokens)
    (hclipped : state.tokens ≤ burst) {violations : Nat} :
    ({ state with tokens := state.tokens - 1, violations } : SecurityState).Accounts
      rate burst ((state.lastRefillAt, 1) :: log) gaps now := by
  refine ⟨sub_nonneg.mpr hone, h.seen, ?_⟩
  have hledger := h.ledger
  rw [min_eq_right hclipped] at hledger
  have hspent := hledger.spend (gapLimit_grows hrate hburst gaps) hone
  have hlevel : min burst (state.tokens - 1) = state.tokens - 1 :=
    min_eq_right ((sub_le_self _ zero_le_one).trans hclipped)
  rw [hlevel]
  exact hspent

/-- Every limit is a positive number. -/
structure RateLimitSettings.Positive (settings : RateLimitSettings) : Prop where
  httpPerMinute : 0 < settings.httpPerMinute
  httpBurst : 0 < settings.httpBurst
  authPerMinute : 0 < settings.authPerMinute
  authBurst : 0 < settings.authBurst
  websocketPerMinute : 0 < settings.websocketPerMinute
  websocketBurst : 0 < settings.websocketBurst

theorem policy_pos (hsettings : settings.Positive) (scope : SecurityScope) :
    0 < (getRateLimitPolicy settings scope).capacity ∧
      0 < (getRateLimitPolicy settings scope).refillPerMs := by
  cases scope with
  | web | api => exact ⟨hsettings.httpBurst, div_pos hsettings.httpPerMinute (by norm_num)⟩
  | auth => exact ⟨hsettings.authBurst, div_pos hsettings.authPerMinute (by norm_num)⟩
  | websocket =>
    exact ⟨hsettings.websocketBurst, div_pos hsettings.websocketPerMinute (by norm_num)⟩

/-- A request keeps the account of its client, with itself if it is an allowed login. -/
theorem accounts_consume (hsettings : settings.Positive) (hrate : 0 ≤ rate) (scope : SecurityScope)
    (h : state.Accounts rate settings.authBurst log gaps now)
    (hslow : state.isBlocked now = false → state.lastRefillAt < now →
      (getRateLimitPolicy settings scope).refillPerMs ≤ rate) :
    (state.consume settings (getRateLimitPolicy settings scope) now).2.Accounts rate
      settings.authBurst
      (if (state.consume settings (getRateLimitPolicy settings scope) now).1.allowed ∧
        scope = .auth then (now, 1) :: log else log) gaps now := by
  obtain ⟨hcapacity, hrefill⟩ := policy_pos hsettings scope
  have hburst := hsettings.authBurst.le
  unfold SecurityState.consume
  split
  · -- the client is blocked, and its entry stays
    rw [if_neg (fun hand => Bool.false_ne_true hand.1)]
    exact h
  · next hblocked =>
    have hrefilled := accounts_refill hrate hburst hcapacity.le hrefill.le h
      (hslow (Bool.not_eq_true _ ▸ hblocked))
    dsimp only
    split
    · split
      all_goals
        rw [if_neg (fun hand => Bool.false_ne_true hand.1)]
        exact ⟨hrefilled.tokens_nonneg, hrefilled.seen, hrefilled.ledger⟩
    · next hone =>
        by_cases hauth : scope = .auth
        · subst hauth
          rw [if_pos ⟨rfl, rfl⟩]
          exact accounts_spend hrate hburst hrefilled (not_lt.mp hone) (min_le_left _ _)
        · rw [if_neg (fun hand => hauth hand.2)]
          exact accounts_take hrate hburst hrefilled (not_lt.mp hone)

end Account

namespace SecurityRun

variable {settings : RateLimitSettings} {rate : ℚ} {client : Text} {s t : SecurityRun}
  {request : SecurityRequest}

/-- Requests come in the order of time. -/
def InOrder (s : SecurityRun) (request : SecurityRequest) : Prop :=
  ∀ time ∈ s.clock, time ≤ request.now

/-- A request of the client refills its entry no faster than the rate: its scope does not, or
there is no entry, or it is blocked, or no time has passed. -/
def SlowRefill (settings : RateLimitSettings) (rate : ℚ) (client : Text) (s : SecurityRun)
    (request : SecurityRequest) : Prop :=
  request.clientKey = client → ∀ state,
    pruneExpiredSecurityStates request.now s.states client = some state →
    state.isBlocked request.now = false → state.lastRefillAt < request.now →
    (getRateLimitPolicy settings request.scope).refillPerMs ≤ rate

/-- The entry of the client accounts for its logins at the given time; without an entry it is as
if there was a full one. -/
def AccountsAt (rate burst : ℚ) (log gaps : List (ℚ × ℚ)) (now : ℚ) :
    Option SecurityState → Prop
  | some state => state.Accounts rate burst log gaps now
  | none => Ledger rate burst log gaps now burst

/-- The same holds at every time that may come next. -/
def Accounted (settings : RateLimitSettings) (rate : ℚ) (client : Text) (s : SecurityRun) : Prop :=
  ∀ now, (∀ time ∈ s.clock, time ≤ now) →
    AccountsAt rate settings.authBurst (authLog client s.allowed) (s.gaps client) now
      (s.states client)

theorem AccountsAt.later {burst now later : ℚ} {log gaps : List (ℚ × ℚ)}
    {state : Option SecurityState} (hrate : 0 ≤ rate) (hburst : 0 ≤ burst)
    (h : AccountsAt rate burst log gaps now state) (hle : now ≤ later) :
    AccountsAt rate burst log gaps later state := by
  cases state with
  | some state => exact ⟨h.tokens_nonneg, h.seen.trans hle, h.ledger⟩
  | none =>
    have hrefill := mul_nonneg hrate (sub_nonneg.mpr hle)
    exact Within.refill h (gapLimit_grows hrate hburst gaps) hle (le_refl burst) (by linarith)

/-- An entry that is deleted leaves a gap. -/
theorem accountsAt_prune (hsettings : settings.Positive) (hrate : 0 ≤ rate) {now : ℚ}
    {log : List (ℚ × ℚ)}
    (h : AccountsAt rate settings.authBurst log (s.gaps client) now (s.states client)) :
    AccountsAt rate settings.authBurst log (s.noteGaps now client) now
      (pruneExpiredSecurityStates now s.states client) := by
  unfold noteGaps pruneExpiredSecurityStates
  cases hstate : s.states client with
  | none =>
    rw [hstate] at h
    exact h
  | some state =>
    rw [hstate] at h
    cases hexpired : state.isExpired now with
    | false =>
      simp only [Option.filter_some, hexpired, Bool.not_false, if_true, Bool.false_eq_true,
        if_false]
      exact h
    | true =>
      simp only [Option.filter_some, hexpired, Bool.not_true, if_true, Bool.false_eq_true, if_false]
      exact Ledger.forget hrate hsettings.authBurst.le h.ledger
        (le_min hsettings.authBurst.le h.tokens_nonneg) h.seen

/-- The entry that a request finds or creates. -/
theorem accounts_getSecurityState (hrate : 0 ≤ rate) {states : SecurityStates} {burst now : ℚ}
    (hburst : 0 ≤ burst) {log gaps : List (ℚ × ℚ)} {initialTokens : ℚ}
    (hinitial : 0 ≤ initialTokens)
    (h : AccountsAt rate burst log gaps now (states client)) :
    (getSecurityState states client now initialTokens).Accounts rate burst log gaps now := by
  unfold getSecurityState
  cases hstate : states client with
  | some state =>
    rw [hstate] at h
    exact h
  | none =>
    rw [hstate] at h
    have hzero : rate * (now - now) = 0 := by rw [sub_self, mul_zero]
    refine ⟨hinitial, le_refl now, ?_⟩
    refine Within.refill h (gapLimit_grows hrate hburst gaps) (le_refl now) (min_le_left _ _) ?_
    rw [hzero, add_zero]
    exact min_le_left _ _

theorem accounted_start (hsettings : settings.Positive) (hrate : 0 ≤ rate) :
    Accounted settings rate client {} := by
  intro now _
  exact within_nil (gapLimit_grows hrate hsettings.authBurst.le []) now

theorem accounted_step (hsettings : settings.Positive) (hrate : 0 ≤ rate)
    (h : Accounted settings rate client s) (horder : s.InOrder request)
    (hslow : s.SlowRefill settings rate client request)
    (hstep : s.step settings request = some t) : Accounted settings rate client t := by
  have hburst := hsettings.authBurst.le
  have hpruned := accountsAt_prune hsettings hrate (h request.now horder)
  suffices hnow : AccountsAt rate settings.authBurst (authLog client t.allowed) (t.gaps client)
      request.now (t.states client) by
    intro later hlater
    cases hstep
    exact hnow.later hrate hburst (hlater request.now rfl)
  cases hstep
  dsimp only [consumeSecurityToken]
  by_cases hclient : request.clientKey = client
  · have hstate := accounts_getSecurityState hrate hburst
      (policy_pos hsettings request.scope).1.le hpruned
    rw [authLog_answered hclient]
    subst hclient
    rw [Function.update_self]
    refine accounts_consume hsettings hrate request.scope hstate (fun hblocked hlt => ?_)
    unfold getSecurityState at hblocked hlt
    cases hfound : pruneExpiredSecurityStates request.now s.states request.clientKey with
    | none =>
      rw [hfound] at hlt
      exact absurd hlt (lt_irrefl request.now)
    | some state =>
      rw [hfound] at hblocked hlt
      exact hslow rfl state hfound hblocked hlt
  · rw [authLog_of_other hclient, Function.update_of_ne (Ne.symm hclient)]
    exact hpruned

theorem inOrder_of_pairwise {requests : List SecurityRequest}
    (horder : (requests.map SecurityRequest.now).Pairwise (· ≤ ·))
    (hclock : ∀ request ∈ requests, s.InOrder request) :
    Guarded (step settings) InOrder s requests := by
  induction requests generalizing s with
  | nil => trivial
  | cons request rest ih =>
    obtain ⟨hfirst, hrest⟩ := List.pairwise_cons.mp horder
    refine ⟨hclock request List.mem_cons_self, ih hrest (fun other hother time htime => ?_)⟩
    cases htime
    exact hfirst other.now (List.mem_map.mpr ⟨other, hother, rfl⟩)

/-- The logins that a client is allowed in a window number at most the burst of their scope, what
their rate refills, and a burst for every gap after which the entry was deleted, provided that
every request of the client refills its entry no faster than a login. -/
theorem auth_limit_holds (hsettings : settings.Positive)
    {requests : List SecurityRequest} (hrun : run (step settings) {} requests = some s)
    (horder : (requests.map SecurityRequest.now).Pairwise (· ≤ ·))
    (hslow : Guarded (step settings)
      (SlowRefill settings (settings.authPerMinute / 60000) client) {} requests) {t₁ t₂ : ℚ}
    (hle : t₁ ≤ t₂) :
    (s.authAllowedIn client t₁ t₂ : ℚ) ≤
      settings.authBurst + settings.authPerMinute / 60000 * (t₂ - t₁) +
        settings.authBurst * gapsIn t₁ t₂ (s.gaps client) := by
  have hrate : 0 ≤ settings.authPerMinute / 60000 := (policy_pos hsettings .auth).2.le
  have hinOrder : Guarded (step settings) InOrder {} requests :=
    inOrder_of_pairwise horder (fun _ _ _ htime => (nomatch htime))
  have haccounted : Accounted settings (settings.authPerMinute / 60000) client s :=
    (reaches_of_guarded (hinOrder.and hslow) hrun).invariant (accounted_start hsettings hrate)
      (fun s request t h hok hstep => accounted_step hsettings hrate h hok.1 hok.2 hstep)
  have haccounts := haccounted (s.clock.getD 0) (fun time htime => by rw [htime]; rfl)
  rw [authAllowedIn_eq]
  cases hstate : s.states client with
  | some state =>
    rw [hstate] at haccounts
    exact haccounts.ledger.windows t₁ t₂ hle
  | none =>
    rw [hstate] at haccounts
    exact haccounts.windows t₁ t₂ hle

/-- Two logins with a request for the websocket, which has the same rate, between them. -/
def loginsAndUpgrade : List SecurityRequest :=
  [⟨"192.0.2.1".toList, selectSecurityScope "/api/auth/login".toList, 0⟩,
    ⟨"192.0.2.1".toList, .websocket, 1000⟩,
    ⟨"192.0.2.1".toList, selectSecurityScope "/api/auth/login".toList, 2000⟩]

/-- Logins and the upgrade of a websocket. -/
theorem auth_limit_with_upgrade :
    ∃ s, run (step {}) {} loginsAndUpgrade = some s ∧
      (s.authAllowedIn "192.0.2.1".toList 0 2000 : ℚ) ≤
        10 + 30 / 60000 * (2000 - 0) + 10 * gapsIn 0 2000 (s.gaps "192.0.2.1".toList) := by
  have hslow : Guarded (step {}) (SlowRefill {} (30 / 60000) "192.0.2.1".toList) {}
      loginsAndUpgrade := by
    refine guarded_of_forall (fun request hrequest s _ _ _ _ _ => ?_) _
    simp only [loginsAndUpgrade, List.mem_cons, List.not_mem_nil, or_false] at hrequest
    rcases hrequest with rfl | rfl | rfl <;> exact le_refl _
  refine ⟨_, rfl, auth_limit_holds ?_ rfl ?_ hslow ?_⟩
  · constructor <;> norm_num
  · norm_num [loginsAndUpgrade]
  · norm_num

/-- Ten logins use up the counter; three seconds later a request for a page refills it for ten
more. -/
def loginsAndPage : List SecurityRequest :=
  List.replicate 10 ⟨"192.0.2.1".toList, selectSecurityScope "/api/auth/login".toList, 0⟩ ++
    ⟨"192.0.2.1".toList, selectSecurityScope "/".toList, 3000⟩ ::
      List.replicate 10 ⟨"192.0.2.1".toList, selectSecurityScope "/api/auth/login".toList, 3000⟩

/-- A request for a page refills the counter eight times as fast. -/
theorem web_request_refills_auth :
    ∃ s, run (step {}) {} loginsAndPage = some s ∧
      (loginsAndPage.map SecurityRequest.now).Pairwise (· ≤ ·) ∧
      s.authAllowedIn "192.0.2.1".toList 0 3000 = 20 ∧
      (10 + 30 / 60000 * (3000 - 0) + 10 * gapsIn 0 3000 (s.gaps "192.0.2.1".toList) : ℚ) < 20 := by
  refine ⟨_, rfl, ?_, ?_, ?_⟩
  · decide +kernel
  · decide +kernel
  · decide +kernel

end SecurityRun

end FerrumProxy
