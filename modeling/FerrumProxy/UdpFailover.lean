import FerrumProxy.UdpTransparency

/-!
# Fail-over between UDP targets

`try_send_udp` starts at the target that took the session's last datagram and goes on to the targets
after it.  A target before it is never tried again: the index only moves up.
-/

namespace FerrumProxy

open Wire Runs

variable {rule : ListenerRule} {network : Network} {originalClient : SocketAddr} {payload : Bytes}
  {session : UdpSession}

/-! ### One datagram -/

variable {index : Nat} {slots : List (Option SocketAddr)} {candidate : ProxyTarget × Nat}
  {link : UdpLink} {event : LinkEvent}

theorem sendToTarget_isSome {target : ProxyTarget} {port : UInt16}
    (hport : target.udp = some port) :
    (sendToTarget rule network originalClient payload session target port index).2.isSome =
      (accepts network session.resolvedTargets (target, index)).isSome := by
  rw [sendToTarget_eq]
  simp only [accepts, hport]
  cases session.resolvedTargets[index]?.join.or (network.lookupHost target.host port) <;>
    cases hsend : network.sendTo index <;> simp [sendResolved, hsend]

/-- A miss does not change what other targets do. -/
theorem accepts_congr {slots' : List (Option SocketAddr)}
    (h : slots'[candidate.2]? = slots[candidate.2]?) :
    accepts network slots' candidate = accepts network slots candidate := by
  unfold accepts
  rw [h]

open List

theorem trySendFrom_isSome_iff {candidates : List (ProxyTarget × Nat)}
    (hdistinct : (candidates.map Prod.snd).Nodup) :
    (trySendFrom rule network originalClient payload session candidates).2.isSome = true ↔
      ∃ candidate ∈ candidates,
        (accepts network session.resolvedTargets candidate).isSome = true := by
  induction candidates generalizing session with
  | nil => simp [trySendFrom]
  | cons candidate rest ih =>
    obtain ⟨target, index⟩ := candidate
    obtain ⟨hnew, hrest⟩ := nodup_cons.mp hdistinct
    rw [trySendFrom]
    cases hport : target.udp with
    | none =>
      have hnone : accepts network session.resolvedTargets (target, index) = none := by
        unfold accepts
        rw [hport]
      simp only [ih hrest, mem_cons, exists_eq_or_imp, hnone, Option.isSome_none,
        Bool.false_eq_true, false_or]
    | some port =>
      dsimp only
      cases haccepts : accepts network session.resolvedTargets (target, index) with
      | some addr =>
        have htaken := @sendToTarget_isSome rule network originalClient payload session index
          target port hport
        rw [haccepts] at htaken
        constructor
        · intro _
          exact ⟨(target, index), mem_cons_self, by rw [haccepts]; rfl⟩
        · intro _
          generalize sendToTarget rule network originalClient payload session target port
            index = outcome at htaken
          obtain ⟨after, result⟩ := outcome
          cases result with
          | none => cases htaken
          | some sent => rfl
      | none =>
        obtain ⟨after, heq, hmissed⟩ :=
          sendToTarget_missed originalClient payload rule hport haccepts
        rw [heq]
        dsimp only
        rw [ih hrest]
        simp only [mem_cons, exists_eq_or_imp, haccepts, Option.isSome_none,
          Bool.false_eq_true, false_or]
        apply exists_congr
        intro other
        apply and_congr_right
        intro hother
        have hne : other.2 ≠ index := by
          intro h
          exact hnew (List.mem_map.mpr ⟨other, hother, h⟩)
        rw [accepts_congr (hmissed.others other.2 hne)]

theorem mem_remainingTargets :
    candidate ∈ remainingTargets rule session ↔
      candidate ∈ (rule.targetsFor .udp).zipIdx ∧ session.activeTargetIndex ≤ candidate.2 := by
  unfold remainingTargets
  constructor
  · intro h
    obtain ⟨j, hj, rfl⟩ := mem_iff_getElem.mp h
    refine ⟨mem_of_mem_drop h, ?_⟩
    simp
  · intro ⟨h, hk⟩
    obtain ⟨j, hj, rfl⟩ := mem_iff_getElem.mp h
    simp only [getElem_zipIdx, Nat.zero_add] at hk
    exact mem_drop_iff_getElem.mpr ⟨j - session.activeTargetIndex, by omega, by congr 1; omega⟩

/-- **What `try_send_udp` needs**: a target that takes the datagram, not before the active one. -/
theorem trySendUdp_isSome_iff :
    (trySendUdp rule network originalClient payload session).2.isSome = true ↔
      ∃ candidate ∈ (rule.targetsFor .udp).zipIdx, session.activeTargetIndex ≤ candidate.2 ∧
        (accepts network session.resolvedTargets candidate).isSome = true := by
  have hdistinct : ((remainingTargets rule session).map Prod.snd).Nodup := by
    unfold remainingTargets
    rw [map_drop, zipIdx_map_snd]
    exact (nodup_range').drop
  rw [trySendUdp, trySendFrom_isSome_iff hdistinct]
  simp only [mem_remainingTargets, and_assoc]

/-! ### The active target -/

/-- The loop ends at the target that took the datagram, or the active one stays. -/
theorem trySendFrom_active (candidates : List (ProxyTarget × Nat)) :
    ((attemptsFrom rule network originalClient payload session candidates).filter
        SendAttempt.taken = [] ∧
      (trySendFrom rule network originalClient payload session candidates).1.activeTargetIndex =
        session.activeTargetIndex) ∨
    ∃ attempt, (attemptsFrom rule network originalClient payload session candidates).filter
        SendAttempt.taken = [attempt] ∧
      (trySendFrom rule network originalClient payload session candidates).1.activeTargetIndex =
        attempt.index := by
  induction candidates generalizing session with
  | nil => exact .inl ⟨rfl, rfl⟩
  | cons candidate rest ih =>
    obtain ⟨target, index⟩ := candidate
    rw [attemptsFrom, trySendFrom]
    cases hport : target.udp with
    | none => exact ih
    | some port =>
      have hattempt := @sendToTarget_attempt rule network originalClient payload session target
        port index
      dsimp only
      rw [filter_append]
      cases haccepts : accepts network session.resolvedTargets (target, index) with
      | some addr =>
        have htaken := @sendToTarget_isSome rule network originalClient payload session index
          target port hport
        rw [haccepts] at htaken
        generalize sendToTarget rule network originalClient payload session target port
          index = outcome at hattempt htaken
        obtain ⟨after, result⟩ := outcome
        cases result with
        | none => cases htaken
        | some sent =>
          obtain ⟨attempt, hone, _⟩ := map_eq_singleton_iff.mp hattempt.symm
          have hmem := mem_of_mem_filter (hone ▸ mem_singleton_self attempt)
          have hindex : index = attempt.index := by
            obtain ⟨_, _, rfl⟩ := Option.map_eq_some_iff.mp (Option.mem_toList.mp hmem)
            rfl
          refine .inr ⟨attempt, ?_, hindex⟩
          rw [hone]
          rfl
      | none =>
        obtain ⟨after, heq, hmissed⟩ :=
          sendToTarget_missed originalClient payload rule hport haccepts
        rw [heq] at hattempt ⊢
        have hnone := map_eq_nil_iff.mp hattempt.symm
        dsimp only
        rw [hnone, nil_append, ← hmissed.active]
        exact ih

theorem trySendUdp_active (session : UdpSession) :
    ((attemptsFrom rule network originalClient payload session
        (remainingTargets rule session)).filter SendAttempt.taken = [] ∧
      (trySendUdp rule network originalClient payload session).1.activeTargetIndex =
        session.activeTargetIndex) ∨
    ∃ attempt, (attemptsFrom rule network originalClient payload session
        (remainingTargets rule session)).filter SendAttempt.taken = [attempt] ∧
      (trySendUdp rule network originalClient payload session).1.activeTargetIndex =
        attempt.index ∧ session.activeTargetIndex ≤ attempt.index := by
  rcases @trySendFrom_active rule network originalClient payload session
      (remainingTargets rule session) with hstays | ⟨attempt, hone, hmoves⟩
  · exact .inl hstays
  · refine .inr ⟨attempt, hone, hmoves, ?_⟩
    have hmem := mem_of_mem_filter (hone ▸ mem_singleton_self attempt)
    obtain ⟨target, htarget, _⟩ := index_of_attempt session hmem
    exact (mem_remainingTargets.mp htarget).2

/-- The targets that have taken the datagram of an event, by their indices. -/
def UdpLink.takenBy (rule : ListenerRule) (link : UdpLink) : LinkEvent → List Nat
  | .datagram now network originalClient payload =>
    ((attempts rule network originalClient payload now link.session).filter
      SendAttempt.taken).map SendAttempt.index
  | .reply _ => []

open UdpLink

/-- **One step**: the active target is the one that took the datagram, at or after the one
before, or it stays. -/
theorem UdpLink.step_active {next : UdpLink} (h : link.step rule event = some next) :
    (link.takenBy rule event = [] ∧
      next.session.activeTargetIndex = link.session.activeTargetIndex) ∨
    ∃ index, link.takenBy rule event = [index] ∧ next.session.activeTargetIndex = index ∧
      link.session.activeTargetIndex ≤ index := by
  cases event with
  | reply now =>
    cases h
    exact .inl ⟨rfl, rfl⟩
  | datagram now network originalClient payload =>
    have hnext : next.session.activeTargetIndex =
        (forwardDatagram rule network originalClient payload now
          link.session).1.activeTargetIndex := by
      dsimp only [step] at h
      split at h <;> cases h <;> rfl
    rw [hnext]
    unfold forwardDatagram takenBy attempts
    dsimp only
    -- a session that forgets its header has the same active target
    have hactive : (if rule.usesRaknetUdp && rule.haproxy &&
          decide (cloudburstProxyMappingTimeoutMs ≤ link.session.msSinceLastActivity now)
        then { link.session with headerSent := false } else link.session).activeTargetIndex =
        link.session.activeTargetIndex := by
      split <;> rfl
    generalize (if rule.usesRaknetUdp && rule.haproxy &&
          decide (cloudburstProxyMappingTimeoutMs ≤ link.session.msSinceLastActivity now)
        then { link.session with headerSent := false } else link.session) = session at hactive ⊢
    rw [← hactive]
    have htry := @trySendUdp_active rule network originalClient payload session
    generalize trySendUdp rule network originalClient payload session = outcome at htry ⊢
    obtain ⟨after, result⟩ := outcome
    rcases htry with ⟨hnone, hstays⟩ | ⟨attempt, hone, hmoves, hle⟩
    · refine .inl ⟨by rw [hnone]; rfl, ?_⟩
      cases result <;> exact hstays
    · refine .inr ⟨attempt.index, by rw [hone]; rfl, ?_, hle⟩
      cases result <;> exact hmoves

/-- **A history**: the active target is the last one that took a datagram, and the ones before
it took theirs at lower or equal indices. -/
theorem UdpLink.run_active {history : List LinkEvent} {last : UdpLink}
    (hrun : run (step rule) link history = some last) :
    link.session.activeTargetIndex ≤ last.session.activeTargetIndex ∧
    (∀ index ∈ logged (step rule) (takenBy rule) link history,
      index ≤ last.session.activeTargetIndex) ∧
    (last.session.activeTargetIndex = link.session.activeTargetIndex ∨
      last.session.activeTargetIndex ∈
        logged (step rule) (takenBy rule) link history) := by
  induction history generalizing link with
  | nil =>
    cases hrun
    exact ⟨Nat.le_refl _, fun _ hmem => (nomatch hmem), .inl rfl⟩
  | cons event rest ih =>
    obtain ⟨next, hnext, hrest⟩ := Option.bind_eq_some_iff.mp hrun
    obtain ⟨hle, hbelow, hlast⟩ := ih hrest
    rw [logged, hnext, Option.elim_some]
    rcases step_active hnext with ⟨hnone, hstays⟩ | ⟨index, hone, hmoves, hup⟩
    · rw [hnone, nil_append, ← hstays]
      exact ⟨hle, hbelow, hlast⟩
    · rw [hone]
      refine ⟨by omega, ?_, .inr ?_⟩
      · intro other hother
        rcases mem_cons.mp hother with rfl | hother
        · omega
        · exact hbelow other hother
      · rcases hlast with hlast | hlast
        · rw [hlast, hmoves]
          exact mem_cons_self
        · exact mem_cons_of_mem _ hlast

/-! ### Fail-over -/

/-- Sending to the target would succeed. -/
def WouldTake (rule : ListenerRule) (network : Network) (originalClient : SocketAddr)
    (payload : Bytes) (session : UdpSession) (candidate : ProxyTarget × Nat) : Prop :=
  ∃ port, candidate.1.udp = some port ∧
    (sendToTarget rule network originalClient payload session candidate.1 port
      candidate.2).2.isSome = true

theorem wouldTake_iff :
    WouldTake rule network originalClient payload session candidate ↔
      (accepts network session.resolvedTargets candidate).isSome = true := by
  constructor
  · intro ⟨port, hport, htakes⟩
    rwa [sendToTarget_isSome hport] at htakes
  · intro haccepts
    cases hport : candidate.1.udp with
    | none =>
      unfold accepts at haccepts
      rw [hport] at haccepts
      cases haccepts
    | some port => exact ⟨port, hport, by rwa [sendToTarget_isSome hport]⟩

/-- A network in which only the target at an index is reached. -/
def onlyAt (index : Nat) : Network := ⟨fun _ _ => some backendAddr, fun other => other == index⟩

theorem accepts_onlyAt (hport : candidate.1.udp.isSome = true) :
    (accepts (onlyAt index) slots candidate).isSome = true ↔ candidate.2 = index := by
  obtain ⟨port, hport⟩ := Option.isSome_iff_exists.mp hport
  unfold accepts onlyAt
  rw [hport]
  dsimp only
  by_cases hindex : candidate.2 = index
  · simp [hindex]
  · simp [hindex]

theorem UdpLink.targets_of_takenBy (h : index ∈ link.takenBy rule event) :
    index < (rule.targetsFor .udp).length := by
  cases event with
  | reply now => cases h
  | datagram now network originalClient payload =>
    obtain ⟨attempt, hattempt, rfl⟩ := List.mem_map.mp h
    obtain ⟨target, htarget, _⟩ := mem_targets_of_attempt (mem_of_mem_filter hattempt)
    exact (List.getElem?_eq_some_iff.mp htarget).1

/-- **Fail-over uses all targets exactly as long as it was not needed.**  After any history of
a session, a datagram reaches some target whenever one would take it, if and only if every
datagram of the history that was sent was taken by the first target. -/
theorem udp_failover_iff (rule : ListenerRule) {history : List LinkEvent} {link : UdpLink}
    (hrun : run (UdpLink.step rule) (UdpLink.start rule) history = some link) :
    (∀ network originalClient payload,
      (∃ candidate ∈ (rule.targetsFor .udp).zipIdx,
        WouldTake rule network originalClient payload link.session candidate) →
      (trySendUdp rule network originalClient payload link.session).2.isSome = true) ↔
    ∀ index ∈ logged (UdpLink.step rule) (UdpLink.takenBy rule) (UdpLink.start rule) history,
      index = 0 := by
  obtain ⟨_, hbelow, hlast⟩ := run_active hrun
  constructor
  · intro hall index hindex
    have hle := hbelow index hindex
    by_contra hne
    obtain ⟨_, _, _, _, _, _, htaken⟩ := mem_logged hindex
    have hlength := targets_of_takenBy htaken
    have hports : ∀ candidate ∈ (rule.targetsFor .udp).zipIdx, candidate.1.udp.isSome = true := by
      intro candidate hmem
      exact (mem_filter.mp (fst_mem_of_mem_zipIdx hmem)).2
    -- the first target is back, and no other is
    have hfirst : ((rule.targetsFor .udp)[0], 0) ∈ (rule.targetsFor .udp).zipIdx :=
      mem_zipIdx_iff_getElem?.mpr (List.getElem?_eq_getElem _)
    have htakes : WouldTake rule (onlyAt 0) playerAddr [] link.session
        ((rule.targetsFor .udp)[0], 0) :=
      wouldTake_iff.mpr ((accepts_onlyAt (hports _ hfirst)).mpr rfl)
    obtain ⟨candidate, hmem, hafter, haccepts⟩ := trySendUdp_isSome_iff.mp
      (hall (onlyAt 0) playerAddr [] ⟨_, hfirst, htakes⟩)
    have hzero := (accepts_onlyAt (hports candidate hmem)).mp haccepts
    omega
  · intro hzero network originalClient payload ⟨candidate, hmem, htakes⟩
    have hactive : link.session.activeTargetIndex = 0 := by
      rcases hlast with hlast | hlast
      · exact hlast
      · exact hzero _ hlast
    exact trySendUdp_isSome_iff.mpr ⟨candidate, hmem, by omega, wouldTake_iff.mp htakes⟩

/-! ### A target that comes back -/

def twoTargets : ListenerRule :=
  { udp := some 19132,
    targets := [{ host := "first".toList, udp := some 19133 },
      { host := "second".toList, udp := some 19134 }] }

/-- A session that has only needed its first target. -/
theorem udp_failover_unneeded :
    ∃ link, run (UdpLink.step twoTargets) (UdpLink.start twoTargets)
        [.datagram 0 (onlyAt 0) playerAddr [1], .reply 5] = some link ∧
      ∀ network originalClient payload,
        (∃ candidate ∈ (twoTargets.targetsFor .udp).zipIdx,
          WouldTake twoTargets network originalClient payload link.session candidate) →
        (trySendUdp twoTargets network originalClient payload link.session).2.isSome = true := by
  have hruns : (run (step twoTargets) (start twoTargets)
      [.datagram 0 (onlyAt 0) playerAddr [1], .reply 5]).isSome = true := by
    decide +kernel
  obtain ⟨link, hrun⟩ := Option.isSome_iff_exists.mp hruns
  exact ⟨link, hrun, (udp_failover_iff twoTargets hrun).mpr (by decide +kernel)⟩

/-- The first target misses a datagram, the second one takes it; then the second one is gone
and the first one is back, and the next datagram is lost. -/
theorem first_target_forgotten :
    ∃ link, run (UdpLink.step twoTargets) (UdpLink.start twoTargets)
        [.datagram 0 (onlyAt 1) playerAddr [1]] = some link ∧
      (∃ candidate ∈ (twoTargets.targetsFor .udp).zipIdx,
        WouldTake twoTargets (onlyAt 0) playerAddr [2] link.session candidate) ∧
      (trySendUdp twoTargets (onlyAt 0) playerAddr [2] link.session).2.isSome = false := by
  have hruns : ((run (step twoTargets) (start twoTargets)
      [.datagram 0 (onlyAt 1) playerAddr [1]]).map (fun link =>
        (trySendUdp twoTargets (onlyAt 0) playerAddr [2] link.session).2.isSome)) =
      some false := by
    decide +kernel
  obtain ⟨link, hrun, hlost⟩ := Option.map_eq_some_iff.mp hruns
  have hfirst : ({ host := "first".toList, udp := some 19133 }, 0) ∈
      (twoTargets.targetsFor .udp).zipIdx := mem_cons_self
  exact ⟨link, hrun, ⟨_, hfirst, wouldTake_iff.mpr ((accepts_onlyAt rfl).mpr rfl)⟩, hlost⟩

end FerrumProxy
