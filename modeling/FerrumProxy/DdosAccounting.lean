import FerrumProxy.DdosGuard

/-!
# Connection accounting of the DDoS guard

Each operation changes the count of one address at most, pruning the count of none, because it keeps
every entry with a positive count; and a permit is dropped only while it is held.
-/

namespace FerrumProxy

open IpProtectionState TcpConnectionPermit DdosGuardSettings

section Accounting

variable {F : Type} (settings : DdosGuardSettings F)

/-- The active connections of an address, none without an entry. -/
def activeOf (states : ProtectionStates F) (ip : IpAddr) : Nat :=
  ((states ip).map IpProtectionState.activeTcpConnections).getD 0

/-! ### The table -/

theorem blockReason_active (st : IpProtectionState F) (now : Instant) :
    (st.blockReason now).2.activeTcpConnections = st.activeTcpConnections := by
  unfold blockReason
  split <;> rfl

theorem refuse_active (st : IpProtectionState F) (now : Instant) (reason : DropReason) :
    (st.refuse now reason).2.activeTcpConnections = st.activeTcpConnections := by
  unfold refuse recordViolation
  rw [apply_ite Prod.snd, apply_ite activeTcpConnections, ite_self]

theorem refuse_error (st : IpProtectionState F) (now : Instant) (reason : DropReason) :
    ∃ r, (st.refuse now reason).1 = .error r :=
  ⟨_, rfl⟩

/-- **Pruning keeps every entry with open connections.** -/
theorem pruneIdleStates_of_active (now : Instant) {states : ProtectionStates F} {ip : IpAddr}
    (h : 0 < activeOf states ip) : pruneIdleStates now states ip = states ip := by
  unfold activeOf at h
  unfold pruneIdleStates
  cases hst : states ip with
  | none => rfl
  | some st =>
    rw [hst] at h
    have hactive : 0 < st.activeTcpConnections := h
    have hkeep : retained now st = true := by
      unfold retained
      rw [decide_eq_true hactive]
      rfl
    exact if_pos hkeep

theorem activeOf_prune (now : Instant) (states : ProtectionStates F) (ip : IpAddr) :
    activeOf (pruneIdleStates now states) ip = activeOf states ip := by
  by_cases hactive : 0 < activeOf states ip
  · rw [activeOf, pruneIdleStates_of_active now hactive, ← activeOf]
  · -- a count of zero stays zero, with or without the entry
    unfold activeOf pruneIdleStates at *
    cases hst : states ip with
    | none => rfl
    | some st =>
      rw [hst] at hactive
      have hzero : st.activeTcpConnections = 0 := Nat.eq_zero_of_not_pos hactive
      by_cases hkeep : retained now st = true
      · rw [Option.filter_some, if_pos hkeep]
      · rw [Option.filter_some, if_neg hkeep]
        exact hzero.symm

/-- An operation changes the count of its own address only, to that of the entry
it leaves. -/
theorem activeOf_onEntry (now : Instant) (ip : IpAddr)
    (op : IpProtectionState F → Except DropReason Unit × IpProtectionState F)
    (states : ProtectionStates F) :
    ∃ st : IpProtectionState F, st.activeTcpConnections = activeOf states ip ∧
      (onEntry settings now ip op states).1 = (op st).1 ∧
      ∀ other, activeOf (onEntry settings now ip op states).2 other =
        if other = ip then (op st).2.activeTcpConnections else activeOf states other := by
  refine ⟨(pruneIdleStates now states ip).getD (new now settings), ?_, rfl, ?_⟩
  · rw [← activeOf_prune now states ip, activeOf]
    cases pruneIdleStates now states ip <;> rfl
  · intro other
    unfold onEntry
    dsimp only
    by_cases hother : other = ip
    · rw [if_pos hother, hother, activeOf, Function.update_self]
      rfl
    · rw [if_neg hother, activeOf, Function.update_of_ne hother, ← activeOf, activeOf_prune]

theorem activeOf_closed (now : Instant) (ip : IpAddr) (states : ProtectionStates F)
    (other : IpAddr) :
    activeOf (tcpConnectionClosed now ip states) other =
      if other = ip then activeOf states ip - 1 else activeOf states other := by
  unfold tcpConnectionClosed
  cases hst : states ip with
  | none =>
    dsimp only
    by_cases hother : other = ip
    · rw [if_pos hother, hother, activeOf, hst]
      rfl
    · rw [if_neg hother]
  | some st =>
    dsimp only
    by_cases hother : other = ip
    · rw [if_pos hother, hother, activeOf, activeOf, Function.update_self, hst]
      rfl
    · rw [if_neg hother, activeOf, Function.update_of_ne hother, ← activeOf]

/-- The table counts the permits that are held, and never more than the limit. -/
structure GuardRun.Accounted (settings : DdosGuardSettings F) (g : GuardRun F) : Prop where
  live : ∀ permit ∈ g.permits, permit.released = false
  counted : ∀ ip, activeOf g.states ip = (g.permits.map TcpConnectionPermit.ip).count ip
  bounded : ∀ ip, activeOf g.states ip ≤ settings.tcpMaxActivePerIp

theorem accounted_start : GuardRun.Accounted settings GuardRun.start where
  live := by
    intro permit h
    cases h
  counted _ := rfl
  bounded _ := Nat.zero_le _

/-- Dropping a held permit takes one off the count of its address. -/
theorem accounted_dropped {g : GuardRun F} (hg : g.Accounted settings) (now : Instant)
    {position : Nat} {permit : TcpConnectionPermit}
    (hpermit : g.permits[position]? = some permit) :
    GuardRun.Accounted settings {
      states := dropPermit now permit g.states
      permits := g.permits.eraseIdx position
      clock := now } := by
  obtain ⟨hposition, hget⟩ := List.getElem?_eq_some_iff.mp hpermit
  have hlive := hg.live permit (List.mem_of_getElem? hpermit)
  have hperm : g.permits.Perm (permit :: g.permits.eraseIdx position) := by
    rw [← hget]
    exact (List.getElem_cons_eraseIdx_perm hposition).symm
  have hcount : ∀ other, (g.permits.map ip).count other =
      (permit.ip :: (g.permits.eraseIdx position).map ip).count other :=
    fun other => (hperm.map ip).count_eq other
  have hactive : ∀ other, activeOf (dropPermit now permit g.states) other =
      ((g.permits.eraseIdx position).map ip).count other := by
    intro other
    have hone := hg.counted other
    rw [hcount other] at hone
    unfold dropPermit
    rw [hlive, if_neg Bool.false_ne_true, activeOf_closed]
    by_cases hother : other = permit.ip
    · rw [hother, List.count_cons_self] at hone
      rw [if_pos hother, hother, hone, Nat.add_sub_cancel]
    · rw [List.count_cons_of_ne (Ne.symm hother)] at hone
      rw [if_neg hother, hone]
  refine ⟨fun p hp => hg.live p (List.mem_of_mem_eraseIdx hp), hactive, ?_⟩
  intro other
  rw [hactive other]
  calc ((g.permits.eraseIdx position).map ip).count other ≤ (g.permits.map ip).count other := by
        rw [hcount other]
        exact List.count_le_count_cons
    _ = activeOf g.states other := (hg.counted other).symm
    _ ≤ settings.tcpMaxActivePerIp := hg.bounded other

/-! ### One operation -/

variable [Add F] [Sub F] [Mul F] [Min F] [NatCast F] [LT F] [DecidableLT F] [LE F]
  [DecidableLE F] (asSecsF64 : Duration → F)

/-- Opening a connection counts it when it is accepted, and only below the
limit. -/
theorem openTcp_active (st : IpProtectionState F) (now : Instant) :
    ((st.openTcp asSecsF64 settings now).1 = .ok () ∧
        (st.openTcp asSecsF64 settings now).2.activeTcpConnections =
          st.activeTcpConnections + 1 ∧
        st.activeTcpConnections < settings.tcpMaxActivePerIp) ∨
      ((∃ r, (st.openTcp asSecsF64 settings now).1 = .error r) ∧
        (st.openTcp asSecsF64 settings now).2.activeTcpConnections =
          st.activeTcpConnections) := by
  have hblock := blockReason_active st now
  unfold openTcp
  split
  · rename_i reason st' heq
    rw [heq] at hblock
    exact Or.inr ⟨⟨reason, rfl⟩, hblock⟩
  · rename_i st' heq
    rw [heq] at hblock
    dsimp only at hblock ⊢
    by_cases hfull : settings.tcpMaxActivePerIp ≤ st'.activeTcpConnections
    · rw [if_pos hfull]
      exact Or.inr ⟨refuse_error _ _ _, (refuse_active _ _ _).trans hblock⟩
    · rw [if_neg hfull]
      split
      · exact Or.inl ⟨rfl, by rw [← hblock], by omega⟩
      · exact Or.inr ⟨refuse_error _ _ _, (refuse_active _ _ _).trans hblock⟩

/-- A datagram never changes the count. -/
theorem allowDatagram_active (st : IpProtectionState F) (bytes : Nat) (now : Instant) :
    (st.allowDatagram asSecsF64 settings bytes now).2.activeTcpConnections =
      st.activeTcpConnections := by
  have hblock := blockReason_active st now
  unfold allowDatagram
  split
  · rename_i reason st' heq
    rw [heq] at hblock
    exact hblock
  · rename_i st' heq
    rw [heq] at hblock
    dsimp only at hblock ⊢
    split
    · exact (refuse_active _ _ _).trans hblock
    · split
      · split
        · exact hblock
        · exact (refuse_active _ _ _).trans hblock
      · exact (refuse_active _ _ _).trans hblock

/-! ### Runs -/

/-- An opened connection is counted and its permit is held; a refused one
changes neither. -/
theorem accounted_tcpOpened (henabled : settings.enabled = true) {g : GuardRun F}
    (hg : g.Accounted settings) (now : Instant) (ip : IpAddr) :
    GuardRun.Accounted settings {
      states := (tcpConnectionOpened asSecsF64 settings now ip g.states).2
      permits :=
        (tcpConnectionOpened asSecsF64 settings now ip g.states).1.toOption.toList ++ g.permits
      clock := now } := by
  unfold tcpConnectionOpened
  rw [if_pos henabled]
  dsimp only
  obtain ⟨st, hst, hresult, hactive⟩ := activeOf_onEntry settings now ip
    (fun st => st.openTcp asSecsF64 settings now) g.states
  rw [hresult]
  rcases openTcp_active settings asSecsF64 st now with
    ⟨hok, hcount, hroom⟩ | ⟨⟨reason, herror⟩, hcount⟩
  · rw [hok]
    refine ⟨?_, ?_, ?_⟩
    · intro permit hpermit
      rcases List.mem_cons.mp hpermit with rfl | hold
      · rfl
      · exact hg.live permit hold
    · intro other
      have hold := hg.counted other
      rw [hactive other, hcount, hst]
      change _ = (ip :: g.permits.map TcpConnectionPermit.ip).count other
      by_cases hother : other = ip
      · rw [if_pos hother, hother, List.count_cons_self, ← hg.counted ip]
      · rw [if_neg hother, List.count_cons_of_ne (Ne.symm hother), hold]
    · intro other
      rw [hactive other, hcount, hst]
      split
      · omega
      · exact hg.bounded other
  · rw [herror]
    refine ⟨hg.live, ?_, ?_⟩
    · intro other
      rw [hactive other, hcount, hst]
      change _ = (g.permits.map TcpConnectionPermit.ip).count other
      split
      · rename_i hother
        rw [hother, hg.counted ip]
      · exact hg.counted other
    · intro other
      rw [hactive other, hcount, hst]
      split
      · exact hg.bounded ip
      · exact hg.bounded other

theorem accounted_udpDatagram (henabled : settings.enabled = true) {g : GuardRun F}
    (hg : g.Accounted settings) (now : Instant) (ip : IpAddr) (bytes : Nat) :
    GuardRun.Accounted settings { g with
      states := (udpDatagramAllowed asSecsF64 settings now ip bytes g.states).2
      clock := now } := by
  unfold udpDatagramAllowed
  rw [if_pos henabled]
  obtain ⟨st, hst, _, hactive⟩ := activeOf_onEntry settings now ip
    (fun st => st.allowDatagram asSecsF64 settings bytes now) g.states
  have hsame : ∀ other, activeOf (onEntry settings now ip
      (fun st => st.allowDatagram asSecsF64 settings bytes now) g.states).2 other =
      activeOf g.states other := by
    intro other
    rw [hactive other, allowDatagram_active, hst]
    split
    · rename_i hother
      rw [hother]
    · rfl
  exact ⟨hg.live, fun other => (hsame other).trans (hg.counted other),
    fun other => (hsame other).le.trans (hg.bounded other)⟩

theorem accounted_step (henabled : settings.enabled = true) (g : GuardRun F) (e : GuardEvent)
    (g' : GuardRun F) (hg : g.Accounted settings)
    (hstep : g.step asSecsF64 settings e = some g') : g'.Accounted settings := by
  obtain ⟨now, op⟩ := e
  cases op with
  | tcpOpened ip =>
    cases hstep
    exact accounted_tcpOpened settings asSecsF64 henabled hg now ip
  | udpDatagram ip bytes =>
    cases hstep
    exact accounted_udpDatagram settings asSecsF64 henabled hg now ip bytes
  | dropped position =>
    unfold GuardRun.step at hstep
    dsimp only at hstep
    cases hpermit : g.permits[position]? with
    | none =>
      rw [hpermit] at hstep
      cases hstep
    | some permit =>
      rw [hpermit] at hstep
      cases hstep
      exact accounted_dropped settings hg now hpermit

/-- **Connection accounting.**  In every state that a run of an enabled guard
reaches, each address's count is the number of its permits still held and at
most the limit; whoever drops a permit finds the entry with a positive count,
and no pruning removes an entry while a permit of its address is held. -/
theorem connection_accounting (henabled : settings.enabled = true) {g : GuardRun F}
    (hreach : Runs.Reaches (GuardRun.step asSecsF64 settings) InOrder GuardRun.start g) :
    (∀ ip, activeOf g.states ip = (g.permits.map TcpConnectionPermit.ip).count ip) ∧
      (∀ ip, activeOf g.states ip ≤ settings.tcpMaxActivePerIp) ∧
      (∀ permit ∈ g.permits, permit.released = false ∧
        ∃ st, g.states permit.ip = some st ∧ 0 < st.activeTcpConnections) ∧
      (∀ now, ∀ permit ∈ g.permits,
        pruneIdleStates now g.states permit.ip = g.states permit.ip) := by
  have hg : g.Accounted settings :=
    hreach.invariant (accounted_start settings)
      (fun g e g' hg _ hstep => accounted_step settings asSecsF64 henabled g e g' hg hstep)
  have hpositive : ∀ permit ∈ g.permits, 0 < activeOf g.states permit.ip := by
    intro permit hpermit
    rw [hg.counted, List.count_pos_iff]
    exact List.mem_map_of_mem hpermit
  refine ⟨hg.counted, hg.bounded, ?_, ?_⟩
  · intro permit hpermit
    refine ⟨hg.live permit hpermit, ?_⟩
    have hactive := hpositive permit hpermit
    unfold activeOf at hactive
    cases hst : g.states permit.ip with
    | none =>
      rw [hst] at hactive
      cases hactive
    | some st =>
      rw [hst] at hactive
      exact ⟨st, rfl, hactive⟩
  · intro now permit hpermit
    exact pruneIdleStates_of_active now (hpositive permit hpermit)

/-- Two addresses connect, the second one leaves, and a datagram of a third one comes after the
time in which an idle entry is pruned. -/
def openedAndLeft : List GuardEvent :=
  [⟨0, .tcpOpened (.v4 (.new 192 0 2 10))⟩, ⟨0, .tcpOpened (.v4 (.new 192 0 2 11))⟩, ⟨1, .dropped 0⟩,
    ⟨700, .udpDatagram (.v4 (.new 192 0 2 12)) 10⟩]

/-- The address that left is forgotten, the other one keeps its count. -/
theorem connection_accounting_opened :
    ∃ g : GuardRun ℚ,
      Runs.Reaches (GuardRun.step id default) InOrder GuardRun.start g ∧
      g.permits = [⟨.v4 (.new 192 0 2 10), false⟩] ∧
      (g.states (.v4 (.new 192 0 2 11))).isNone = true ∧
      activeOf g.states (.v4 (.new 192 0 2 10)) = 1 := by
  obtain ⟨g, hrun⟩ : ∃ g, Runs.run (GuardRun.step id default) GuardRun.start
      openedAndLeft = some g := Option.isSome_iff_exists.mp (by decide +kernel)
  have hguarded : Runs.Guarded (GuardRun.step id default)
      (fun g e => g.clock ≤ e.now) GuardRun.start openedAndLeft := by decide +kernel
  have hreach := Runs.reaches_of_guarded hguarded hrun
  have hfinal : (Runs.run (GuardRun.step id default) GuardRun.start
      openedAndLeft).map (fun g => (g.permits, (g.states (.v4 (.new 192 0 2 11))).isNone)) =
        some ([⟨.v4 (.new 192 0 2 10), false⟩], true) := by decide +kernel
  rw [hrun, Option.map_some, Option.some.injEq, Prod.mk.injEq] at hfinal
  have hcount := (connection_accounting default id rfl hreach).1
    (.v4 (.new 192 0 2 10))
  rw [hfinal.1] at hcount
  exact ⟨g, hreach, hfinal.1, hfinal.2, hcount⟩

end Accounting

end FerrumProxy
