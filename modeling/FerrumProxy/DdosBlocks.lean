import FerrumProxy.DdosGuard

/-!
# Answers and temporary blocks of the DDoS guard

An operation of the guard either asks something of one entry (a connection to open, a datagram to
let through) or gives a permit back.  `step_entry` says what one operation can do to any entry of
the table; facts about entries are carried through whole runs by `entry_invariant`.
-/

namespace FerrumProxy

open Runs

/-- What is asked of an entry. -/
inductive GuardRequest where
  | tcp
  | udp (bytes : Nat)

/-- What a request takes from the bucket of new connections. -/
def GuardRequest.connections : GuardRequest → Nat
  | .tcp => 1
  | .udp _ => 0

/-- What a request takes from the bucket of datagrams. -/
def GuardRequest.datagrams : GuardRequest → Nat
  | .tcp => 0
  | .udp _ => 1

/-- What a request takes from the bucket of bytes. -/
def GuardRequest.octets : GuardRequest → Nat
  | .tcp => 0
  | .udp bytes => bytes

/-- The address whose entry the operation asks, and what it asks for. -/
def GuardOp.asks : GuardOp → Option (IpAddr × GuardRequest)
  | .tcpOpened ip => some (ip, .tcp)
  | .udpDatagram ip bytes => some (ip, .udp bytes)
  | .dropped _ => none

theorem durationSince_mono {now after : Instant} (last : Instant) (hle : now ≤ after) :
    durationSince now last ≤ durationSince after last :=
  max_le_max_right 0 (sub_le_sub_right hle last)

open IpProtectionState

section Entries

variable {F : Type} {now : Instant} {st : IpProtectionState F}

def IpProtectionState.blockedAt (now : Instant) (st : IpProtectionState F) : Bool :=
  st.temporaryBlockUntil.any (fun blockedUntil => decide (now < blockedUntil))

theorem blockedAt_iff :
    st.blockedAt now = true ↔ ∃ u, st.temporaryBlockUntil = some u ∧ now < u := by
  unfold blockedAt
  cases st.temporaryBlockUntil <;> simp

theorem blockReason_blocked (h : st.blockedAt now = true) :
    st.blockReason now = (some .temporarilyBlocked, { st with lastSeen := now }) :=
  if_pos h

theorem blockReason_free (h : st.blockedAt now = false) :
    st.blockReason now = (none, { st with temporaryBlockUntil := none }) :=
  if_neg (Bool.eq_false_iff.mp h)

variable {states : ProtectionStates F}

/-- **Pruning keeps an entry or takes it away**, the latter if it is not retained. -/
theorem pruneIdleStates_cases {P : Option (IpProtectionState F) → Prop} {ip : IpAddr}
    (h : P (states ip))
    (hpruned : ∀ st, states ip = some st → retained now st = false → P none) :
    P (pruneIdleStates now states ip) := by
  unfold pruneIdleStates
  cases hst : states ip with
  | none => rwa [hst] at h
  | some st =>
    rw [hst] at h
    rw [Option.filter_some]
    split
    · exact h
    · next hkept => exact hpruned st hst (Bool.eq_false_iff.mpr hkept)

theorem pruneIdleStates_eq_some {ip : IpAddr} (h : pruneIdleStates now states ip = some st) :
    states ip = some st :=
  (Option.filter_eq_some_iff.mp h).1

/-- The entry on which a request of the address works. -/
def GuardRun.entryAt (settings : DdosGuardSettings F) (g : GuardRun F) (now : Instant)
    (ip : IpAddr) : IpProtectionState F :=
  (pruneIdleStates now g.states ip).getD (IpProtectionState.new now settings)

/-- A request works on the stored entry or on a new one. -/
theorem entryAt_cases (settings : DdosGuardSettings F) (g : GuardRun F) (now : Instant)
    (ip : IpAddr) :
    g.states ip = some (g.entryAt settings now ip) ∨
      g.entryAt settings now ip = new now settings := by
  unfold GuardRun.entryAt
  cases hpruned : pruneIdleStates now g.states ip with
  | none => exact Or.inr rfl
  | some st => exact Or.inl (pruneIdleStates_eq_some hpruned)

/-- What giving back a permit does to its entry. -/
def IpProtectionState.closed (st : IpProtectionState F) (now : Instant) : IpProtectionState F :=
  { st with activeTcpConnections := st.activeTcpConnections - 1, lastSeen := now }

/-- An entry whose block is over, with the given buckets. -/
def IpProtectionState.moved (st : IpProtectionState F) (tcp packets bytes : TokenBucket F) :
    IpProtectionState F :=
  { st with
    tcpNewConnections := tcp
    udpPackets := packets
    udpBytes := bytes
    temporaryBlockUntil := none }

/-- A blocked entry is not pruned. -/
theorem pruneIdleStates_of_blocked {ip : IpAddr} (hst : states ip = some st)
    (hblocked : st.blockedAt now = true) : pruneIdleStates now states ip = some st := by
  unfold pruneIdleStates
  rw [hst, Option.filter_some, if_pos]
  unfold retained
  unfold blockedAt at hblocked
  rw [hblocked, Bool.or_true, Bool.true_or]

/-- The counter of violations after one more. -/
def IpProtectionState.nextViolations (st : IpProtectionState F) (now : Instant) : Nat :=
  min ((if st.lastViolation.all
      (fun last => decide (violationDecayAfter < durationSince now last))
    then 0 else st.violations) + 1) (2 ^ 32 - 1)

/-- The violation that reaches the limit sets a block. -/
theorem refuse_cases (st : IpProtectionState F) (now : Instant) (reason : DropReason) :
    (tempBlockAfterViolations ≤ st.nextViolations now ∧ st.refuse now reason =
        (.error .temporarilyBlocked, { st with
          violations := st.nextViolations now
          lastViolation := some now
          temporaryBlockUntil := some (now + min
            (tempBlockBase *
              (st.nextViolations now - tempBlockAfterViolations + 1 : Nat)) tempBlockMax)
          lastSeen := now })) ∨
      (st.nextViolations now < tempBlockAfterViolations ∧ st.refuse now reason =
        (.error reason, { st with
          violations := st.nextViolations now
          lastViolation := some now
          lastSeen := now })) := by
  unfold refuse recordViolation
  dsimp only
  rw [← nextViolations]
  split
  · next hblock => exact Or.inl ⟨hblock, rfl⟩
  · next hblock => exact Or.inr ⟨Nat.lt_of_not_le hblock, rfl⟩

/-- It touches neither the buckets nor the connections. -/
theorem refuse_eq (st : IpProtectionState F) (now : Instant) (reason : DropReason) :
    ∃ answer violations blockedUntil, st.refuse now reason =
      (.error answer, { st with
        violations := violations
        lastViolation := some now
        temporaryBlockUntil := blockedUntil
        lastSeen := now }) := by
  rcases refuse_cases st now reason with ⟨_, heq⟩ | ⟨_, heq⟩
  · exact ⟨_, _, _, heq⟩
  · exact ⟨_, _, _, heq⟩

/-- The entry of the address is blocked until the given time, if that is still to
come. -/
def GuardRun.BlockedUntil (ip : IpAddr) (u : Instant) (g : GuardRun F) : Prop :=
  g.clock < u → ∃ st, g.states ip = some st ∧ st.temporaryBlockUntil = some u

/-- Before the end of its block the entry is blocked. -/
theorem GuardRun.BlockedUntil.entry {settings : DdosGuardSettings F} {g : GuardRun F}
    {ip : IpAddr} {u : Instant} {e : GuardEvent} (hg : g.BlockedUntil ip u) (hok : InOrder g e)
    (hbefore : e.now < u) :
    ∃ st, g.states ip = some st ∧ st.temporaryBlockUntil = some u ∧ st.blockedAt e.now = true ∧
      g.entryAt settings e.now ip = st := by
  obtain ⟨st, hst, hu⟩ := hg (lt_of_le_of_lt hok hbefore)
  have hblocked : st.blockedAt e.now = true := blockedAt_iff.mpr ⟨u, hu, hbefore⟩
  refine ⟨st, hst, hu, hblocked, ?_⟩
  rw [GuardRun.entryAt, pruneIdleStates_of_blocked hst hblocked, Option.getD_some]

/-! ### The counter of violations -/

/-- What the counter, the last violation and the block of an entry can be.  A
counter of 24 has set a block of 20 seconds and one of 25 a block of 40, which
outlasts the memory of the counter. -/
structure IpProtectionState.Counted (now : Instant) (st : IpProtectionState F) : Prop where
  atMost : st.violations ≤ 25
  past : ∀ last, st.lastViolation = some last → last ≤ now
  uncounted : st.lastViolation = none → st.violations = 0
  high : st.violations = 25 → ∀ last, st.lastViolation = some last →
    st.temporaryBlockUntil = some (last + 40) ∨ last + 40 ≤ now
  lasts : ∀ u, st.temporaryBlockUntil = some u →
    ∃ last, st.lastViolation = some last ∧
      ((st.violations = 24 ∧ u = last + 20) ∨ (st.violations = 25 ∧ u = last + 40))

theorem counted_new (now : Instant) (settings : DdosGuardSettings F) :
    (new now settings).Counted now where
  atMost := Nat.zero_le _
  past last h := by cases h
  uncounted _ := rfl
  high h := by cases h
  lasts u h := by cases h

theorem counted_later {later : Instant} (h : st.Counted now) (hle : now ≤ later) :
    st.Counted later where
  atMost := h.atMost
  past last hlast := (h.past last hlast).trans hle
  uncounted := h.uncounted
  high hv last hlast := (h.high hv last hlast).imp id (fun hover => hover.trans hle)
  lasts := h.lasts

/-- An entry that is not blocked can do without its block. -/
theorem counted_moved (h : st.Counted now) (hfree : st.blockedAt now = false)
    (tcp packets bytes : TokenBucket F) : (st.moved tcp packets bytes).Counted now where
  atMost := h.atMost
  past := h.past
  uncounted := h.uncounted
  high hv last hlast := by
    rcases h.high hv last hlast with hu | hover
    · by_cases hbefore : now < last + 40
      · rw [blockedAt_iff.mpr ⟨_, hu, hbefore⟩] at hfree
        cases hfree
      · exact Or.inr (not_lt.mp hbefore)
    · exact Or.inr hover
  lasts u hu := by cases hu

/-- Without a block, one more violation makes at most 25. -/
theorem nextViolations_le (h : st.Counted now) (hnone : st.temporaryBlockUntil = none) :
    st.nextViolations now ≤ 25 := by
  refine (min_le_left _ _).trans (Nat.succ_le_succ ?_)
  split
  · exact Nat.zero_le _
  · rename_i hfresh
    cases hlast : st.lastViolation with
    | none =>
      rw [h.uncounted hlast]
      exact Nat.zero_le _
    | some last =>
      rw [hlast] at hfresh
      -- at 25 the block lasted longer than the counter is remembered
      have hne : st.violations ≠ 25 := by
        intro hv
        rcases h.high hv last hlast with hu | hover
        · rw [hnone] at hu
          cases hu
        · have hlong : violationDecayAfter < now - last := by
            unfold violationDecayAfter
            linarith
          exact hfresh (decide_eq_true (lt_of_lt_of_le hlong (le_max_left _ _)))
      have hmost := h.atMost
      omega

/-- The two lengths of a block. -/
theorem block_length {violations : Nat} (hlow : tempBlockAfterViolations ≤ violations)
    (hhigh : violations ≤ 25) :
    (violations = 24 ∧ min (tempBlockBase *
        (violations - tempBlockAfterViolations + 1 : Nat)) tempBlockMax = 20) ∨
      (violations = 25 ∧ min (tempBlockBase *
        (violations - tempBlockAfterViolations + 1 : Nat)) tempBlockMax = 40) := by
  unfold tempBlockAfterViolations at hlow
  have hcases : violations = 24 ∨ violations = 25 := by omega
  rcases hcases with rfl | rfl
  · exact Or.inl ⟨rfl, by norm_num [tempBlockBase, tempBlockMax, tempBlockAfterViolations]⟩
  · exact Or.inr ⟨rfl, by norm_num [tempBlockBase, tempBlockMax, tempBlockAfterViolations]⟩

/-- A refusal is counted, with its block. -/
theorem counted_refuse (h : st.Counted now) (hnone : st.temporaryBlockUntil = none)
    (reason : DropReason) : (st.refuse now reason).2.Counted now := by
  have hnext := nextViolations_le h hnone
  rcases refuse_cases st now reason with ⟨hblock, heq⟩ | ⟨hblock, heq⟩
  · rw [heq]
    have hlong := block_length hblock hnext
    refine ⟨hnext, fun _ hlast => (Option.some.inj hlast).ge, fun hlast => (nomatch hlast), ?_, ?_⟩
    · intro hv last hlast
      cases hlast
      rcases hlong with ⟨h24, _⟩ | ⟨_, h40⟩
      · dsimp only at hv
        omega
      · exact Or.inl (by rw [h40])
    · intro u hu
      cases hu
      refine ⟨now, rfl, ?_⟩
      rcases hlong with ⟨h24, h20⟩ | ⟨h25, h40⟩
      · exact Or.inl ⟨h24, by rw [h20]⟩
      · exact Or.inr ⟨h25, by rw [h40]⟩
  · rw [heq]
    have hlow : st.nextViolations now < 24 := hblock
    refine ⟨hnext, fun _ hlast => (Option.some.inj hlast).ge, fun hlast => (nomatch hlast), ?_, ?_⟩
    · intro hv
      dsimp only at hv
      omega
    · intro u hu
      rw [hnone] at hu
      cases hu

end Entries

section Answers

variable {F : Type} [Add F] [Sub F] [Mul F] [Min F] [NatCast F]
  [LT F] [DecidableLT F] [LE F] [DecidableLE F] (asSecsF64 : Duration → F)
  (settings : DdosGuardSettings F)

/-! ### One request on one entry -/

def IpProtectionState.serve (st : IpProtectionState F) (now : Instant) :
    GuardRequest → Except DropReason Unit × IpProtectionState F
  | .tcp => st.openTcp asSecsF64 settings now
  | .udp bytes => st.allowDatagram asSecsF64 settings bytes now

/-- The bucket was left alone, or asked for an amount that it may have refused. -/
def TokenBucket.Drawn (b : TokenBucket F) (now : Instant) (b' : TokenBucket F) : Prop :=
  b' = b ∨ ∃ amount : Nat, b' = (b.consume asSecsF64 (amount : F) now).2

/-- The bucket gave the amount; it may be left alone when that is zero. -/
def TokenBucket.Gave (b : TokenBucket F) (now : Instant) (amount : Nat) (b' : TokenBucket F) :
    Prop :=
  (amount = 0 ∧ b' = b) ∨ b.consume asSecsF64 (amount : F) now = (true, b')

/-- What a request can do to its entry, with the answer. -/
inductive IpProtectionState.Served (st : IpProtectionState F) (now : Instant)
    (request : GuardRequest) : Except DropReason Unit × IpProtectionState F → Prop
  | blocked (hblocked : st.blockedAt now = true) :
      Served st now request (.error .temporarilyBlocked, { st with lastSeen := now })
  | refused (hfree : st.blockedAt now = false) (tcp packets bytes : TokenBucket F)
      (htcp : st.tcpNewConnections.Drawn asSecsF64 now tcp)
      (hpackets : st.udpPackets.Drawn asSecsF64 now packets)
      (hbytes : st.udpBytes.Drawn asSecsF64 now bytes) (reason : DropReason) :
      Served st now request ((st.moved tcp packets bytes).refuse now reason)
  | accepted (hfree : st.blockedAt now = false) (tcp packets bytes : TokenBucket F)
      (htcp : st.tcpNewConnections.Gave asSecsF64 now request.connections tcp)
      (hpackets : st.udpPackets.Gave asSecsF64 now request.datagrams packets)
      (hbytes : st.udpBytes.Gave asSecsF64 now request.octets bytes) :
      Served st now request (.ok (), { st.moved tcp packets bytes with
        activeTcpConnections := st.activeTcpConnections + request.connections
        lastSeen := now })

/-- A blocked entry refuses both kinds of request. -/
theorem serve_blocked {st : IpProtectionState F} {now : Instant} (request : GuardRequest)
    (h : st.blockedAt now = true) :
    st.serve asSecsF64 settings now request =
      (.error .temporarilyBlocked, { st with lastSeen := now }) := by
  cases request <;> simp only [serve, openTcp, allowDatagram, blockReason_blocked h]

theorem openTcp_served (st : IpProtectionState F) (now : Instant)
    (hfree : st.blockedAt now = false) :
    st.Served asSecsF64 now .tcp (st.openTcp asSecsF64 settings now) := by
  unfold openTcp
  rw [blockReason_free hfree]
  dsimp only
  split
  · exact .refused hfree _ _ _ (Or.inl rfl) (Or.inl rfl) (Or.inl rfl) _
  · split
    · rename_i hgave
      exact .accepted hfree _ _ _ (Or.inr (Prod.ext hgave rfl)) (Or.inl ⟨rfl, rfl⟩)
        (Or.inl ⟨rfl, rfl⟩)
    · exact .refused hfree _ _ _ (Or.inr ⟨1, rfl⟩) (Or.inl rfl) (Or.inl rfl) _

theorem allowDatagram_served (st : IpProtectionState F) (bytes : Nat) (now : Instant)
    (hfree : st.blockedAt now = false) :
    st.Served asSecsF64 now (.udp bytes) (st.allowDatagram asSecsF64 settings bytes now) := by
  unfold allowDatagram
  rw [blockReason_free hfree]
  dsimp only
  split
  · exact .refused hfree _ _ _ (Or.inl rfl) (Or.inl rfl) (Or.inl rfl) _
  · split
    · rename_i hpackets
      split
      · rename_i hbytes
        exact .accepted hfree _ _ _ (Or.inl ⟨rfl, rfl⟩) (Or.inr (Prod.ext hpackets rfl))
          (Or.inr (Prod.ext hbytes rfl))
      · -- the datagram is refused, but its token is gone
        exact .refused hfree _ _ _ (Or.inl rfl) (Or.inr ⟨1, rfl⟩) (Or.inr ⟨bytes, rfl⟩) _
    · exact .refused hfree _ _ _ (Or.inl rfl) (Or.inr ⟨1, rfl⟩) (Or.inl rfl) _

/-- **What a request can do to its entry.** -/
theorem serve_served (st : IpProtectionState F) (now : Instant) (request : GuardRequest) :
    st.Served asSecsF64 now request (st.serve asSecsF64 settings now request) := by
  cases hblocked : st.blockedAt now with
  | true =>
    rw [serve_blocked asSecsF64 settings request hblocked]
    exact .blocked hblocked
  | false =>
    cases request with
    | tcp => exact openTcp_served asSecsF64 settings st now hblocked
    | udp bytes => exact allowDatagram_served asSecsF64 settings st bytes now hblocked

/-! ### One operation on the table -/

/-- What the guard answers; giving back a permit is never refused. -/
def GuardRun.answer (g : GuardRun F) (e : GuardEvent) : Except DropReason Unit :=
  match e.op with
  | .tcpOpened ip =>
    (tcpConnectionOpened asSecsF64 settings e.now ip g.states).1.map (fun _ => ())
  | .udpDatagram ip bytes => (udpDatagramAllowed asSecsF64 settings e.now ip bytes g.states).1
  | .dropped _ => .ok ()

variable {asSecsF64} {settings} {g g' : GuardRun F} {e : GuardEvent} {ip : IpAddr}

variable {request : GuardRequest} {u : Instant} {r : Except DropReason Unit × IpProtectionState F}

/-- The answer is that of the entry. -/
theorem answer_of_asks (henabled : settings.enabled = true)
    (hasks : e.op.asks = some (ip, request)) :
    g.answer asSecsF64 settings e =
      ((g.entryAt settings e.now ip).serve asSecsF64 settings e.now request).1 := by
  obtain ⟨now, op⟩ := e
  cases op with
  | tcpOpened asked =>
    cases hasks
    dsimp only [GuardRun.answer, tcpConnectionOpened]
    rw [if_pos henabled]
    change Except.map _ (Except.map _ ((g.entryAt settings now ip).serve _ _ _ .tcp).1) = _
    cases ((g.entryAt settings now ip).serve asSecsF64 settings now .tcp).1 <;> rfl
  | udpDatagram asked bytes =>
    cases hasks
    dsimp only [GuardRun.answer, udpDatagramAllowed]
    rw [if_pos henabled]
    rfl
  | dropped position => cases hasks

/-- A request changes its entry and prunes the others. -/
theorem states_of_asks (henabled : settings.enabled = true) {asked : IpAddr}
    (hasks : e.op.asks = some (asked, request)) (hstep : g.step asSecsF64 settings e = some g') :
    g'.states = Function.update (pruneIdleStates e.now g.states) asked
      (some ((g.entryAt settings e.now asked).serve asSecsF64 settings e.now request).2) := by
  obtain ⟨now, op⟩ := e
  cases op with
  | tcpOpened | udpDatagram =>
    cases hasks
    cases hstep
    simp only [tcpConnectionOpened, udpDatagramAllowed, if_pos henabled]
    rfl
  | dropped => cases hasks

/-- The time of the last operation. -/
theorem clock_of_step (hstep : g.step asSecsF64 settings e = some g') : g'.clock = e.now := by
  obtain ⟨now, op⟩ := e
  cases op with
  | tcpOpened | udpDatagram =>
    cases hstep
    rfl
  | dropped position =>
    dsimp only [GuardRun.step] at hstep
    split at hstep <;> cases hstep
    rfl

/-- Giving back a permit closes a connection of its entry or changes nothing. -/
theorem states_of_dropped (hasks : e.op.asks = none)
    (hstep : g.step asSecsF64 settings e = some g') (ip : IpAddr) :
    g'.states ip = g.states ip ∨
      ∃ st, g.states ip = some st ∧ g'.states ip = some (st.closed e.now) := by
  obtain ⟨now, op⟩ := e
  cases op with
  | tcpOpened | udpDatagram => cases hasks
  | dropped position =>
    dsimp only [GuardRun.step] at hstep
    split at hstep <;> cases hstep
    next permit _ =>
    dsimp only [dropPermit, tcpConnectionClosed]
    split
    · exact Or.inl rfl
    · cases hst : g.states permit.ip with
      | none => exact Or.inl rfl
      | some st =>
        by_cases hip : ip = permit.ip
        · subst hip
          exact Or.inr ⟨st, hst, Function.update_self ..⟩
        · exact Or.inl (Function.update_of_ne hip ..)

/-- A guard that is off leaves its table. -/
theorem states_of_disabled (hdisabled : settings.enabled = false)
    {asked : IpAddr × GuardRequest} (hasks : e.op.asks = some asked)
    (hstep : g.step asSecsF64 settings e = some g') : g'.states = g.states := by
  obtain ⟨now, op⟩ := e
  cases op with
  | tcpOpened | udpDatagram =>
    cases hstep
    simp [tcpConnectionOpened, udpDatagramAllowed, hdisabled]
  | dropped => cases hasks

/-- **What one operation can do to the entry of an address**: serve a request
there, or leave it, prune it, or close one of its connections. -/
theorem step_entry (hstep : g.step asSecsF64 settings e = some g') (ip : IpAddr) :
    (settings.enabled = true ∧ ∃ request, e.op.asks = some (ip, request) ∧
        g'.states ip = some
          ((g.entryAt settings e.now ip).serve asSecsF64 settings e.now request).2) ∨
      (g'.states ip = g.states ip ∨ g'.states ip = pruneIdleStates e.now g.states ip ∨
        ∃ st, g.states ip = some st ∧ g'.states ip = some (st.closed e.now)) := by
  cases hasks : e.op.asks with
  | none =>
    rcases states_of_dropped hasks hstep ip with hsame | hclosed
    · exact Or.inr (Or.inl hsame)
    · exact Or.inr (Or.inr (Or.inr hclosed))
  | some asked =>
    cases henabled : settings.enabled with
    | false => exact Or.inr (Or.inl (congrFun (states_of_disabled henabled hasks hstep) ip))
    | true =>
      obtain ⟨asked, request⟩ := asked
      have hstates := states_of_asks henabled hasks hstep
      by_cases hip : ip = asked
      · subst hip
        refine Or.inl ⟨rfl, request, rfl, ?_⟩
        rw [hstates, Function.update_self]
      · refine Or.inr (Or.inr (Or.inl ?_))
        rw [hstates, Function.update_of_ne hip]

/-- A fact of every entry of the table, at the time of the last operation. -/
def GuardRun.Entries (P : Instant → IpProtectionState F → Prop) (g : GuardRun F) : Prop :=
  ∀ ip st, g.states ip = some st → P g.clock st

/-- **The rule for facts about entries.**  A fact of new entries that time, the
requests and giving back a permit keep holds of every entry in every state of a
run. -/
theorem entry_invariant {P : Instant → IpProtectionState F → Prop}
    (hnew : ∀ now, settings.enabled = true → P now (new now settings))
    (hlater : ∀ now later st, P now st → now ≤ later → P later st)
    (hserve : ∀ now st request, P now st →
      P now (st.serve asSecsF64 settings now request).2)
    (hclosed : ∀ now st, P now st → P now (st.closed now))
    (hreach : Reaches (GuardRun.step asSecsF64 settings) InOrder GuardRun.start g) :
    g.Entries P := by
  refine hreach.invariant ?_ ?_
  · intro ip st hst
    cases hst
  · intro g e g' hg hok hstep ip st' hst'
    have hold : ∀ st, g.states ip = some st → P e.now st :=
      fun st hst => hlater _ _ st (hg ip st hst) hok
    rw [clock_of_step hstep]
    rcases step_entry hstep ip with
      ⟨henabled, request, _, hserved⟩ | hsame | hpruned | ⟨st, hst, hgone⟩
    · rw [hserved] at hst'
      cases hst'
      apply hserve
      rcases entryAt_cases settings g e.now ip with hentry | hentry
      · exact hold _ hentry
      · rw [hentry]
        exact hnew e.now henabled
    · exact hold st' (hsame ▸ hst')
    · exact hold st' (pruneIdleStates_eq_some (hpruned ▸ hst'))
    · rw [hgone] at hst'
      cases hst'
      exact hclosed _ _ (hold st hst)

/-! ### The guard and what it has answered -/

/-- A guard in use with its answers so far, the last one first. -/
structure GuardTrace (F : Type) where
  run : GuardRun F
  log : List (GuardEvent × Except DropReason Unit)

def GuardTrace.start : GuardTrace F where
  run := GuardRun.start
  log := []

def GuardTrace.step (asSecsF64 : Duration → F) (settings : DdosGuardSettings F)
    (t : GuardTrace F) (e : GuardEvent) : Option (GuardTrace F) :=
  (t.run.step asSecsF64 settings e).map (fun g =>
    { run := g, log := (e, t.run.answer asSecsF64 settings e) :: t.log })

def GuardTrace.InOrder (t : GuardTrace F) (e : GuardEvent) : Prop := FerrumProxy.InOrder t.run e

variable {t : GuardTrace F}

theorem GuardTrace.reaches_run
    (hreach : Reaches (GuardTrace.step asSecsF64 settings) GuardTrace.InOrder
      GuardTrace.start t) :
    Reaches (GuardRun.step asSecsF64 settings) FerrumProxy.InOrder GuardRun.start t.run := by
  induction hreach with
  | start => exact Reaches.start
  | next _ hok hstep ih =>
    obtain ⟨g, hg, rfl⟩ := Option.map_eq_some_iff.mp hstep
    exact ih.next hok hg

/-- The events happen at non-decreasing times, none before the given one. -/
def inOrderFrom : Instant → List GuardEvent → Bool
  | _, [] => true
  | clock, e :: rest => decide (clock ≤ e.now) && inOrderFrom e.now rest

/-- Events in order are a guarded run. -/
theorem guarded_of_inOrder {events : List GuardEvent} (h : inOrderFrom t.run.clock events = true) :
    Guarded (GuardTrace.step asSecsF64 settings) GuardTrace.InOrder t events := by
  induction events generalizing t with
  | nil => trivial
  | cons e rest ih =>
    obtain ⟨hfirst, hrest⟩ := Bool.and_eq_true_iff.mp h
    have hle : t.run.clock ≤ e.now := of_decide_eq_true hfirst
    refine ⟨hle, ?_⟩
    cases hstep : t.step asSecsF64 settings e with
    | none => trivial
    | some t' =>
      obtain ⟨g, hg, rfl⟩ := Option.map_eq_some_iff.mp hstep
      apply ih
      rw [clock_of_step hg]
      exact hrest

/-! ### Blocks last -/

/-- No operation before the end of a block lifts it. -/
theorem blockedUntil_step (hg : g.BlockedUntil ip u) (hok : InOrder g e)
    (hstep : g.step asSecsF64 settings e = some g') : g'.BlockedUntil ip u := by
  intro hbefore
  rw [clock_of_step hstep] at hbefore
  obtain ⟨st, hst, hu, hblocked, hentry⟩ := hg.entry hok hbefore
  rcases step_entry hstep ip with
    ⟨_, request, _, hserved⟩ | hsame | hkept | ⟨old, hold, hclosed⟩
  · refine ⟨_, hserved, ?_⟩
    rw [hentry, serve_blocked asSecsF64 settings request hblocked]
    exact hu
  · exact ⟨st, hsame.trans hst, hu⟩
  · exact ⟨st, hkept.trans (pruneIdleStates_of_blocked hst hblocked), hu⟩
  · rw [hst] at hold
    cases hold
    exact ⟨_, hclosed, hu⟩

/-- Before the end of a block every request is refused. -/
theorem answer_of_blockedUntil (henabled : settings.enabled = true) (hg : g.BlockedUntil ip u)
    (hok : InOrder g e) (hbefore : e.now < u) (hasks : e.op.asks = some (ip, request)) :
    g.answer asSecsF64 settings e = .error .temporarilyBlocked := by
  obtain ⟨st, _, _, hblocked, hentry⟩ := hg.entry hok hbefore
  rw [answer_of_asks henabled hasks, hentry, serve_blocked asSecsF64 settings request hblocked]

/-! ### Blocks are bounded -/

/-- Every request keeps what is counted. -/
theorem counted_served {now : Instant} {st : IpProtectionState F} (h : st.Counted now)
    (hserved : st.Served asSecsF64 now request r) : r.2.Counted now := by
  cases hserved with
  | blocked hblocked => exact ⟨h.atMost, h.past, h.uncounted, h.high, h.lasts⟩
  | refused hfree tcp packets bytes htcp hpackets hbytes reason =>
    exact counted_refuse (counted_moved h hfree tcp packets bytes) rfl reason
  | accepted hfree tcp packets bytes htcp hpackets hbytes =>
    have hmoved := counted_moved h hfree tcp packets bytes
    exact ⟨hmoved.atMost, hmoved.past, hmoved.uncounted, hmoved.high, hmoved.lasts⟩

/-- A new block comes with a violation. -/
theorem served_sets_block {now : Instant} {st : IpProtectionState F}
    (hserved : st.Served asSecsF64 now request r) (hu : r.2.temporaryBlockUntil = some u) :
    st.temporaryBlockUntil = some u ∨ r.2.lastViolation = some now := by
  cases hserved with
  | blocked hblocked => exact Or.inl hu
  | refused hfree tcp packets bytes htcp hpackets hbytes reason =>
    obtain ⟨_, _, _, heq⟩ := refuse_eq (st.moved tcp packets bytes) now reason
    rw [heq]
    exact Or.inr rfl
  | accepted hfree tcp packets bytes htcp hpackets hbytes => cases hu

variable (hreach : Reaches (GuardRun.step asSecsF64 settings) InOrder GuardRun.start g)

include hreach

theorem counted_entries : g.Entries IpProtectionState.Counted :=
  entry_invariant (fun now _ => counted_new now settings)
    (fun _ _ _ h hle => counted_later h hle)
    (fun now st request h => counted_served h (serve_served asSecsF64 settings st now request))
    (fun _ _ h => ⟨h.atMost, h.past, h.uncounted, h.high, h.lasts⟩)
    hreach

/-- A guard that is off has no entries. -/
theorem enabled_of_entry {st : IpProtectionState F} (hst : g.states ip = some st) :
    settings.enabled = true := by
  have hentries : g.Entries (fun _ _ => settings.enabled = true) :=
    entry_invariant (fun _ h => h) (fun _ _ _ h _ => h) (fun _ _ _ h => h) (fun _ _ h => h) hreach
  exact hentries ip st hst

/-- A block that an operation sets lasts 20 or 40 seconds. -/
theorem block_set_by_step (hok : InOrder g e) (hstep : g.step asSecsF64 settings e = some g')
    {st' : IpProtectionState F} (hst' : g'.states ip = some st')
    (hu : st'.temporaryBlockUntil = some u) :
    (∃ st, g.states ip = some st ∧ st.temporaryBlockUntil = some u) ∨
      u = e.now + 20 ∨ u = e.now + 40 := by
  rcases step_entry hstep ip with
    ⟨_, request, _, hserved⟩ | hsame | hpruned | ⟨st, hst, hclosed⟩
  · rw [hserved] at hst'
    cases hst'
    have hentry := serve_served asSecsF64 settings (g.entryAt settings e.now ip) e.now request
    rcases served_sets_block hentry hu with hold | hset
    · rcases entryAt_cases settings g e.now ip with hthere | hfresh
      · exact Or.inl ⟨_, hthere, hold⟩
      · rw [hfresh] at hold
        cases hold
    · obtain ⟨last, hlast, hlong⟩ :=
        (counted_entries (hreach.next hok hstep) ip _ hserved).lasts u hu
      rw [hset] at hlast
      cases hlast
      exact Or.inr (hlong.imp And.right And.right)
  · exact Or.inl ⟨st', hsame ▸ hst', hu⟩
  · exact Or.inl ⟨st', pruneIdleStates_eq_some (hpruned ▸ hst'), hu⟩
  · rw [hclosed] at hst'
    cases hst'
    exact Or.inl ⟨st, hst, hu⟩

/-- **Temporary blocks hold and are bounded.**  In every state that a run
reaches, no counter of violations is above 25; a block that the next operation
sets lasts exactly 20 or 40 seconds; and while an address is blocked until `u`,
every connection and datagram of that address at a time before `u`, after any
other operations, is refused as temporarily blocked. -/
theorem temporary_blocks_hold :
    (∀ ip st, g.states ip = some st → st.violations ≤ 25) ∧
      (∀ e g' ip st' u, InOrder g e → g.step asSecsF64 settings e = some g' →
        g'.states ip = some st' → st'.temporaryBlockUntil = some u →
        (∃ st, g.states ip = some st ∧ st.temporaryBlockUntil = some u) ∨
          u = e.now + 20 ∨ u = e.now + 40) ∧
      (∀ ip st u, g.states ip = some st → st.temporaryBlockUntil = some u →
        ∀ g', Reaches (GuardRun.step asSecsF64 settings) InOrder g g' →
          ∀ e request, InOrder g' e → e.now < u → e.op.asks = some (ip, request) →
            g'.answer asSecsF64 settings e = .error .temporarilyBlocked) := by
  refine ⟨fun ip st hst => (counted_entries hreach ip st hst).atMost, ?_, ?_⟩
  · intro e g' ip st' u hok hstep hst' hu
    exact block_set_by_step hreach hok hstep hst' hu
  · intro ip st u hst hu g' hlater e request hok hbefore hasks
    have henabled := enabled_of_entry hreach hst
    have hblocked : g'.BlockedUntil ip u :=
      hlater.invariant (fun _ => ⟨st, hst, hu⟩)
        (fun _ _ _ hg hok hstep => blockedUntil_step hg hok hstep)
    exact answer_of_blockedUntil henabled hblocked hok hbefore hasks

end Answers

/-- The default settings, without TCP connections. -/
def noTcpSettings : DdosGuardSettings ℚ :=
  { DdosGuardSettings.default with tcpMaxActivePerIp := 0 }

/-- Twenty-four refused connections block an address for twenty seconds, also for
its datagrams. -/
theorem temporary_blocks_hold_datagram :
    let ip : IpAddr := .v4 ⟨[192, 0, 2, 10], rfl⟩
    ∃ g : GuardRun ℚ,
      Reaches (GuardRun.step id noTcpSettings) InOrder GuardRun.start g ∧
      (∃ st, g.states ip = some st ∧ st.temporaryBlockUntil = some 20) ∧
      g.answer id noTcpSettings ⟨19, .udpDatagram ip 100⟩ = .error .temporarilyBlocked := by
  intro ip
  have hrun : (run (GuardTrace.step id noTcpSettings) GuardTrace.start
      (List.replicate 24 ⟨0, .tcpOpened ip⟩)).map (fun t =>
        (t.run.clock, (t.run.states ip).bind temporaryBlockUntil)) =
      some (0, some 20) := by
    decide +kernel
  obtain ⟨t, ht, hview⟩ := Option.map_eq_some_iff.mp hrun
  have hclock : t.run.clock = 0 := congrArg Prod.fst hview
  obtain ⟨st, hst, hu⟩ := Option.bind_eq_some_iff.mp (congrArg Prod.snd hview)
  have hreach := GuardTrace.reaches_run
    (reaches_of_guarded (guarded_of_inOrder (by decide +kernel)) ht)
  refine ⟨t.run, hreach, ⟨st, hst, hu⟩, ?_⟩
  exact (temporary_blocks_hold hreach).2.2 ip st 20 hst hu t.run Reaches.start _ (.udp 100)
    (hclock.trans_le (by norm_num)) (by norm_num) rfl

end FerrumProxy
