import FerrumProxy.ClientIdentity
import FerrumProxy.DdosBlocks

/-!
# Whom the DDoS guard charges for a datagram

`handle_datagram` asks the guard in the name of the original client, which a RakNet listener takes
from the PROXY header of the datagram, whoever sent it.  The TCP and HTTP/3 listeners ask in the
name of the peer itself.
-/

namespace FerrumProxy

open Wire

/-- A datagram that a UDP listener has received. -/
structure PeerDatagram where
  now : Instant
  peer : SocketAddr
  packet : Bytes
  deriving DecidableEq

namespace PeerDatagram

/-- The address that the guard is asked about. -/
def chargedIp (rule : ListenerRule) (d : PeerDatagram) : IpAddr :=
  (receiveDatagram rule d.peer d.packet).originalClient.ip

/-- The datagram starts with a chain of PROXY headers. -/
def carriesHeader (d : PeerDatagram) : Bool :=
  decide (12 ≤ d.packet.length) && d.packet.take 12 == signature &&
    !(incomingChain d.packet).headers.isEmpty

theorem chargedIp_of_plain (rule : ListenerRule) {d : PeerDatagram}
    (h : d.carriesHeader = false) : d.chargedIp rule = d.peer.ip := by
  unfold chargedIp receiveDatagram
  split
  · rename_i hsig
    have hempty : (incomingChain d.packet).headers = [] := by
      unfold carriesHeader at h
      obtain ⟨hlong, htake⟩ := Bool.and_eq_true_iff.mp hsig
      obtain ⟨_, hlong⟩ := Bool.and_eq_true_iff.mp hlong
      rw [hlong, htake, Bool.true_and, Bool.true_and, Bool.not_eq_false'] at h
      exact List.isEmpty_iff.mp h
    dsimp only
    rw [hempty]
    rfl
  · rfl

end PeerDatagram

section Verdicts

variable {F : Type} [Add F] [Sub F] [Mul F] [Min F] [NatCast F]
  [LT F] [DecidableLT F] [LE F] [DecidableLE F] (asSecsF64 : Duration → F)
  (settings : DdosGuardSettings F) (rule : ListenerRule)

/-- `handle_datagram` up to the guard's verdict: none for an empty payload. -/
def handleDatagramVerdict (d : PeerDatagram) (states : ProtectionStates F) :
    Option (Except DropReason Unit) × ProtectionStates F :=
  let incoming := receiveDatagram rule d.peer d.packet
  if incoming.payload.isEmpty then (none, states)
  else
    let r := udpDatagramAllowed asSecsF64 settings d.now incoming.originalClient.ip
      incoming.payload.length states
    (some r.1, r.2)

/-- The verdicts on a run of datagrams. -/
def verdicts : ProtectionStates F → List PeerDatagram →
    List (PeerDatagram × Option (Except DropReason Unit))
  | _, [] => []
  | states, d :: rest =>
    let r := handleDatagramVerdict asSecsF64 settings rule d states
    (d, r.1) :: verdicts r.2 rest

end Verdicts

/-! ### Pruning again -/

section Pruning

variable {F : Type} {now after : Instant} {st : IpProtectionState F}

theorem retained_earlier (hle : now ≤ after)
    (h : IpProtectionState.retained after st = true) :
    IpProtectionState.retained now st = true := by
  unfold IpProtectionState.retained at h ⊢
  rw [Bool.or_eq_true, Bool.or_eq_true] at h ⊢
  rcases h with (hactive | hblocked) | hseen
  · exact Or.inl (Or.inl hactive)
  · obtain ⟨u, hu, hbefore⟩ := blockedAt_iff.mp hblocked
    exact Or.inl (Or.inr (blockedAt_iff.mpr ⟨u, hu, hle.trans_lt hbefore⟩))
  · have hshort := (durationSince_mono st.lastSeen hle).trans_lt (of_decide_eq_true hseen)
    exact Or.inr (decide_eq_true hshort)

theorem prune_prune (states : ProtectionStates F) (ip : IpAddr) (hle : now ≤ after) :
    pruneIdleStates after (pruneIdleStates now states) ip = pruneIdleStates after states ip := by
  unfold pruneIdleStates
  rw [Option.filter_filter]
  congr 1
  funext st
  cases hafter : IpProtectionState.retained after st with
  | false => rw [Bool.and_false]
  | true => rw [retained_earlier hle hafter, Bool.true_and]

/-- From the given time on, the tables hold the same entry of an address, or one
that is about to be pruned. -/
def AgreeFrom (ip : IpAddr) (clock : Instant) (states other : ProtectionStates F) : Prop :=
  ∀ now, clock ≤ now → pruneIdleStates now states ip = pruneIdleStates now other ip

variable {ip : IpAddr} {clock : Instant} {states other : ProtectionStates F}

theorem AgreeFrom.later (h : AgreeFrom ip clock states other) (hle : clock ≤ now) :
    AgreeFrom ip now states other :=
  fun after hafter => h after (hle.trans hafter)

/-- A request of somebody else leaves the entry to be pruned. -/
theorem agree_onEntry_other (settings : DdosGuardSettings F) {asked : IpAddr}
    (op : IpProtectionState F → Except DropReason Unit × IpProtectionState F)
    (h : AgreeFrom ip now states other) (hne : ip ≠ asked) :
    AgreeFrom ip now (onEntry settings now asked op states).2 other := by
  intro after hafter
  have hentry : (onEntry settings now asked op states).2 ip = pruneIdleStates now states ip :=
    Function.update_of_ne hne ..
  calc pruneIdleStates after (onEntry settings now asked op states).2 ip
      = pruneIdleStates after (pruneIdleStates now states) ip := congrArg (Option.filter _) hentry
    _ = pruneIdleStates after states ip := prune_prune states ip hafter
    _ = pruneIdleStates after other ip := h after hafter

/-- A request of the address itself is answered by its entry. -/
theorem agree_onEntry_same (settings : DdosGuardSettings F)
    (op : IpProtectionState F → Except DropReason Unit × IpProtectionState F)
    (h : AgreeFrom ip now states other) :
    (onEntry settings now ip op states).1 = (onEntry settings now ip op other).1 ∧
      AgreeFrom ip now (onEntry settings now ip op states).2
        (onEntry settings now ip op other).2 := by
  have hentry := h now (le_refl now)
  unfold onEntry
  dsimp only
  rw [hentry]
  refine ⟨rfl, ?_⟩
  intro after hafter
  unfold pruneIdleStates
  rw [Function.update_self, Function.update_self]

end Pruning

/-! ### One datagram -/

open List

section Verdicts

variable {F : Type} [Add F] [Sub F] [Mul F] [Min F] [NatCast F]
  [LT F] [DecidableLT F] [LE F] [DecidableLE F] {asSecsF64 : Duration → F}
  {settings : DdosGuardSettings F} {rule : ListenerRule}
  {ip : IpAddr} {clock : Instant} {states other : ProtectionStates F} {d : PeerDatagram}

theorem verdict_of_other (h : AgreeFrom ip clock states other) (hle : clock ≤ d.now)
    (hcharged : d.chargedIp rule ≠ ip) :
    AgreeFrom ip d.now (handleDatagramVerdict asSecsF64 settings rule d states).2 other := by
  have hnow := h.later hle
  unfold handleDatagramVerdict udpDatagramAllowed
  dsimp only
  split
  · exact hnow
  · split
    · exact agree_onEntry_other settings
        (fun st => st.allowDatagram asSecsF64 settings
          (receiveDatagram rule d.peer d.packet).payload.length d.now) hnow hcharged.symm
    · exact hnow

theorem verdict_of_same (h : AgreeFrom ip clock states other) (hle : clock ≤ d.now)
    (hcharged : d.chargedIp rule = ip) :
    (handleDatagramVerdict asSecsF64 settings rule d states).1 =
        (handleDatagramVerdict asSecsF64 settings rule d other).1 ∧
      AgreeFrom ip d.now (handleDatagramVerdict asSecsF64 settings rule d states).2
        (handleDatagramVerdict asSecsF64 settings rule d other).2 := by
  have hnow := h.later hle
  subst hcharged
  unfold handleDatagramVerdict udpDatagramAllowed
  dsimp only
  split
  · exact ⟨rfl, hnow⟩
  · split
    · obtain ⟨hanswer, hafter⟩ := agree_onEntry_same settings
        (fun st => st.allowDatagram asSecsF64 settings
          (receiveDatagram rule d.peer d.packet).payload.length d.now) hnow
      exact ⟨congrArg some hanswer, hafter⟩
    · exact ⟨rfl, hnow⟩

/-! ### Runs of datagrams -/

/-- The datagrams arrive at non-decreasing times. -/
def Arrives (run : List PeerDatagram) : Prop := run.Pairwise (fun a b => a.now ≤ b.now)

theorem verdicts_cons (states : ProtectionStates F) (d : PeerDatagram)
    (rest : List PeerDatagram) :
    verdicts asSecsF64 settings rule states (d :: rest) =
      (d, (handleDatagramVerdict asSecsF64 settings rule d states).1) ::
        verdicts asSecsF64 settings rule
          (handleDatagramVerdict asSecsF64 settings rule d states).2 rest := rfl

/-- **The verdicts on the datagrams that are charged to an address depend on
these datagrams only.** -/
theorem verdicts_filter {run : List PeerDatagram} (harrives : Arrives run)
    (hclock : ∀ d ∈ run, clock ≤ d.now) (h : AgreeFrom ip clock states other) :
    (verdicts asSecsF64 settings rule states run).filter
        (fun verdict => decide (verdict.1.chargedIp rule = ip)) =
      verdicts asSecsF64 settings rule other
        (run.filter (fun d => decide (d.chargedIp rule = ip))) := by
  induction run generalizing clock states other with
  | nil => rfl
  | cons d rest ih =>
    have hle := hclock d mem_cons_self
    obtain ⟨hfirst, hrest⟩ := pairwise_cons.mp harrives
    rw [verdicts_cons]
    by_cases hcharged : d.chargedIp rule = ip
    · obtain ⟨hverdict, hafter⟩ := verdict_of_same h hle hcharged
      rw [filter_cons_of_pos (by exact decide_eq_true hcharged),
        filter_cons_of_pos (by exact decide_eq_true hcharged), verdicts_cons,
        hverdict, ih hrest hfirst hafter]
    · rw [filter_cons_of_neg (by simpa using hcharged),
        filter_cons_of_neg (by simpa using hcharged),
        ih hrest hfirst (verdict_of_other h hle hcharged)]

/-- The guard starts without entries. -/
def noStates : ProtectionStates F := fun _ => none

theorem verdicts_of_charged (ip : IpAddr) {run : List PeerDatagram} (harrives : Arrives run) :
    (verdicts asSecsF64 settings rule noStates run).filter
        (fun verdict => decide (verdict.1.chargedIp rule = ip)) =
      verdicts asSecsF64 settings rule noStates
        (run.filter (fun d => decide (d.chargedIp rule = ip))) := by
  cases run with
  | nil => rfl
  | cons d rest =>
    have hclock : ∀ d' ∈ d :: rest, d.now ≤ d'.now := by
      intro d' hd'
      rcases mem_cons.mp hd' with rfl | hlater
      · exact le_refl _
      · exact (pairwise_cons.mp harrives).1 d' hlater
    exact verdicts_filter harrives hclock (fun _ _ => rfl)

/-- What is received from one peer without headers, with the verdicts. -/
def plainVerdicts (peer : IpAddr) (judged : List (PeerDatagram × Option (Except DropReason Unit))) :
    List (PeerDatagram × Option (Except DropReason Unit)) :=
  judged.filter (fun verdict => decide (verdict.1.peer.ip = peer) && !verdict.1.carriesHeader)

theorem plainVerdicts_charged (rule : ListenerRule) (peer : IpAddr)
    (judged : List (PeerDatagram × Option (Except DropReason Unit))) :
    plainVerdicts peer judged = plainVerdicts peer
      (judged.filter (fun verdict => decide (verdict.1.chargedIp rule = peer))) := by
  unfold plainVerdicts
  rw [List.filter_filter]
  apply filter_congr
  intro verdict _
  cases hplain : decide (verdict.1.peer.ip = peer) && !verdict.1.carriesHeader with
  | false => rfl
  | true =>
    obtain ⟨hpeer, hheader⟩ := Bool.and_eq_true_iff.mp hplain
    have hcharged := PeerDatagram.chargedIp_of_plain rule (by simpa using hheader)
    rw [hcharged, hpeer]
    rfl

/-- Without the datagrams of `a`, when these name somebody else. -/
theorem charged_without {a b : IpAddr} {run : List PeerDatagram}
    (hnames : ∀ d ∈ run, d.peer.ip = a → d.chargedIp rule ≠ b) :
    run.filter (fun d => decide (d.chargedIp rule = b)) =
      (run.filter (fun d => decide (d.peer.ip ≠ a))).filter
        (fun d => decide (d.chargedIp rule = b)) := by
  rw [List.filter_filter]
  apply filter_congr
  intro d hd
  by_cases hcharged : d.chargedIp rule = b
  · have hpeer : d.peer.ip ≠ a := fun h => hnames d hd h hcharged
    rw [decide_eq_true hcharged, decide_eq_true hpeer]
    rfl
  · rw [decide_eq_false hcharged]
    rfl

/-- **A peer that does not name another one has no influence on it.**  Two runs
that differ only in the datagrams of peer `a`, none of which names `b` in its
last PROXY header, give the same verdicts on the datagrams that `b` sends without
headers. -/
theorem verdicts_isolated {a b : IpAddr} {run₁ run₂ : List PeerDatagram}
    (harrives₁ : Arrives run₁) (harrives₂ : Arrives run₂)
    (hsame : run₁.filter (fun d => decide (d.peer.ip ≠ a)) =
      run₂.filter (fun d => decide (d.peer.ip ≠ a)))
    (hnames : ∀ d ∈ run₁ ++ run₂, d.peer.ip = a → d.chargedIp rule ≠ b) :
    plainVerdicts b (verdicts asSecsF64 settings rule noStates run₁) =
      plainVerdicts b (verdicts asSecsF64 settings rule noStates run₂) := by
  have hcharged : run₁.filter (fun d => decide (d.chargedIp rule = b)) =
      run₂.filter (fun d => decide (d.chargedIp rule = b)) := by
    rw [charged_without (fun d hd => hnames d (mem_append_left _ hd)),
      charged_without (fun d hd => hnames d (mem_append_right _ hd)), hsame]
  rw [plainVerdicts_charged rule, plainVerdicts_charged rule b (verdicts _ _ _ _ run₂),
    verdicts_of_charged b harrives₁, verdicts_of_charged b harrives₂, hcharged]

end Verdicts

/-! ### Forged headers -/

/-- One datagram a second. -/
def oneDatagram : DdosGuardSettings ℚ :=
  { DdosGuardSettings.default with udpPacketsPerSecond := 1, udpPacketBurst := 1 }

/-- A peer that is not a proxy. -/
def forgerAddr : SocketAddr := ⟨.v4 ⟨[198, 51, 100, 7], rfl⟩, 4000⟩

/-- A datagram of the forger whose header names the player. -/
def forgedDatagram : PeerDatagram :=
  ⟨0, forgerAddr, buildProxyV2Header playerAddr relayAddr true ++ [0x01]⟩

def playerDatagram : PeerDatagram := ⟨0, playerAddr, [0x01]⟩

/-- Both peers send a datagram of their own. -/
theorem verdicts_isolated_plain :
    plainVerdicts playerAddr.ip (verdicts id oneDatagram relayRule noStates [playerDatagram]) =
      plainVerdicts playerAddr.ip (verdicts id oneDatagram relayRule noStates
        [⟨0, forgerAddr, [0x01]⟩, playerDatagram]) :=
  verdicts_isolated (pairwise_singleton _ _) (by simp [Arrives, playerDatagram])
    (by decide +kernel :
      filter (fun d : PeerDatagram => decide (d.peer.ip ≠ forgerAddr.ip)) _ = _)
    (by decide +kernel)

/-- Without the forger the player's datagram goes through, after one forged
datagram it is refused. -/
theorem verdicts_forged :
    ¬ ∀ (settings : DdosGuardSettings ℚ) (rule : ListenerRule), rule.usesRaknetUdp = true →
      ∀ (a b : IpAddr) (run₁ run₂ : List PeerDatagram), a ≠ b → Arrives run₁ → Arrives run₂ →
        run₁.filter (fun d => decide (d.peer.ip ≠ a)) =
          run₂.filter (fun d => decide (d.peer.ip ≠ a)) →
        plainVerdicts b (verdicts id settings rule noStates run₁) =
          plainVerdicts b (verdicts id settings rule noStates run₂) := by
  intro hall
  have hsame := hall oneDatagram relayRule rfl forgerAddr.ip playerAddr.ip
    [playerDatagram] [forgedDatagram, playerDatagram] (by decide)
    (pairwise_singleton _ _) (by simp [Arrives, forgedDatagram, playerDatagram])
    (by decide +kernel)
  revert hsame
  decide +kernel

end FerrumProxy
