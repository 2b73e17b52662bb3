import FerrumProxy.RelayQueue

/-!
# Allocated ports

The free port of a `CONNECT` is searched from a random place of the range on, in 16-bit arithmetic;
the token is checked under the same lock.  The range must not have all 65536 ports: their number
would then be 0.
-/

namespace FerrumProxy

open Str Runs

/-! ### The range -/

section Range

variable {range : SharedServicePortRange} {p : Port}

section

variable (hle : range.start ≤ range.finish)
  (hsize : range.finish.toNat - range.start.toNat + 1 < 65536)

include hle hsize

theorem portRangeSize_eq : portRangeSize range = range.finish.toNat - range.start.toNat + 1 := by
  have hdiff : (range.finish - range.start).toNat = range.finish.toNat - range.start.toNat :=
    UInt16.toNat_sub_of_le _ _ hle
  rw [portRangeSize, UInt16.toNat_add, hdiff, UInt16.toNat_one, Nat.mod_eq_of_lt hsize]

theorem wantsPort_none_iff : WantsPort range none p ↔ range.start ≤ p ∧ p ≤ range.finish := by
  have hfinish := range.finish.toNat_lt
  simp only [WantsPort, portRangeSize_eq hle hsize, UInt16.le_iff_toNat_le] at hle ⊢
  constructor
  · intro h
    obtain ⟨k, hk, rfl⟩ := h
    have hp : (range.start + UInt16.ofNat k).toNat = range.start.toNat + k := by
      rw [UInt16.toNat_add, UInt16.toNat_ofNat', Nat.mod_eq_of_lt (by omega : k < 2 ^ 16)]
      exact Nat.mod_eq_of_lt (by omega)
    rw [hp]
    omega
  · intro h
    refine ⟨p.toNat - range.start.toNat, by omega, ?_⟩
    apply UInt16.toNat_inj.mp
    have hp := p.toNat_lt
    rw [UInt16.toNat_add, UInt16.toNat_ofNat',
      Nat.mod_eq_of_lt (by omega : p.toNat - range.start.toNat < 2 ^ 16),
      Nat.mod_eq_of_lt (by omega)]
    omega

theorem WantsPort.mem_range {fixedPort : Option Port} (h : WantsPort range fixedPort p) :
    range.start ≤ p ∧ p ≤ range.finish := by
  cases fixedPort with
  | none => exact (wantsPort_none_iff hle hsize).mp h
  | some candidate =>
    obtain ⟨rfl, hrange⟩ := h
    exact hrange

end

end Range

/-! ### The allocations -/

/-- Each port is in the range and under its own number, and no token has two. -/
structure PortAllocations.Proper (range : SharedServicePortRange)
    (portAllocations : PortAllocations) : Prop where
  mem_range : ∀ p allocation, portAllocations.lookup p = some allocation →
    range.start ≤ p ∧ p ≤ range.finish
  port_eq : ∀ p allocation, portAllocations.lookup p = some allocation → allocation.port = p
  token_unique : ∀ p q first second token, portAllocations.lookup p = some first →
    portAllocations.lookup q = some second → first.token = some token →
    second.token = some token → token ≠ [] → p = q

namespace PortAllocations.Proper

variable {range : SharedServicePortRange} {portAllocations : PortAllocations} {p : Port}

theorem empty : Proper range ∅ where
  mem_range _ _ h := by cases h
  port_eq _ _ h := by cases h
  token_unique _ _ _ _ _ h := by cases h

theorem insert {token : Option Text} {clientAddr : SocketAddr}
    (h : Proper range portAllocations) (hrange : range.start ≤ p ∧ p ≤ range.finish)
    (hheld : tokenHeld portAllocations token = false) :
    Proper range (portAllocations.insert p ⟨p, token, clientAddr⟩) := by
  have hcases : ∀ {q found}, (portAllocations.insert p ⟨p, token, clientAddr⟩).lookup q =
      some found → (q = p ∧ found = ⟨p, token, clientAddr⟩) ∨
        portAllocations.lookup q = some found := by
    intro q found hfound
    by_cases hq : q = p
    · subst hq
      rw [AList.lookup_insert] at hfound
      exact .inl ⟨rfl, (Option.some.inj hfound).symm⟩
    · rw [AList.lookup_insert_ne hq] at hfound
      exact .inr hfound
  -- The token of the new allocation was checked against every other one.
  have hfresh : ∀ {q found value}, portAllocations.lookup q = some found → token = some value →
      found.token = some value → value ≠ [] → False := by
    intro q found value hlookup htoken hfound hne
    have hused : tokenHeld portAllocations token = true :=
      tokenHeld_iff.mpr ⟨value, q, found, htoken, hne, hlookup, hfound⟩
    rw [hheld] at hused
    cases hused
  refine ⟨fun q found hfound => ?_, fun q found hfound => ?_, fun q r first second value hfirst
    hsecond htoken htoken' hne => ?_⟩
  · rcases hcases hfound with ⟨rfl, -⟩ | hold
    · exact hrange
    · exact h.mem_range q found hold
  · rcases hcases hfound with ⟨rfl, rfl⟩ | hold
    · rfl
    · exact h.port_eq q found hold
  · rcases hcases hfirst with ⟨rfl, rfl⟩ | holdFirst
    · rcases hcases hsecond with ⟨rfl, -⟩ | holdSecond
      · rfl
      · exact (hfresh holdSecond htoken htoken' hne).elim
    · rcases hcases hsecond with ⟨rfl, rfl⟩ | holdSecond
      · exact (hfresh holdFirst htoken' htoken hne).elim
      · exact h.token_unique q r first second value holdFirst holdSecond htoken htoken' hne

theorem erase (h : Proper range portAllocations) (p : Port) :
    Proper range (portAllocations.erase p) := by
  have hsub : ∀ {q found}, (portAllocations.erase p).lookup q = some found →
      portAllocations.lookup q = some found := by
    intro q found hfound
    by_cases hq : q = p
    · rw [hq, AList.lookup_erase] at hfound
      cases hfound
    · rwa [AList.lookup_erase_ne hq] at hfound
  exact ⟨fun q found hfound => h.mem_range q found (hsub hfound),
    fun q found hfound => h.port_eq q found (hsub hfound),
    fun q r first second value hfirst hsecond => h.token_unique q r first second value
      (hsub hfirst) (hsub hsecond)⟩

end PortAllocations.Proper

theorem RelayQueue.Change.proper {config : SharedServiceConfig} {s t : RelayQueue}
    {action : QueueAction} (hle : config.portRange.start ≤ config.portRange.finish)
    (hsize : config.portRange.finish.toNat - config.portRange.start.toNat + 1 < 65536)
    (hchange : RelayQueue.Change config s action t)
    (h : s.portAllocations.Proper config.portRange) :
    t.portAllocations.Proper config.portRange := by
  have hnotify : s.notifyOne.portAllocations = s.portAllocations := by
    unfold RelayQueue.notifyOne
    cases s.waiters <;> rfl
  cases hchange with
  | allocated _ _ hheld hwants _ => exact h.insert (hwants.mem_range hle hsize) hheld
  | released _ => exact h.erase _
  | @left _ handler =>
    cases htoken : handler.token.isSome <;> simpa [RelayQueue.decrementWaitingCounter] using h
  | notified | cleanedUp => exact hnotify ▸ h
  | connected | refused | full | turnedAway | queuedPriority | queued | permitted | parked
  | notAllocated => exact h

/-- **The invariant of the allocations.**  In every state that connects and releases
reach, the allocated ports lie in the range, each is stored under its own number, and
no non-empty token holds two.  `try_allocate_port` without a fixed port answers `Full`
only if every port of the range is allocated, and a success adds one allocation and
changes no other. -/
theorem port_allocations_invariant (config : SharedServiceConfig)
    (hle : config.portRange.start ≤ config.portRange.finish)
    (hsize : config.portRange.finish.toNat - config.portRange.start.toNat + 1 < 65536) :
    (∀ s, Reaches (RelayQueue.step config) Always {} s →
      (∀ p allocation, s.portAllocations.lookup p = some allocation →
        config.portRange.start ≤ p ∧ p ≤ config.portRange.finish ∧ allocation.port = p) ∧
      ∀ p q first second token, s.portAllocations.lookup p = some first →
        s.portAllocations.lookup q = some second → first.token = some token →
        second.token = some token → token ≠ [] → p = q) ∧
    (∀ mixed portAllocations token clientAddr after,
      tryAllocatePort config.portRange mixed portAllocations token clientAddr none =
          (.full, after) →
        ∀ p, config.portRange.start ≤ p → p ≤ config.portRange.finish →
          (portAllocations.lookup p).isSome = true) ∧
    ∀ mixed portAllocations token clientAddr fixedPort p after,
      tryAllocatePort config.portRange mixed portAllocations token clientAddr fixedPort =
          (.allocated p, after) →
        portAllocations.lookup p = none ∧ after.lookup p = some ⟨p, token, clientAddr⟩ ∧
          ∀ q, q ≠ p → after.lookup q = portAllocations.lookup q := by
  refine ⟨fun s hreach => ?_, fun mixed portAllocations token clientAddr after hfull p hstart
    hfinish => ?_, fun mixed portAllocations token clientAddr fixedPort p after hallocated => ?_⟩
  · have hproper : s.portAllocations.Proper config.portRange :=
      hreach.invariant PortAllocations.Proper.empty (fun _ _ _ h _ hstep =>
        (RelayQueue.change_of_step hstep).proper hle hsize h)
    refine ⟨fun p allocation hlookup => ?_, hproper.token_unique⟩
    obtain ⟨hstart, hfinish⟩ := hproper.mem_range p allocation hlookup
    exact ⟨hstart, hfinish, hproper.port_eq p allocation hlookup⟩
  · rcases tryAllocatePort_cases config.portRange mixed portAllocations token clientAddr none with
      ⟨_, hresult, _⟩ | ⟨hresult, _⟩ | ⟨_, htaken⟩
    · rw [hfull] at hresult
      cases hresult
    · rw [hfull] at hresult
      cases hresult
    · exact Option.isSome_iff_ne_none.mpr
        (htaken p ((wantsPort_none_iff hle hsize).mpr ⟨hstart, hfinish⟩))
  · rcases tryAllocatePort_cases config.portRange mixed portAllocations token clientAddr fixedPort
      with ⟨_, hresult, hfree, _⟩ | ⟨hresult, _⟩ | ⟨hresult, _⟩
    · rw [hallocated] at hresult
      cases hresult
      exact ⟨hfree, AList.lookup_insert _, fun q hq => AList.lookup_insert_ne hq⟩
    · rw [hallocated] at hresult
      cases hresult
    · rw [hallocated] at hresult
      cases hresult

/-- Two clients have taken both ports of a relay. -/
theorem port_allocations_invariant_two_ports :
    (run (RelayQueue.step twoPorts) {} portsTaken).map (fun s => s.portAllocations.keys) =
        some [40001, 40000] ∧
      ∀ s, run (RelayQueue.step twoPorts) {} portsTaken = some s →
        ∀ p allocation, s.portAllocations.lookup p = some allocation →
          40000 ≤ p ∧ p ≤ 40001 ∧ allocation.port = p := by
  refine ⟨by decide +kernel, fun s hrun => ?_⟩
  exact ((port_allocations_invariant twoPorts (by decide) (by decide)).1 s (reaches_of_run hrun)).1

end FerrumProxy
