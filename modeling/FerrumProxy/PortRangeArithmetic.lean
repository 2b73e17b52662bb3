import FerrumProxy.ConfigLoad
import FerrumProxy.RelayAllocations

/-!
# The size of the port range

`try_allocate_port` computes the number of ports of the range and each candidate in 16 bits.
The loader looks only at the listeners, so it accepts every range, also one that ends before it
starts and the one of all 65536 ports.
-/

namespace FerrumProxy

open Str

/-- 16-bit subtraction with an overflow check; `none` is a panic. -/
def checkedSub (a b : UInt16) : Option UInt16 := if b ≤ a then some (a - b) else none

def checkedAdd (a b : UInt16) : Option UInt16 :=
  if a.toNat + b.toNat < 65536 then some (a + b) else none

def portRangeSizeChecked (range : SharedServicePortRange) : Option Nat :=
  ((checkedSub range.finish range.start).bind (checkedAdd · 1)).map UInt16.toNat

def portCandidatesChecked (range : SharedServicePortRange) (mixed : Nat) : Option (List Port) :=
  (portRangeSizeChecked range).bind (fun size =>
    (List.range size).mapM (fun i =>
      checkedAdd range.start (UInt16.ofNat ((randomPortOffset size mixed + i) % size))))

/-- The numbers are computed without overflow, and an empty relay has a port if the range has. -/
def RangeComputed (range : SharedServicePortRange) : Prop :=
  (∀ mixed, portCandidatesChecked range mixed = some (portCandidates range mixed)) ∧
    (range.start ≤ range.finish → ∀ mixed token clientAddr fixedPort,
      (∀ fixed, fixedPort = some fixed → range.start ≤ fixed ∧ fixed ≤ range.finish) →
      ∃ p, (tryAllocatePort range mixed ∅ token clientAddr fixedPort).1 = .allocated p)

variable {range : SharedServicePortRange}

theorem checkedSub_eq {a b : UInt16} (h : b ≤ a) : checkedSub a b = some (a - b) := if_pos h

theorem checkedAdd_eq {a b : UInt16} (h : a.toNat + b.toNat < 65536) :
    checkedAdd a b = some (a + b) := if_pos h

theorem portRangeSizeChecked_eq (hle : range.start ≤ range.finish)
    (hsize : range.finish.toNat - range.start.toNat + 1 < 65536) :
    portRangeSizeChecked range = some (portRangeSize range) := by
  have hdiff : (range.finish - range.start).toNat = range.finish.toNat - range.start.toNat :=
    UInt16.toNat_sub_of_le _ _ hle
  rw [portRangeSizeChecked, checkedSub_eq hle, Option.bind_some,
    checkedAdd_eq (by rw [hdiff, UInt16.toNat_one]; exact hsize)]
  rfl

theorem proper_of_portRangeSizeChecked {size : Nat} (h : portRangeSizeChecked range = some size) :
    range.start ≤ range.finish ∧ range.finish.toNat - range.start.toNat + 1 < 65536 := by
  unfold portRangeSizeChecked checkedSub checkedAdd at h
  simp only [Option.map_eq_some_iff, Option.bind_eq_some_iff, Option.ite_none_right_eq_some,
    Option.some.injEq] at h
  obtain ⟨_, ⟨_, ⟨hle, rfl⟩, hlt, _⟩, _⟩ := h
  rw [UInt16.toNat_sub_of_le _ _ hle, UInt16.toNat_one] at hlt
  exact ⟨hle, hlt⟩

theorem portCandidatesChecked_eq (hle : range.start ≤ range.finish)
    (hsize : range.finish.toNat - range.start.toNat + 1 < 65536) (mixed : Nat) :
    portCandidatesChecked range mixed = some (portCandidates range mixed) := by
  have hadd : ∀ n, checkedAdd range.start (UInt16.ofNat (n % portRangeSize range)) =
      pure (range.start + UInt16.ofNat (n % portRangeSize range)) := by
    intro n
    have hfinish := range.finish.toNat_lt
    have hk : n % portRangeSize range < range.finish.toNat - range.start.toNat + 1 := by
      rw [portRangeSize_eq hle hsize]
      exact Nat.mod_lt n (Nat.succ_pos _)
    rw [UInt16.le_iff_toNat_le] at hle
    apply checkedAdd_eq
    rw [UInt16.toNat_ofNat', Nat.mod_eq_of_lt (by omega : n % portRangeSize range < 2 ^ 16)]
    omega
  rw [portCandidatesChecked, portRangeSizeChecked_eq hle hsize, Option.bind_some]
  simp only [hadd, List.mapM_pure]
  rfl

theorem tryAllocatePort_empty (hle : range.start ≤ range.finish)
    (hsize : range.finish.toNat - range.start.toNat + 1 < 65536) (mixed : Nat) (token : Option Text)
    (clientAddr : SocketAddr) (fixedPort : Option Port)
    (hfixed : ∀ fixed, fixedPort = some fixed → range.start ≤ fixed ∧ fixed ≤ range.finish) :
    ∃ p, (tryAllocatePort range mixed ∅ token clientAddr fixedPort).1 = .allocated p := by
  rcases tryAllocatePort_cases range mixed ∅ token clientAddr fixedPort with
    ⟨p, hallocated, _⟩ | ⟨_, hheld⟩ | ⟨_, hfull⟩
  · exact ⟨p, by rw [hallocated]⟩
  · obtain ⟨_, _, _, _, _, hlookup, _⟩ := tokenHeld_iff.mp hheld
    cases hlookup
  · cases fixedPort with
    | some fixed => exact absurd rfl (hfull fixed ⟨rfl, hfixed fixed rfl⟩)
    | none =>
      have hstart := (wantsPort_none_iff (p := range.start) hle hsize).mpr ⟨UInt16.le_refl _, hle⟩
      exact absurd rfl (hfull range.start hstart)

section

variable {Document : Type} (yaml : SerdeYaml Document) (url : UrlParser)

/-- Nothing but the listeners is checked. -/
theorem load_without_listeners {config : ProxyConfig} (h : config.listeners = []) :
    ProxyConfig.load yaml url (yaml.toString config) = .ok config := by
  obtain ⟨_, _, _, _, _, _, _, _, _, listeners⟩ := config
  cases h
  rw [ProxyConfig.load, yaml.fromStr_toString]
  rfl

/-- The loader accepts every range, and its numbers are right if it has a port and not all. -/
theorem port_range_computed_iff (range : SharedServicePortRange) :
    (∃ text config shared, ProxyConfig.load yaml url text = .ok config ∧
      config.sharedService = some shared ∧ shared.portRange = range) ∧
    (RangeComputed range ↔
      range.start ≤ range.finish ∧ ¬ (range.start = 0 ∧ range.finish = 65535)) := by
  refine ⟨⟨yaml.toString ⟨6000, false, true, false, some { portRange := range }, {}, {}, {}, {}, []⟩,
    _, _, load_without_listeners yaml url rfl, rfl, rfl⟩, ⟨fun h => ?_, fun h => ?_⟩⟩
  · obtain ⟨size, hsize, _⟩ := Option.bind_eq_some_iff.mp (h.1 0)
    obtain ⟨hle, hlt⟩ := proper_of_portRangeSizeChecked hsize
    refine ⟨hle, fun hwhole => ?_⟩
    rw [hwhole.1, hwhole.2] at hlt
    exact absurd hlt (by decide)
  · have hlt : range.finish.toNat - range.start.toNat + 1 < 65536 := by
      have hfinish := range.finish.toNat_lt
      have hne : ¬ (range.start.toNat = 0 ∧ range.finish.toNat = 65535) := fun heq =>
        h.2 ⟨UInt16.toNat_inj.mp heq.1, UInt16.toNat_inj.mp heq.2⟩
      omega
    exact ⟨portCandidatesChecked_eq h.1 hlt, fun hle => tryAllocatePort_empty hle hlt⟩

end

/-- All port numbers: their number is 0 in 16 bits. -/
theorem whole_range_full :
    (tryAllocatePort ⟨0, 65535⟩ 0 ∅ none ⟨.v4 ⟨[127, 0, 0, 1], rfl⟩, 50000⟩ none).1 = .full ∧
      portRangeSizeChecked ⟨0, 65535⟩ = none ∧ portRangeSizeChecked ⟨10001, 10000⟩ = none := by
  decide +kernel

end FerrumProxy
