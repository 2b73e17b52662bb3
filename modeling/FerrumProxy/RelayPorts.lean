import FerrumProxy.ConfigTypes
import FerrumProxy.NetAddress

/-!
# Ports of the shared relay

`try_allocate_port` runs under the write lock of `port_allocations`, so one call is one atomic step
of every machine that models the relay; these use `tryAllocatePort_cases` and never unfold the
function.
-/

namespace FerrumProxy

open Str

abbrev Port := UInt16

/-- A port and who holds it. -/
structure PortAllocation where
  port : Port
  token : Option Text
  clientAddr : SocketAddr

/-- The map `port_allocations`. -/
abbrev PortAllocations := AList (fun _ : Port => PortAllocation)

/-- What `try_allocate_port` returns. -/
inductive AllocationResult where
  | allocated (port : Port)
  | tokenInUse
  | full
  deriving DecidableEq

/-- Some allocation holds the request's token; an empty token is no token. -/
def tokenHeld (portAllocations : PortAllocations) (token : Option Text) : Bool :=
  match token with
  | some tokenValue =>
    !tokenValue.isEmpty &&
      portAllocations.entries.any (fun entry => entry.2.token == some tokenValue)
  | none => false

theorem tokenHeld_iff {portAllocations : PortAllocations} {token : Option Text} :
    tokenHeld portAllocations token = true ↔
      ∃ tokenValue p allocation, token = some tokenValue ∧ tokenValue ≠ [] ∧
        portAllocations.lookup p = some allocation ∧ allocation.token = some tokenValue := by
  cases token with
  | none => simp [tokenHeld]
  | some tokenValue =>
    simp only [tokenHeld, Bool.and_eq_true, List.any_eq_true, beq_iff_eq, Option.some.injEq,
      Bool.not_eq_true', List.isEmpty_eq_false_iff]
    constructor
    · intro h
      obtain ⟨hne, ⟨p, allocation⟩, hmem, htoken⟩ := h
      exact ⟨tokenValue, p, allocation, rfl, hne, AList.mem_lookup_iff.mpr hmem, htoken⟩
    · intro h
      obtain ⟨_, p, allocation, rfl, hne, hlookup, htoken⟩ := h
      exact ⟨hne, ⟨p, allocation⟩, AList.mem_lookup_iff.mp hlookup, htoken⟩

/-- The number of ports of a range, in 16-bit arithmetic. -/
def portRangeSize (range : SharedServicePortRange) : Nat :=
  (range.finish - range.start + 1).toNat

/-- `mixed` is the clock's nanoseconds mixed with the process id. -/
def randomPortOffset (rangeSize mixed : Nat) : Nat :=
  if rangeSize ≤ 1 then 0 else mixed % rangeSize

/-- The ports of the range in the order in which they are tried. -/
def portCandidates (range : SharedServicePortRange) (mixed : Nat) : List Port :=
  let size := portRangeSize range
  (List.range size).map
    (fun i => range.start + UInt16.ofNat ((randomPortOffset size mixed + i) % size))

def tryAllocatePort (range : SharedServicePortRange) (mixed : Nat)
    (portAllocations : PortAllocations) (token : Option Text) (clientAddr : SocketAddr)
    (fixedPort : Option Port) : AllocationResult × PortAllocations :=
  if tokenHeld portAllocations token then (.tokenInUse, portAllocations)
  else
    match fixedPort with
    | some candidate =>
      if candidate < range.start || range.finish < candidate then (.full, portAllocations)
      else if (portAllocations.lookup candidate).isNone then
        (.allocated candidate, portAllocations.insert candidate ⟨candidate, token, clientAddr⟩)
      else (.full, portAllocations)
    | none =>
      match (portCandidates range mixed).find?
          (fun candidate => (portAllocations.lookup candidate).isNone) with
      | some candidate =>
        (.allocated candidate, portAllocations.insert candidate ⟨candidate, token, clientAddr⟩)
      | none => (.full, portAllocations)

/-- The ports a request can be given: its fixed port if that lies in the
range, and any port of the range if it has none. -/
def WantsPort (range : SharedServicePortRange) (fixedPort : Option Port) (p : Port) : Prop :=
  match fixedPort with
  | some candidate => p = candidate ∧ range.start ≤ candidate ∧ candidate ≤ range.finish
  | none => ∃ k < portRangeSize range, p = range.start + UInt16.ofNat k

/-- Starting anywhere, a cyclic walk of full length visits every place. -/
theorem exists_cyclic_step {size k : Nat} (offset : Nat) (hk : k < size) :
    ∃ i < size, (offset + i) % size = k := by
  have hsize : 0 < size := Nat.lt_of_le_of_lt (Nat.zero_le k) hk
  have hoffset : offset % size < size := Nat.mod_lt offset hsize
  refine ⟨(k + (size - offset % size)) % size, Nat.mod_lt _ hsize, ?_⟩
  have hturn : offset % size + (k + (size - offset % size)) = k + size := by omega
  rw [Nat.add_mod_mod, ← Nat.mod_add_mod, hturn, Nat.add_mod_right, Nat.mod_eq_of_lt hk]

variable {p q : Port}

theorem mem_portCandidates {range : SharedServicePortRange} {mixed : Nat} :
    p ∈ portCandidates range mixed ↔ WantsPort range none p := by
  unfold portCandidates WantsPort
  simp only [List.mem_map, List.mem_range]
  constructor
  · intro h
    obtain ⟨i, hi, rfl⟩ := h
    exact ⟨_, Nat.mod_lt _ (Nat.lt_of_le_of_lt (Nat.zero_le i) hi), rfl⟩
  · intro h
    obtain ⟨k, hk, rfl⟩ := h
    obtain ⟨i, hi, hcycle⟩ :=
      exists_cyclic_step (randomPortOffset (portRangeSize range) mixed) hk
    exact ⟨i, hi, by rw [hcycle]⟩

section

variable (range : SharedServicePortRange) (mixed : Nat) (portAllocations : PortAllocations)
  (token : Option Text) (clientAddr : SocketAddr) (fixedPort : Option Port)

/-- **Everything a call can do**: take a free port that the request wants, or
leave the map as it is, for one of two reasons. -/
theorem tryAllocatePort_cases :
    (∃ p, tryAllocatePort range mixed portAllocations token clientAddr fixedPort =
          (.allocated p, portAllocations.insert p ⟨p, token, clientAddr⟩) ∧
        portAllocations.lookup p = none ∧ WantsPort range fixedPort p ∧
        tokenHeld portAllocations token = false) ∨
      (tryAllocatePort range mixed portAllocations token clientAddr fixedPort =
          (.tokenInUse, portAllocations) ∧
        tokenHeld portAllocations token = true) ∨
      (tryAllocatePort range mixed portAllocations token clientAddr fixedPort =
          (.full, portAllocations) ∧
        ∀ p, WantsPort range fixedPort p → portAllocations.lookup p ≠ none) := by
  unfold tryAllocatePort
  by_cases hheld : tokenHeld portAllocations token = true
  · rw [if_pos hheld]
    exact .inr (.inl ⟨rfl, hheld⟩)
  · rw [if_neg hheld]
    rw [Bool.not_eq_true] at hheld
    cases fixedPort with
    | some candidate =>
      by_cases hrange : (candidate < range.start || range.finish < candidate) = true
      · dsimp only
        rw [if_pos hrange]
        refine .inr (.inr ⟨rfl, ?_⟩)
        intro p hwants
        simp only [Bool.or_eq_true, decide_eq_true_eq] at hrange
        rcases hrange with hbelow | habove
        · exact absurd hwants.2.1 (UInt16.not_le.mpr hbelow)
        · exact absurd hwants.2.2 (UInt16.not_le.mpr habove)
      · dsimp only
        rw [if_neg hrange]
        simp only [Bool.or_eq_true, decide_eq_true_eq, not_or, UInt16.not_lt] at hrange
        cases hlookup : portAllocations.lookup candidate with
        | none => exact .inl ⟨candidate, rfl, hlookup, ⟨rfl, hrange⟩, hheld⟩
        | some holder =>
          refine .inr (.inr ⟨rfl, ?_⟩)
          intro p hwants
          rw [hwants.1, hlookup]
          exact Option.some_ne_none holder
    | none =>
      dsimp only
      cases hfind : (portCandidates range mixed).find?
          (fun candidate => (portAllocations.lookup candidate).isNone) with
      | some candidate =>
        have hfree := List.find?_some hfind
        have hwants := mem_portCandidates.mp (List.mem_of_find?_eq_some hfind)
        exact .inl ⟨candidate, rfl, Option.isNone_iff_eq_none.mp hfree, hwants, hheld⟩
      | none =>
        refine .inr (.inr ⟨rfl, ?_⟩)
        intro p hwants hfree
        exact List.find?_eq_none.mp hfind p (mem_portCandidates.mpr hwants)
          (Option.isNone_iff_eq_none.mpr hfree)

end

/-! ## Numbered allocations -/

/-- `port_allocations`, and how often each port has been allocated. -/
structure PortHistory where
  portAllocations : PortAllocations := ∅
  count : Port → Nat := fun _ => 0

namespace PortHistory

/-- The number of the allocation that holds the port. -/
def held (h : PortHistory) (p : Port) : Option Nat :=
  if (h.portAllocations.lookup p).isSome then some (h.count p) else none

/-- The port is given to a new allocation. -/
def allocate (h : PortHistory) (p : Port) (allocation : PortAllocation) : PortHistory where
  portAllocations := h.portAllocations.insert p allocation
  count := Function.update h.count p (h.count p + 1)

/-- The allocation of the port is removed. -/
def release (h : PortHistory) (p : Port) : PortHistory :=
  { h with portAllocations := h.portAllocations.erase p }

/-- `try_allocate_port`. -/
def tryAllocate (range : SharedServicePortRange) (mixed : Nat) (h : PortHistory)
    (token : Option Text) (clientAddr : SocketAddr) (fixedPort : Option Port) :
    AllocationResult × PortHistory :=
  match tryAllocatePort range mixed h.portAllocations token clientAddr fixedPort with
  | (.allocated p, _) => (.allocated p, h.allocate p ⟨p, token, clientAddr⟩)
  | (result, _) => (result, h)

variable {h : PortHistory}

theorem held_eq_none : h.held p = none ↔ h.portAllocations.lookup p = none := by
  unfold held
  cases h.portAllocations.lookup p <;> simp

/-- The allocation that holds a port is the latest one. -/
theorem held_eq_some {a : Nat} (hheld : h.held p = some a) : a = h.count p := by
  unfold held at hheld
  split at hheld <;> cases hheld
  rfl

@[simp]
theorem held_allocate_ne (h : PortHistory) (allocation : PortAllocation) (hne : q ≠ p) :
    (h.allocate p allocation).held q = h.held q := by
  simp [held, allocate, hne]

@[simp]
theorem count_allocate_ne (h : PortHistory) (allocation : PortAllocation) (hne : q ≠ p) :
    (h.allocate p allocation).count q = h.count q :=
  Function.update_of_ne hne _ _

@[simp]
theorem count_release (h : PortHistory) (p q : Port) : (h.release p).count q = h.count q := rfl

@[simp]
theorem held_release_self (h : PortHistory) (p : Port) : (h.release p).held p = none := by
  simp [held, release]

@[simp]
theorem held_release_ne (h : PortHistory) (hne : q ≠ p) : (h.release p).held q = h.held q := by
  simp [held, release, hne]

/-- What a request does to the history: it takes a free port that it wants, or
nothing. -/
theorem tryAllocate_cases (range : SharedServicePortRange) (mixed : Nat) (h : PortHistory)
    (token : Option Text) (clientAddr : SocketAddr) (fixedPort : Option Port) :
    (∃ p, h.tryAllocate range mixed token clientAddr fixedPort =
          (.allocated p, h.allocate p ⟨p, token, clientAddr⟩) ∧
        h.held p = none ∧ WantsPort range fixedPort p) ∨
      h.tryAllocate range mixed token clientAddr fixedPort = (.tokenInUse, h) ∨
      h.tryAllocate range mixed token clientAddr fixedPort = (.full, h) := by
  unfold tryAllocate
  rcases tryAllocatePort_cases range mixed h.portAllocations token clientAddr fixedPort with
    ⟨p, hresult, hfree, hwants, _⟩ | ⟨hresult, _⟩ | ⟨hresult, _⟩
  · rw [hresult]
    exact .inl ⟨p, rfl, held_eq_none.mpr hfree, hwants⟩
  · rw [hresult]
    exact .inr (.inl rfl)
  · rw [hresult]
    exact .inr (.inr rfl)

end PortHistory

/-- A relay with one public port. -/
def oneRelayPort : SharedServicePortRange where
  start := 40000
  finish := 40000

theorem wantsPort_one {port : Port} (h : WantsPort oneRelayPort none port) : port = 40000 := by
  obtain ⟨k, hk, rfl⟩ := h
  obtain rfl : k = 0 := Nat.lt_one_iff.mp hk
  rfl

/-- Where a tenant's control connections come from. -/
def tenantAddr : SocketAddr where
  ip := .v4 ⟨[203, 0, 113, 7], rfl⟩
  port := 50000

end FerrumProxy
