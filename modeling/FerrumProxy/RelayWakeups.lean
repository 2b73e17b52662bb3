import FerrumProxy.BoundedMatchings
import FerrumProxy.RelayQueue

/-!
# No lost wake-ups

How many of the waiting handlers could be served at once?  They differ in the ports they can use, so
the answer is the size of a matching of handlers with free ports.  The invariant of runs that use
their wake-ups is that no matching exceeds the wake-ups on their way: handlers already woken, the
stored permit, and releases that have yet to notify.
-/

namespace FerrumProxy

open Str Runs Matchings Pool

/-! ## Who could be served -/

/-- The handler could be given the port. -/
def ConnectHandler.CanTake (range : SharedServicePortRange) (portAllocations : PortAllocations)
    (h : ConnectHandler) (p : Port) : Prop :=
  tokenHeld portAllocations h.token = false ∧ WantsPort range h.fixedPort p ∧
    portAllocations.lookup p = none

variable {range : SharedServicePortRange} {portAllocations : PortAllocations}
  {handlers : Pool ConnectHandler} {h h' : ConnectHandler} {id i : Nat} {p q : Port}

theorem ConnectHandler.succeeds_iff :
    h.Succeeds range portAllocations ↔ ∃ p, h.CanTake range portAllocations p := by
  constructor
  · intro hsucceeds
    obtain ⟨mixed, p, after, hresult⟩ := hsucceeds
    rcases tryAllocatePort_cases range mixed portAllocations h.token h.clientAddr h.fixedPort with
      ⟨q, _, hfree, hwants, hheld⟩ | ⟨hother, _⟩ | ⟨hother, _⟩
    · exact ⟨q, hheld, hwants, hfree⟩
    · rw [hresult] at hother
      cases hother
    · rw [hresult] at hother
      cases hother
  · intro hcan
    obtain ⟨p, hheld, hwants, hfree⟩ := hcan
    rcases tryAllocatePort_cases range 0 portAllocations h.token h.clientAddr h.fixedPort with
      ⟨q, hresult, _⟩ | ⟨_, hother⟩ | ⟨_, hother⟩
    · exact ⟨0, q, _, hresult⟩
    · rw [hheld] at hother
      cases hother
    · exact absurd hfree (hother p hwants)

variable {allocation : PortAllocation} {action : QueueAction}

theorem ConnectHandler.CanTake.of_insert
    (hcan : h.CanTake range (portAllocations.insert q allocation) p)
    (hfree : portAllocations.lookup q = none) : h.CanTake range portAllocations p ∧ p ≠ q := by
  obtain ⟨hheld, hwants, hlookup⟩ := hcan
  have hne : p ≠ q := by
    intro hpq
    rw [hpq, AList.lookup_insert] at hlookup
    cases hlookup
  rw [AList.lookup_insert_ne hne] at hlookup
  refine ⟨⟨?_, hwants, hlookup⟩, hne⟩
  rw [← Bool.not_eq_true]
  intro hold
  obtain ⟨tokenValue, r, holder, htoken, hnonempty, hr, hholder⟩ := tokenHeld_iff.mp hold
  have hrq : r ≠ q := by
    intro hrq
    rw [hrq, hfree] at hr
    cases hr
  have hnew : tokenHeld (portAllocations.insert q allocation) h.token = true :=
    tokenHeld_iff.mpr ⟨tokenValue, r, holder, htoken, hnonempty,
      (AList.lookup_insert_ne hrq).trans hr, hholder⟩
  rw [hheld] at hnew
  cases hnew

/-- A release frees its port only, if it does not free the handler's token. -/
theorem ConnectHandler.CanTake.of_erase (hcan : h.CanTake range (portAllocations.erase q) p)
    (hreleased : portAllocations.lookup q = some allocation)
    (htoken : h.token ≠ none → h.token ≠ allocation.token) :
    h.CanTake range portAllocations p ∨ p = q := by
  obtain ⟨hheld, hwants, hlookup⟩ := hcan
  by_cases hpq : p = q
  · exact .inr hpq
  · rw [AList.lookup_erase_ne hpq] at hlookup
    refine .inl ⟨?_, hwants, hlookup⟩
    rw [← Bool.not_eq_true]
    intro hold
    obtain ⟨tokenValue, r, holder, hvalue, hnonempty, hr, hholder⟩ := tokenHeld_iff.mp hold
    have hrq : r ≠ q := by
      intro hrq
      rw [hrq, hreleased] at hr
      cases hr
      apply htoken
      · rw [hvalue]
        exact Option.some_ne_none tokenValue
      · rw [hvalue, hholder]
    have hstill : tokenHeld (portAllocations.erase q) h.token = true :=
      tokenHeld_iff.mpr ⟨tokenValue, r, holder, hvalue, hnonempty,
        (AList.lookup_erase_ne hrq).trans hr, hholder⟩
    rw [hheld] at hstill
    cases hstill

/-- The handler waits, parked or not, or was woken. -/
def ConnectHandler.waits (h : ConnectHandler) : Bool := h.idle || h.woken

/-- A waiting handler could be given the port. -/
def Usable (range : SharedServicePortRange) (portAllocations : PortAllocations)
    (handlers : Pool ConnectHandler) (id : Nat) (p : Port) : Prop :=
  ∃ h, handlers.lookup id = some h ∧ h.waits = true ∧ h.CanTake range portAllocations p

/-- The handler was woken and has not tried again yet. -/
def IsWoken (handlers : Pool ConnectHandler) (id : Nat) : Prop :=
  ∃ h, handlers.lookup id = some h ∧ h.woken = true

theorem Usable.of_put (husable : Usable range portAllocations (handlers.put id h') i p) :
    (i = id ∧ h'.waits = true ∧ h'.CanTake range portAllocations p) ∨
      (i ≠ id ∧ Usable range portAllocations handlers i p) := by
  obtain ⟨h, hlookup, hwaits, hcan⟩ := husable
  rcases put_eq_some hlookup with ⟨hid, rfl⟩ | ⟨hid, hold⟩
  · exact .inl ⟨hid, hwaits, hcan⟩
  · exact .inr ⟨hid, h, hold, hwaits, hcan⟩

/-- A handler that waits no more than before, for the same ports, adds
nothing. -/
theorem Usable.of_put_same (husable : Usable range portAllocations (handlers.put id h') i p)
    (hlookup : handlers.lookup id = some h) (hwaits : h'.waits = true → h.waits = true)
    (htoken : h'.token = h.token) (hfixed : h'.fixedPort = h.fixedPort) :
    Usable range portAllocations handlers i p := by
  rcases husable.of_put with ⟨rfl, hnew, hcan⟩ | ⟨_, hold⟩
  · refine ⟨h, hlookup, hwaits hnew, ?_⟩
    unfold ConnectHandler.CanTake at hcan ⊢
    rw [← htoken, ← hfixed]
    exact hcan
  · exact hold

theorem Usable.of_put_waits_false (hwaits : h'.waits = false)
    (husable : Usable range portAllocations (handlers.put id h') i p) :
    i ≠ id ∧ Usable range portAllocations handlers i p := by
  rcases husable.of_put with ⟨_, hnew, _⟩ | hold
  · rw [hwaits] at hnew
    cases hnew
  · exact hold

theorem isWoken_put_of_woken (hwoken : h'.woken = true) :
    IsWoken (handlers.put id h') i ↔ i = id ∨ IsWoken handlers i := by
  by_cases hid : i = id <;> simp [IsWoken, lookup_put, hid, hwoken]

theorem isWoken_put_of_not_woken (hwoken : h'.woken = false) :
    IsWoken (handlers.put id h') i ↔ i ≠ id ∧ IsWoken handlers i := by
  by_cases hid : i = id <;> simp [IsWoken, lookup_put, hid, hwoken]

/-! ## The invariant -/

/-- The notifier's list is the list of parked handlers, and a permit is stored
only while it is empty. -/
structure RelayQueue.Tidy (s : RelayQueue) : Prop where
  parked : ∀ id ∈ s.waiters, ∃ h, s.handlers.lookup id = some h ∧ h.phase = .parked
  listed : ∀ id h, s.handlers.lookup id = some h → h.phase = .parked → id ∈ s.waiters
  nodup : s.waiters.Nodup
  queued : s.handlers.All (fun h => h.phase = .polling ∨ h.phase = .parked → h.queued = true)
  permit : s.permit = true → s.waiters = []

/-- No more handlers could be served at once than there are wake-ups on their
way. -/
def RelayQueue.Covered (range : SharedServicePortRange) (s : RelayQueue) : Prop :=
  ∃ W : Finset Nat, (∀ i, i ∈ W ↔ IsWoken s.handlers i) ∧
    AtMost (Usable range s.portAllocations s.handlers)
      (W.card + s.permit.toNat + s.releasing)

open ConnectHandler

/-- The state of a handler is known from its phase and whether it is queued. -/
theorem ConnectHandler.woken_eq_false (hphase : h.phase ≠ .trying) : h.woken = false := by
  simp [woken, hphase]

theorem not_isWoken (hlookup : handlers.lookup id = some h) (hwoken : h.woken = false) :
    ¬ IsWoken handlers id := by
  intro hi
  obtain ⟨found, hfound, hh⟩ := hi
  obtain rfl := lookup_unique hlookup hfound
  rw [hwoken] at hh
  cases hh

theorem ConnectHandler.returns_waits (h : ConnectHandler) (result : AllocationResult) :
    (h.returns result).waits = false := by
  cases hq : h.queued <;>
    simp [returns, waits, idle, woken, hq]

theorem ConnectHandler.returns_phase_ne_parked (h : ConnectHandler) (result : AllocationResult) :
    (h.returns result).phase ≠ .parked := by
  cases hq : h.queued <;> simp [returns, hq]

theorem ConnectHandler.returns_phase_ne_polling (h : ConnectHandler) (result : AllocationResult) :
    (h.returns result).phase ≠ .polling := by
  cases hq : h.queued <;> simp [returns, hq]

variable {s t : RelayQueue}

theorem RelayQueue.Tidy.put (hs : s.Tidy) (hhandlers : t.handlers = s.handlers.put id h')
    (hwaiters : t.waiters = s.waiters) (hpermit : t.permit = true → s.permit = true)
    (hold : ∀ h, s.handlers.lookup id = some h → h.phase ≠ .parked) (hnew : h'.phase ≠ .parked)
    (hqueued : h'.phase = .polling → h'.queued = true) : t.Tidy := by
  refine ⟨?_, ?_, ?_, ?_, ?_⟩
  · intro i hi
    rw [hwaiters] at hi
    obtain ⟨h, hlookup, hphase⟩ := hs.parked i hi
    have hne : i ≠ id := by
      intro hid
      subst hid
      exact hold h hlookup hphase
    rw [hhandlers, put_ne _ _ hne]
    exact ⟨h, hlookup, hphase⟩
  · intro i h hlookup hphase
    rw [hhandlers] at hlookup
    rw [hwaiters]
    rcases put_eq_some hlookup with ⟨_, rfl⟩ | ⟨_, hbefore⟩
    · exact absurd hphase hnew
    · exact hs.listed i h hbefore hphase
  · rw [hwaiters]
    exact hs.nodup
  · rw [hhandlers]
    apply hs.queued.put
    intro hphase
    exact hqueued (hphase.resolve_right hnew)
  · intro htrue
    rw [hwaiters]
    exact hs.permit (hpermit htrue)

/-- A step that wakes nobody and gives no handler a port it did not have. -/
theorem RelayQueue.Covered.put (hs : s.Covered range)
    (hhandlers : t.handlers = s.handlers.put id h') (hbefore : ¬ IsWoken s.handlers id)
    (hafter : h'.woken = false) (hpermit : t.permit = s.permit)
    (hreleasing : t.releasing = s.releasing)
    (husable : ∀ i p, Usable range t.portAllocations t.handlers i p →
      Usable range s.portAllocations s.handlers i p) : t.Covered range := by
  obtain ⟨W, hW, hbound⟩ := hs
  refine ⟨W, ?_, ?_⟩
  · intro i
    rw [hhandlers, isWoken_put_of_not_woken hafter, hW i]
    constructor
    · intro hi
      refine ⟨?_, hi⟩
      intro hid
      exact hbefore (hid ▸ hi)
    · exact fun hi => hi.2
  · rw [hpermit, hreleasing]
    exact hbound.mono husable (Nat.le_refl _)

/-- A step that wakes a handler and uses up at most one other wake-up. -/
theorem RelayQueue.Covered.wake (hs : s.Covered range)
    (hhandlers : t.handlers = s.handlers.put id h') (hbefore : ¬ IsWoken s.handlers id)
    (hafter : h'.woken = true)
    (hbudget : s.permit.toNat + s.releasing ≤ 1 + t.permit.toNat + t.releasing)
    (husable : ∀ i p, Usable range t.portAllocations t.handlers i p →
      Usable range s.portAllocations s.handlers i p) : t.Covered range := by
  obtain ⟨W, hW, hbound⟩ := hs
  refine ⟨insert id W, ?_, ?_⟩
  · intro i
    rw [hhandlers, isWoken_put_of_woken hafter, Finset.mem_insert, hW i]
  · have hcard : (insert id W).card = W.card + 1 :=
      Finset.card_insert_of_notMem (fun hmem => hbefore ((hW id).mp hmem))
    apply hbound.mono husable
    omega

/-- A woken handler stops being woken; what is left to show is that the others
can do with one wake-up less. -/
theorem RelayQueue.Covered.retire (hs : s.Covered range)
    (hhandlers : t.handlers = s.handlers.put id h') (hbefore : IsWoken s.handlers id)
    (hafter : h'.woken = false) (hpermit : t.permit = s.permit)
    (hreleasing : t.releasing = s.releasing)
    (hrest : ∀ W : Finset Nat, (∀ i, i ∈ W ↔ IsWoken t.handlers i) →
      AtMost (Usable range s.portAllocations s.handlers)
        (W.card + s.permit.toNat + s.releasing + 1) →
      AtMost (Usable range t.portAllocations t.handlers)
        (W.card + s.permit.toNat + s.releasing)) : t.Covered range := by
  obtain ⟨W, hW, hbound⟩ := hs
  have hwoken : ∀ i, i ∈ W.erase id ↔ IsWoken t.handlers i := by
    intro i
    rw [hhandlers, isWoken_put_of_not_woken hafter, Finset.mem_erase, hW i]
  have hcard : (W.erase id).card + 1 = W.card :=
    Finset.card_erase_add_one ((hW id).mpr hbefore)
  refine ⟨W.erase id, hwoken, ?_⟩
  rw [hpermit, hreleasing]
  apply hrest _ hwoken
  apply hbound.mono (fun _ _ husable => husable)
  omega

/-! ## The steps -/

variable {config : SharedServiceConfig}

/-- A successful try: the ports of the others are those they had, without the
one that was given away. -/
theorem covered_allocated (hs : s.Covered range) (hlookup : s.handlers.lookup id = some h)
    (hcan : h.CanTake range s.portAllocations p)
    (ht : t = { s with
      portAllocations := s.portAllocations.insert p allocation
      handlers := s.handlers.put id (h.returns (.allocated p)) }) : t.Covered range := by
  subst ht
  have hothers : ∀ i q, Usable range (s.portAllocations.insert p allocation)
      (s.handlers.put id (h.returns (.allocated p))) i q →
      Usable range s.portAllocations s.handlers i q ∧ i ≠ id ∧ q ≠ p := by
    intro i q husable
    obtain ⟨hne, found, hfound, hwaits, htake⟩ := husable.of_put_waits_false (h.returns_waits _)
    obtain ⟨htake, hpq⟩ := htake.of_insert hcan.2.2
    exact ⟨⟨found, hfound, hwaits, htake⟩, hne, hpq⟩
  have hreturned := (Bool.or_eq_false_iff.mp (h.returns_waits (.allocated p))).2
  cases hwoken : h.woken with
  | false =>
    exact hs.put rfl (not_isWoken hlookup hwoken) hreturned rfl rfl
      (fun i q husable => (hothers i q husable).1)
  | true =>
    refine hs.retire rfl ⟨h, hlookup, hwoken⟩ hreturned rfl rfl ?_
    intro W _ hbound
    have hwaits : h.waits = true := by simp [waits, hwoken]
    exact hbound.serve ⟨h, hlookup, hwaits, hcan⟩ hothers

/-- A failed try: if the handler was woken, the condition says that nobody but
the other woken handlers can be served. -/
theorem covered_refused (hs : s.Covered range)
    (hlookup : s.handlers.lookup id = some h)
    (ht : t = { s with handlers := s.handlers.put id h' })
    (hcannot : ∀ p, ¬ h.CanTake range s.portAllocations p)
    (hused : h.woken = true → h.Succeeds range s.portAllocations ∨
      s.handlers.All (fun other => other.idle = true → ¬ other.Succeeds range s.portAllocations))
    (htoken : h'.token = h.token) (hfixed : h'.fixedPort = h.fixedPort)
    (hafter : h'.woken = false) : t.Covered range := by
  subst ht
  have hothers : ∀ i q, Usable range s.portAllocations (s.handlers.put id h') i q →
      i ≠ id ∧ Usable range s.portAllocations s.handlers i q := by
    intro i q husable
    rcases husable.of_put with ⟨_, _, htake⟩ | hold
    · unfold ConnectHandler.CanTake at htake
      rw [htoken, hfixed] at htake
      exact absurd htake (hcannot q)
    · exact hold
  cases hwoken : h.woken with
  | false =>
    exact hs.put rfl (not_isWoken hlookup hwoken) hafter rfl rfl
      (fun i q husable => (hothers i q husable).2)
  | true =>
    have hidle := (hused hwoken).resolve_left (fun hsucceeds => by
      obtain ⟨q, hcan⟩ := succeeds_iff.mp hsucceeds
      exact hcannot q hcan)
    refine hs.retire rfl ⟨h, hlookup, hwoken⟩ hafter rfl rfl ?_
    intro W hW _
    have hclaimants : AtMost (Usable range s.portAllocations (s.handlers.put id h')) W.card := by
      apply atMost_claimants
      intro i q husable
      obtain ⟨hne, found, hfound, hwaits, htake⟩ := hothers i q husable
      rw [hW i, isWoken_put_of_not_woken hafter]
      refine ⟨hne, found, hfound, ?_⟩
      rcases Bool.or_eq_true_iff.mp hwaits with hfoundIdle | hfoundWoken
      · exact absurd (succeeds_iff.mpr ⟨q, htake⟩) (hidle i found hfound hfoundIdle)
      · exact hfoundWoken
    apply hclaimants.mono (fun _ _ husable => husable)
    omega

/-- A release adds a port that one more handler could be served with, and has
still to notify. -/
theorem covered_release {port : Port} (hs : s.Covered range)
    (hused : s.WakeupsUsed range (.release port))
    (hlookup : s.portAllocations.lookup port = some allocation) :
    ({ s with
      portAllocations := s.portAllocations.erase port
      releasing := s.releasing + 1 } : RelayQueue).Covered range := by
  obtain ⟨W, hW, hbound⟩ := hs
  refine ⟨W, hW, ?_⟩
  apply hbound.addResource port
  intro i p husable
  obtain ⟨h, hh, hwaits, htake⟩ := husable
  have htoken := hused allocation hlookup i h hh (Bool.or_eq_true_iff.mp hwaits)
  rcases htake.of_erase hlookup htoken with hold | hnew
  · exact .inl ⟨h, hh, hwaits, hold⟩
  · exact .inr hnew

open List

/-- `notify_one` turns the wake-up it was called for into a woken handler or a
permit.  Only when a permit is stored already does a wake-up vanish, and then
at most one handler besides the woken ones is waiting. -/
theorem covered_notifyOne {released : Nat} (hs : s.Covered range) (htidy : s.Tidy)
    (hreleased : s.releasing ≤ released + 1)
    (hpermit : s.permit = true → s.releasing = released ∨
      ∀ i h i' h', s.handlers.lookup i = some h → s.handlers.lookup i' = some h' →
        h.betweenTryAndPark = true → h'.betweenTryAndPark = true → i = i') :
    ({ s.notifyOne with releasing := released } : RelayQueue).Covered range := by
  unfold RelayQueue.notifyOne
  cases hwaiters : s.waiters with
  | cons id rest =>
    obtain ⟨h, hlookup, hparked⟩ := htidy.parked id (by simp [hwaiters])
    have hqueued := htidy.queued id h hlookup (.inr hparked)
    dsimp only
    rw [hlookup]
    refine hs.wake rfl (not_isWoken hlookup (woken_eq_false ?_)) ?_ ?_ ?_
    · rw [hparked]
      decide
    · simp [woken, goTo, hqueued]
    · dsimp only
      omega
    · intro i p husable
      refine husable.of_put_same hlookup (fun _ => ?_) rfl rfl
      simp [waits, idle, hparked]
  | nil =>
    obtain ⟨W, hW, hbound⟩ := hs
    refine ⟨W, hW, ?_⟩
    dsimp only [Bool.toNat_true]
    cases hstored : s.permit with
    | false =>
      rw [hstored] at hbound
      apply hbound.mono (fun _ _ husable => husable)
      dsimp only [Bool.toNat_false]
      omega
    | true =>
      rw [hstored] at hbound
      rcases hpermit hstored with hsame | hone
      · apply hbound.mono (fun _ _ husable => husable)
        dsimp only [Bool.toNat_true]
        omega
      · -- nobody is parked, so whoever waits and is not woken is the one
        -- handler between its try and the parking
        have hgap : ∃ g, ∀ i h, s.handlers.lookup i = some h →
            h.betweenTryAndPark = true → i = g := by
          by_cases hsome : ∃ g h, s.handlers.lookup g = some h ∧ h.betweenTryAndPark = true
          · obtain ⟨g, hg, hglookup, hgbetween⟩ := hsome
            exact ⟨g, fun i h hlookup hbetween =>
              hone i h g hg hlookup hglookup hbetween hgbetween⟩
          · exact ⟨0, fun i h hlookup hbetween =>
              absurd ⟨i, h, hlookup, hbetween⟩ hsome⟩
        obtain ⟨g, hgap⟩ := hgap
        have hclaimants : AtMost (Usable range s.portAllocations s.handlers) (insert g W).card := by
          apply atMost_claimants
          intro i p husable
          obtain ⟨h, hlookup, hwaits, _⟩ := husable
          rw [Finset.mem_insert, hW i]
          rcases Bool.or_eq_true_iff.mp hwaits with hidle | hwoken
          · rcases Bool.or_eq_true_iff.mp hidle with hbetween | hparked
            · exact .inl (hgap i h hlookup hbetween)
            · have hmem := htidy.listed i h hlookup (beq_iff_eq.mp hparked)
              rw [hwaiters] at hmem
              cases hmem
          · exact .inr ⟨h, hlookup, hwoken⟩
        have hcard := Finset.card_insert_le g W
        apply hclaimants.mono (fun _ _ husable => husable)
        omega

theorem RelayQueue.Tidy.park (hs : s.Tidy) (hlookup : s.handlers.lookup id = some h)
    (hphase : h.phase = .polling) (hpermit : s.permit = false) :
    ({ s with
      waiters := s.waiters ++ [id]
      handlers := s.handlers.put id (h.goTo .parked) } : RelayQueue).Tidy := by
  have hnotin : id ∉ s.waiters := by
    intro hmem
    obtain ⟨found, hfound, hparked⟩ := hs.parked id hmem
    obtain rfl := lookup_unique hlookup hfound
    rw [hphase] at hparked
    cases hparked
  refine ⟨?_, ?_, ?_, ?_, ?_⟩
  · intro i hi
    by_cases hid : i = id
    · subst hid
      exact ⟨_, put_self .., rfl⟩
    · have hold : i ∈ s.waiters := by
        rcases mem_append.mp hi with hold | hnew
        · exact hold
        · exact absurd (mem_singleton.mp hnew) hid
      obtain ⟨found, hfound, hparked⟩ := hs.parked i hold
      exact ⟨found, (put_ne _ _ hid).trans hfound, hparked⟩
  · intro i found hfound hparked
    rcases put_eq_some hfound with ⟨rfl, _⟩ | ⟨_, hold⟩
    · exact mem_append_right _ (mem_singleton_self _)
    · exact mem_append_left _ (hs.listed i found hold hparked)
  · exact hs.nodup.append (nodup_singleton id) (fun i hi hnew =>
      hnotin (mem_singleton.mp hnew ▸ hi))
  · apply hs.queued.put
    intro _
    exact hs.queued id h hlookup (.inl hphase)
  · intro htrue
    rw [hpermit] at htrue
    cases htrue

/-- The notifier takes the head of its list, or stores the permit. -/
theorem RelayQueue.Tidy.notifyOne (hs : s.Tidy) : s.notifyOne.Tidy := by
  unfold RelayQueue.notifyOne
  cases hwaiters : s.waiters with
  | nil =>
    have hlisted := hs.listed
    rw [hwaiters] at hlisted
    refine ⟨?_, hlisted, nodup_nil, hs.queued, fun _ => rfl⟩
    intro i hi
    cases hi
  | cons id rest =>
    obtain ⟨h, hlookup, hparked⟩ := hs.parked id (by simp [hwaiters])
    have hnodup : id ∉ rest ∧ rest.Nodup := by
      have hall := hs.nodup
      rw [hwaiters] at hall
      exact nodup_cons.mp hall
    dsimp only
    rw [hlookup]
    refine ⟨?_, ?_, hnodup.2, ?_, ?_⟩
    · intro i hi
      have hne : i ≠ id := fun hii => hnodup.1 (hii ▸ hi)
      obtain ⟨found, hfound, hph⟩ := hs.parked i (by simp [hwaiters, hi])
      exact ⟨found, (put_ne _ _ hne).trans hfound, hph⟩
    · intro i found hfound hph
      rcases put_eq_some hfound with ⟨_, rfl⟩ | ⟨hne, hold⟩
      · cases hph
      · have hmem := hs.listed i found hold hph
        rw [hwaiters] at hmem
        exact (mem_cons.mp hmem).resolve_left hne
    · apply hs.queued.put
      intro _
      exact hs.queued id h hlookup (.inr hparked)
    · intro htrue
      have hnone := hs.permit htrue
      rw [hwaiters] at hnone
      cases hnone

theorem RelayQueue.decrementWaitingCounter_frame (s : RelayQueue) (isPriorityClient : Bool) :
    (s.decrementWaitingCounter isPriorityClient).portAllocations = s.portAllocations ∧
      (s.decrementWaitingCounter isPriorityClient).waiters = s.waiters ∧
      (s.decrementWaitingCounter isPriorityClient).permit = s.permit ∧
      (s.decrementWaitingCounter isPriorityClient).releasing = s.releasing := by
  cases isPriorityClient <;> exact ⟨rfl, rfl, rfl, rfl⟩

theorem RelayQueue.notifyOne_releasing (s : RelayQueue) :
    { s.notifyOne with releasing := s.releasing } = s.notifyOne := by
  unfold RelayQueue.notifyOne
  cases s.waiters <;> rfl

/-- A handler that is neither parked nor woken moves on, to a state in which it
is not woken and waits only if it did. -/
theorem RelayQueue.Covered.move (hs : s.Covered range) (hlookup : s.handlers.lookup id = some h)
    (hhandlers : t.handlers = s.handlers.put id h') (hbefore : h.woken = false)
    (hafter : h'.woken = false) (hwaits : h'.waits = true → h.waits = true)
    (htoken : h'.token = h.token) (hfixed : h'.fixedPort = h.fixedPort)
    (hports : t.portAllocations = s.portAllocations) (hpermit : t.permit = s.permit)
    (hreleasing : t.releasing = s.releasing) : t.Covered range := by
  apply hs.put hhandlers (not_isWoken hlookup hbefore) hafter hpermit hreleasing
  intro i p husable
  rw [hports, hhandlers] at husable
  exact husable.of_put_same hlookup hwaits htoken hfixed

/-- Every step keeps the notifier's list. -/
theorem RelayQueue.Tidy.change (hs : s.Tidy) (hchange : RelayQueue.Change config s action t) :
    t.Tidy := by
  have hmoves {id : Nat} {h : ConnectHandler} (hlookup : s.handlers.lookup id = some h)
      (hphase : h.phase ≠ .parked) :
      ∀ found, s.handlers.lookup id = some found → found.phase ≠ .parked := by
    intro found hfound
    obtain rfl := lookup_unique hlookup hfound
    exact hphase
  cases hchange with
  | connected hnew =>
    refine hs.put rfl rfl (fun htrue => htrue) (fun found hfound => ?_) (by simp) (by simp)
    rw [hnew] at hfound
    cases hfound
  | allocated hlookup hphase | refused hlookup hphase =>
    exact hs.put rfl rfl (fun htrue => htrue) (hmoves hlookup (by simp [hphase]))
      (returns_phase_ne_parked _ _)
      (fun hpolling => absurd hpolling (returns_phase_ne_polling _ _))
  | @full id _ h hlookup hphase =>
    refine hs.put rfl rfl (fun htrue => htrue) (hmoves hlookup (by simp [hphase])) ?_ ?_
    · cases hq : h.queued <;> simp [goTo]
    · cases hq : h.queued <;> simp [goTo, hq]
  | turnedAway hlookup hphase =>
    exact hs.put rfl rfl (fun htrue => htrue) (hmoves hlookup (by simp [hphase]))
      (by simp [goTo]) (by simp [goTo])
  | queuedPriority hlookup hphase | queued hlookup hphase =>
    exact hs.put rfl rfl (fun htrue => htrue) (hmoves hlookup (by simp [hphase])) (by simp)
      (fun _ => rfl)
  | permitted hlookup hphase =>
    exact hs.put rfl rfl nofun (hmoves hlookup (by simp [hphase])) (by simp [goTo]) (by simp [goTo])
  | parked hlookup hphase hpermit => exact hs.park hlookup hphase hpermit
  | left hlookup hphase =>
    have hcounter := s.decrementWaitingCounter_frame
    exact hs.put rfl (hcounter _).2.1 (fun htrue => (hcounter _).2.2.1 ▸ htrue)
      (hmoves hlookup (by simp [hphase])) (by simp [goTo])
      (by simp [goTo])
  | notAllocated => exact hs
  | released _ => exact ⟨hs.parked, hs.listed, hs.nodup, hs.queued, hs.permit⟩
  | notified _ =>
    have htidy := hs.notifyOne
    exact ⟨htidy.parked, htidy.listed, htidy.nodup, htidy.queued, htidy.permit⟩
  | cleanedUp => exact hs.notifyOne

theorem RelayQueue.tidy_start : ({} : RelayQueue).Tidy := by
  refine ⟨?_, ?_, nodup_nil, ?_, fun _ => rfl⟩
  · intro id hid
    cases hid
  · intro id h hlookup _
    cases hlookup
  · intro id h hlookup
    cases hlookup

/-- A step that uses its wake-ups leaves enough of them. -/
theorem RelayQueue.Covered.change (hs : s.Covered config.portRange) (htidy : s.Tidy)
    (hused : s.WakeupsUsed config.portRange action)
    (hchange : RelayQueue.Change config s action t) : t.Covered config.portRange := by
  cases hchange with
  | connected hnew =>
    refine hs.put rfl ?_ rfl rfl rfl (fun i p husable => (husable.of_put_waits_false rfl).2)
    intro hwoken
    obtain ⟨found, hfound, _⟩ := hwoken
    rw [hnew] at hfound
    cases hfound
  | allocated hlookup hphase hheld hwants hfree =>
    exact covered_allocated hs hlookup ⟨hheld, hwants, hfree⟩ rfl
  | refused hlookup hphase hheld =>
    refine covered_refused hs hlookup rfl (fun p hcan => ?_) (hused _ hlookup) rfl rfl
      (Bool.or_eq_false_iff.mp (returns_waits _ _)).2
    rw [hcan.1] at hheld
    cases hheld
  | @full id _ h hlookup hphase htaken =>
    refine covered_refused hs hlookup rfl (fun p hcan => htaken p hcan.2.1 hcan.2.2)
      (hused _ hlookup) rfl rfl (woken_eq_false ?_)
    cases hq : h.queued <;> simp [goTo]
  | turnedAway hlookup hphase | parked hlookup hphase =>
    exact hs.move hlookup rfl (by simp [woken, hphase])
      (by simp [woken, goTo])
      (fun _ => by simp [waits, idle, hphase])
      rfl rfl rfl rfl rfl
  | queuedPriority hlookup hphase | queued hlookup hphase =>
    exact hs.move hlookup rfl (by simp [woken, hphase])
      (by simp [woken])
      (fun _ => by simp [waits, idle, hphase])
      rfl rfl rfl rfl rfl
  | permitted hlookup hphase hpermit =>
    refine hs.wake rfl (not_isWoken hlookup (by simp [woken, hphase])) ?_ ?_ ?_
    · simp [woken, goTo, htidy.queued _ _ hlookup (.inl hphase)]
    · simp [hpermit]
    · intro i p husable
      exact husable.of_put_same hlookup (fun _ => by simp [waits, idle, hphase]) rfl rfl
  | left hlookup hphase =>
    have hcounter := s.decrementWaitingCounter_frame
    exact hs.move hlookup rfl (by simp [woken, hphase])
      (by simp [woken, goTo])
      (by simp [waits, idle, woken,
        goTo])
      rfl rfl (hcounter _).1 (hcounter _).2.2.1 (hcounter _).2.2.2
  | notAllocated => exact hs
  | released hallocation => exact covered_release hs hused hallocation
  | notified hreleasing =>
    apply covered_notifyOne hs htidy
    · omega
    · exact fun hpermit => .inr (hused hpermit)
  | cleanedUp =>
    have hcovered := covered_notifyOne hs htidy (Nat.le_succ s.releasing) (fun _ => .inl rfl)
    rwa [s.notifyOne_releasing] at hcovered

/-- Both parts of the invariant. -/
structure RelayQueue.Sound (range : SharedServicePortRange) (s : RelayQueue) : Prop where
  tidy : s.Tidy
  covered : s.Covered range

theorem RelayQueue.sound_start : ({} : RelayQueue).Sound range := by
  refine ⟨RelayQueue.tidy_start, ∅, ?_, ?_⟩
  · intro i
    constructor
    · intro hi
      exact absurd hi (Finset.notMem_empty i)
    · intro hwoken
      obtain ⟨h, hlookup, _⟩ := hwoken
      cases hlookup
  · apply (atMost_claimants ∅ _).mono (fun _ _ husable => husable) (Nat.zero_le _)
    intro i p husable
    obtain ⟨h, hlookup, _⟩ := husable
    cases hlookup

/-- One step that uses its wake-ups keeps the invariant. -/
theorem RelayQueue.Sound.step (hs : s.Sound config.portRange)
    (hused : s.WakeupsUsed config.portRange action) (hstep : s.step config action = some t) :
    t.Sound config.portRange := by
  have hchange := RelayQueue.change_of_step hstep
  exact ⟨hs.tidy.change hchange, hs.covered.change hs.tidy hused hchange⟩

/-- **No wake-up is lost.**  In every run whose steps all use their wake-ups,
no state is reached in which all queued handlers are parked, nothing is on its
way to wake one, and a parked handler would get a port. -/
theorem no_lost_wakeup
    (hreach : Reaches (RelayQueue.step config) (RelayQueue.WakeupsUsed config.portRange) {} s) :
    ¬ s.LostWakeup config.portRange := by
  have hsound : s.Sound config.portRange :=
    hreach.invariant RelayQueue.sound_start (fun _ _ _ hs hused hstep => hs.step hused hstep)
  intro hlost
  obtain ⟨hrest, hpermit, hreleasing, id, h, hlookup, hphase, hsucceeds⟩ := hlost
  obtain ⟨W, hW, hbound⟩ := hsound.covered
  have hempty : W = ∅ := by
    apply Finset.eq_empty_of_forall_notMem
    intro i hi
    obtain ⟨found, hfound, hwoken⟩ := (hW i).mp hi
    have hparked : found.restsParked = true := hrest i found hfound
    obtain ⟨hqueued, htrying⟩ := Bool.and_eq_true_iff.mp hwoken
    unfold restsParked at hparked
    rw [beq_iff_eq.mp htrying, hqueued] at hparked
    cases hparked
  obtain ⟨p, hcan⟩ := succeeds_iff.mp hsucceeds
  have hwaits : h.waits = true := by simp [waits, idle, hphase]
  rw [hempty, hpermit, hreleasing] at hbound
  exact hbound.not_related id p ⟨h, hlookup, hwaits, hcan⟩

/-- The only waiting client gets the port that is released. -/
theorem no_lost_wakeup_single :
    ∃ s, Reaches (RelayQueue.step twoPorts) (RelayQueue.WakeupsUsed twoPorts.portRange) {} s ∧
      s.waitingClients = 0 ∧ ¬ s.LostWakeup twoPorts.portRange := by
  have hfirst : ∀ (s : RelayQueue) (id mixed : Nat),
      (s.handlers.lookup id).all (fun h => !h.woken) = true →
      s.WakeupsUsed twoPorts.portRange (.tryAllocate id mixed) := by
    intro s id mixed hnot h hlookup hwoken
    rw [hlookup] at hnot
    simp [hwoken] at hnot
  have hguarded : Guarded (RelayQueue.step twoPorts) (RelayQueue.WakeupsUsed twoPorts.portRange) {}
      (portsTaken ++ anonymousWaits ++
        [.release 40001, .releaseNotify, .tryAllocate 3 0, .leave 3]) := by
    refine ⟨trivial, hfirst _ 0 0 rfl, trivial, hfirst _ 1 0 rfl, trivial, hfirst _ 3 0 rfl, trivial,
      trivial, ?_, ?_, ?_, trivial, trivial⟩
    · intro allocation hlookup id h _ _ hne
      cases hlookup
      exact hne
    · intro hpermit
      cases hpermit
    · intro h hlookup _
      cases hlookup
      exact .inl ⟨0, 40001, _, rfl⟩
  have hreach := reaches_of_guarded hguarded rfl
  exact ⟨_, hreach, rfl, no_lost_wakeup hreach⟩

end FerrumProxy
