import Mathlib

/-!
# Amounts spent in a window of time

A log lists what was spent and when.  An account that is refilled at a rate up to a burst bounds
what is spent in any window (`Within`).  The account may also be forgotten after a time of rest and
opened again with the full burst.  Where the rest is too short for the burst to be refilled, the
difference is a bonus, and a window may have one for every full time of rest in it (`Account`), or
one burst for every gap that is known (`Ledger`).
-/

namespace Windows

variable {K : Type*} [Field K] [LinearOrder K]

/-- What the log spends from `t₁` to `t₂`, both included. -/
def spentIn (t₁ t₂ : K) : List (K × K) → K
  | [] => 0
  | (time, amount) :: rest =>
    (if t₁ ≤ time ∧ time ≤ t₂ then amount else 0) + spentIn t₁ t₂ rest

/-- Windows that contain the same entries spend the same. -/
theorem spentIn_congr {t₁ t₂ u₁ u₂ : K} {log : List (K × K)}
    (h : ∀ s ∈ log, (t₁ ≤ s.1 ∧ s.1 ≤ t₂ ↔ u₁ ≤ s.1 ∧ s.1 ≤ u₂)) :
    spentIn t₁ t₂ log = spentIn u₁ u₂ log := by
  induction log with
  | nil => rfl
  | cons s rest ih =>
    obtain ⟨time, amount⟩ := s
    have hrest := ih (fun s hs => h s (List.mem_cons_of_mem _ hs))
    have hhead : (t₁ ≤ time ∧ time ≤ t₂) ↔ (u₁ ≤ time ∧ time ≤ u₂) :=
      h (time, amount) List.mem_cons_self
    unfold spentIn
    rw [if_congr hhead rfl rfl, hrest]

/-- A window without entries spends nothing. -/
theorem spentIn_eq_zero {t₁ t₂ : K} {log : List (K × K)}
    (h : ∀ s ∈ log, ¬ (t₁ ≤ s.1 ∧ s.1 ≤ t₂)) : spentIn t₁ t₂ log = 0 := by
  induction log with
  | nil => rfl
  | cons s rest ih =>
    obtain ⟨time, amount⟩ := s
    unfold spentIn
    rw [if_neg (h (time, amount) List.mem_cons_self), zero_add]
    exact ih (fun s hs => h s (List.mem_cons_of_mem _ hs))

theorem spentIn_later {log : List (K × K)} {anchor later : K} (hpast : ∀ s ∈ log, s.1 ≤ anchor)
    (t₁ : K) (hlater : anchor ≤ later) : spentIn t₁ later log = spentIn t₁ anchor log := by
  apply spentIn_congr
  intro s hs
  exact ⟨fun hin => ⟨hin.1, hpast s hs⟩, fun hin => ⟨hin.1, (hpast s hs).trans hlater⟩⟩

theorem spentIn_after {log : List (K × K)} {anchor t₁ : K} (hpast : ∀ s ∈ log, s.1 ≤ anchor)
    (hafter : anchor < t₁) (t₂ : K) : spentIn t₁ t₂ log = 0 := by
  apply spentIn_eq_zero
  intro s hs hin
  exact absurd (hin.1.trans (hpast s hs)) (not_le.mpr hafter)

/-! ### Limits -/

section Within

variable {limit limit' : K → K → K} {rate burst : K} {log : List (K × K)} {anchor later level : K}

/-- Every window of the log keeps within the limit, and of a window up to the anchor, which no
entry is after, the level is left. -/
structure Within (limit : K → K → K) (log : List (K × K)) (anchor level : K) : Prop where
  past : ∀ s ∈ log, s.1 ≤ anchor
  windows : ∀ t₁ t₂, t₁ ≤ t₂ → spentIn t₁ t₂ log ≤ limit t₁ t₂
  left : ∀ t₁, t₁ ≤ anchor → spentIn t₁ anchor log + level ≤ limit t₁ anchor

/-- Every window allows a burst, and longer windows as much more as is refilled. -/
structure Grows (limit : K → K → K) (rate burst : K) : Prop where
  rate_nonneg : 0 ≤ rate
  burst_nonneg : 0 ≤ burst
  burst_le : ∀ t₁ t₂, t₁ ≤ t₂ → burst ≤ limit t₁ t₂
  add_le : ∀ t₁ t₂ u₂, t₂ ≤ u₂ → limit t₁ t₂ + rate * (u₂ - t₂) ≤ limit t₁ u₂

theorem within_nil (hgrows : Grows limit rate burst) (anchor : K) :
    Within limit [] anchor burst where
  past s hs := by cases hs
  windows t₁ t₂ hle := hgrows.burst_nonneg.trans (hgrows.burst_le t₁ t₂ hle)
  left t₁ hle := by
    rw [spentIn, zero_add]
    exact hgrows.burst_le t₁ anchor hle

variable [IsStrictOrderedRing K]

/-- The account at a later time, with what it was refilled. -/
theorem Within.refill (h : Within limit log anchor level) (hgrows : Grows limit rate burst)
    (hlater : anchor ≤ later) {refilled : K} (hburst : refilled ≤ burst)
    (hrefilled : refilled ≤ level + rate * (later - anchor)) : Within limit log later refilled where
  past s hs := (h.past s hs).trans hlater
  windows := h.windows
  left t₁ hle := by
    rcases le_or_gt t₁ anchor with hbefore | hafter
    · have hleft := h.left t₁ hbefore
      have hmore := hgrows.add_le t₁ anchor later hlater
      rw [spentIn_later h.past t₁ hlater]
      linarith
    · rw [spentIn_after h.past hafter, zero_add]
      exact hburst.trans (hgrows.burst_le t₁ later hle)

/-- An account is opened anew, if the windows from before allow a burst more. -/
theorem Within.reopen (h : Within limit log anchor level) (hgrows : Grows limit' rate burst)
    (hlevel : 0 ≤ level) (hlater : anchor ≤ later)
    (hle : ∀ t₁ t₂, t₁ ≤ t₂ → limit t₁ t₂ ≤ limit' t₁ t₂)
    (hmore : ∀ t₁, t₁ ≤ anchor → limit t₁ anchor + burst ≤ limit' t₁ later) :
    Within limit' log later burst where
  past s hs := (h.past s hs).trans hlater
  windows t₁ t₂ hwindow := (h.windows t₁ t₂ hwindow).trans (hle t₁ t₂ hwindow)
  left t₁ hwindow := by
    rcases le_or_gt t₁ anchor with hbefore | hafter
    · have hleft := h.left t₁ hbefore
      have hburst := hmore t₁ hbefore
      rw [spentIn_later h.past t₁ hlater]
      linarith
    · rw [spentIn_after h.past hafter, zero_add]
      exact hgrows.burst_le t₁ later hwindow

theorem Within.spend (h : Within limit log anchor level) (hgrows : Grows limit rate burst)
    {amount : K} (hamount : amount ≤ level) :
    Within limit ((anchor, amount) :: log) anchor (level - amount) where
  past s hs := by
    rcases List.mem_cons.mp hs with rfl | hold
    · exact le_refl _
    · exact h.past s hold
  windows t₁ t₂ hle := by
    unfold spentIn
    by_cases hin : t₁ ≤ anchor ∧ anchor ≤ t₂
    · have hleft := h.left t₁ hin.1
      have hmore := hgrows.add_le t₁ anchor t₂ hin.2
      have hrefill := mul_nonneg hgrows.rate_nonneg (sub_nonneg.mpr hin.2)
      rw [if_pos hin, spentIn_later h.past t₁ hin.2]
      linarith
    · rw [if_neg hin, zero_add]
      exact h.windows t₁ t₂ hle
  left t₁ hle := by
    have hleft := h.left t₁ hle
    unfold spentIn
    rw [if_pos ⟨hle, le_refl anchor⟩]
    linarith

end Within

/-! ### The allowance -/

/-- The terms of an account: what it refills in a unit of time, how much it
holds, and after how much rest it may be forgotten. -/
structure Terms (K : Type*) [Field K] [LinearOrder K] where
  rate : K
  burst : K
  rest : K
  rate_nonneg : 0 ≤ rate
  burst_nonneg : 0 ≤ burst
  rest_pos : 0 < rest

variable (terms : Terms K)

/-- What a forgotten account gains over one that was refilled during its rest. -/
def Terms.bonus : K := max 0 (terms.burst - terms.rate * terms.rest)

theorem bonus_nonneg : 0 ≤ terms.bonus := le_max_left _ _

variable [IsStrictOrderedRing K] [FloorRing K]

/-- What may be spent in a window of the given length. -/
def Terms.allowance (length : K) : K :=
  terms.burst + terms.rate * length + ⌊length / terms.rest⌋ * terms.bonus

/-- Longer windows allow as much more as is refilled. -/
theorem allowance_add_le (length : K) {more : K} (hmore : 0 ≤ more) :
    terms.allowance length + terms.rate * more ≤ terms.allowance (length + more) := by
  have hfloor : (⌊length / terms.rest⌋ : K) ≤ ⌊(length + more) / terms.rest⌋ := by
    have hle : length / terms.rest ≤ (length + more) / terms.rest :=
      div_le_div_of_nonneg_right (le_add_of_nonneg_right hmore) terms.rest_pos.le
    exact_mod_cast Int.floor_le_floor hle
  have hbonus := mul_le_mul_of_nonneg_right hfloor (bonus_nonneg terms)
  unfold Terms.allowance
  rw [mul_add]
  linarith

theorem burst_le_allowance {length : K} (hlength : 0 ≤ length) :
    terms.burst ≤ terms.allowance length := by
  have hzero : terms.allowance 0 = terms.burst := by
    simp [Terms.allowance]
  have hadd := allowance_add_le terms 0 hlength
  rw [hzero, zero_add] at hadd
  have hrefill := mul_nonneg terms.rate_nonneg hlength
  linarith

theorem allowance_add_burst_le (length : K) {more : K} (hmore : terms.rest ≤ more) :
    terms.allowance length + terms.burst ≤ terms.allowance (length + more) := by
  have hstep : terms.allowance length + terms.burst ≤ terms.allowance (length + terms.rest) := by
    have hfloor : (⌊(length + terms.rest) / terms.rest⌋ : K) = ⌊length / terms.rest⌋ + 1 := by
      rw [add_div, div_self terms.rest_pos.ne', Int.floor_add_one]
      push_cast
      rfl
    have hbonus : terms.burst - terms.rate * terms.rest ≤ terms.bonus := le_max_right _ _
    unfold Terms.allowance
    rw [hfloor, add_mul, mul_add]
    linarith
  have hrest : 0 ≤ more - terms.rest := sub_nonneg.mpr hmore
  have hlong := allowance_add_le terms (length + terms.rest) hrest
  have hrefill := mul_nonneg terms.rate_nonneg hrest
  have hsum : length + terms.rest + (more - terms.rest) = length + more := by ring
  rw [hsum] at hlong
  linarith

/-! ### Accounts -/

/-- What may be spent from `t₁` to `t₂`. -/
def Terms.limit (t₁ t₂ : K) : K := terms.allowance (t₂ - t₁)

/-- An account that is forgotten after a time of rest. -/
abbrev Account (log : List (K × K)) (anchor level : K) : Prop :=
  Within terms.limit log anchor level

theorem limit_grows : Grows terms.limit terms.rate terms.burst where
  rate_nonneg := terms.rate_nonneg
  burst_nonneg := terms.burst_nonneg
  burst_le t₁ t₂ hle := burst_le_allowance terms (sub_nonneg.mpr hle)
  add_le t₁ t₂ u₂ hle := by
    have hmore := allowance_add_le terms (t₂ - t₁) (sub_nonneg.mpr hle)
    have hsum : t₂ - t₁ + (u₂ - t₂) = u₂ - t₁ := by ring
    rwa [hsum] at hmore

variable {terms} {log : List (K × K)} {anchor later level : K}

/-- An account that has rested long enough may be opened anew. -/
theorem Account.reopen (h : Account terms log anchor level) (hlevel : 0 ≤ level)
    (hrest : anchor + terms.rest ≤ later) : Account terms log later terms.burst := by
  have hlater : anchor ≤ later := by linarith [terms.rest_pos]
  refine Within.reopen h (limit_grows terms) hlevel hlater (fun _ _ _ => le_refl _)
    (fun t₁ _ => ?_)
  have hmore := allowance_add_burst_le terms (anchor - t₁)
    (show terms.rest ≤ later - anchor by linarith)
  have hsum : anchor - t₁ + (later - anchor) = later - t₁ := by ring
  rwa [hsum] at hmore

/-! ### Accounts that are forgotten at known times -/

omit [IsStrictOrderedRing K] [FloorRing K]

/-- The gaps, from the last use to the time of being forgotten, that a window contains. -/
def gapsIn (t₁ t₂ : K) (gaps : List (K × K)) : Nat :=
  gaps.countP (fun gap => t₁ ≤ gap.1 ∧ gap.2 ≤ t₂)

omit [Field K] in
theorem gapsIn_mono {t₁ t₂ u₂ : K} (gaps : List (K × K)) (hle : t₂ ≤ u₂) :
    gapsIn t₁ t₂ gaps ≤ gapsIn t₁ u₂ gaps := by
  refine List.countP_mono_left (fun gap _ hgap => ?_)
  obtain ⟨hfirst, hlast⟩ := of_decide_eq_true hgap
  exact decide_eq_true ⟨hfirst, hlast.trans hle⟩

omit [Field K] in
theorem gapsIn_le_cons (t₁ t₂ : K) (gap : K × K) (gaps : List (K × K)) :
    gapsIn t₁ t₂ gaps ≤ gapsIn t₁ t₂ (gap :: gaps) := by
  rw [gapsIn, gapsIn, List.countP_cons]
  exact Nat.le_add_right _ _

/-- What may be spent in a window: a burst, the refill, and a burst for every gap. -/
def gapLimit (rate burst : K) (gaps : List (K × K)) (t₁ t₂ : K) : K :=
  burst + rate * (t₂ - t₁) + burst * gapsIn t₁ t₂ gaps

abbrev Ledger (rate burst : K) (log gaps : List (K × K)) (anchor level : K) : Prop :=
  Within (gapLimit rate burst gaps) log anchor level

section Ledger

variable [IsStrictOrderedRing K] {rate burst : K} {gaps : List (K × K)}

theorem gapLimit_grows (hrate : 0 ≤ rate) (hburst : 0 ≤ burst) (gaps : List (K × K)) :
    Grows (gapLimit rate burst gaps) rate burst where
  rate_nonneg := hrate
  burst_nonneg := hburst
  burst_le t₁ t₂ hle := by
    have hrefill := mul_nonneg hrate (sub_nonneg.mpr hle)
    have hgaps : 0 ≤ burst * (gapsIn t₁ t₂ gaps : K) := mul_nonneg hburst (Nat.cast_nonneg _)
    unfold gapLimit
    linarith
  add_le t₁ t₂ u₂ hle := by
    have hgaps : (gapsIn t₁ t₂ gaps : K) ≤ gapsIn t₁ u₂ gaps := by
      exact_mod_cast gapsIn_mono gaps hle
    have hmul := mul_le_mul_of_nonneg_left hgaps hburst
    unfold gapLimit
    linarith

theorem gapLimit_le_cons (hburst : 0 ≤ burst) (gap : K × K) (t₁ t₂ : K) :
    gapLimit rate burst gaps t₁ t₂ ≤ gapLimit rate burst (gap :: gaps) t₁ t₂ := by
  have hgaps : (gapsIn t₁ t₂ gaps : K) ≤ gapsIn t₁ t₂ (gap :: gaps) := by
    exact_mod_cast gapsIn_le_cons t₁ t₂ gap gaps
  have hmul := mul_le_mul_of_nonneg_left hgaps hburst
  unfold gapLimit
  linarith

omit [IsStrictOrderedRing K] in
theorem gapLimit_cons_of_mem {gap : K × K} {t₁ t₂ : K} (hfirst : t₁ ≤ gap.1)
    (hlast : gap.2 ≤ t₂) :
    gapLimit rate burst (gap :: gaps) t₁ t₂ = gapLimit rate burst gaps t₁ t₂ + burst := by
  have hgaps : gapsIn t₁ t₂ (gap :: gaps) = gapsIn t₁ t₂ gaps + 1 :=
    List.countP_cons_of_pos (decide_eq_true ⟨hfirst, hlast⟩)
  rw [gapLimit, hgaps, gapLimit]
  push_cast
  ring

/-- An account that was forgotten is opened anew, and the gap is noted. -/
theorem Ledger.forget (hrate : 0 ≤ rate) (hburst : 0 ≤ burst)
    (h : Ledger rate burst log gaps anchor level) (hlevel : 0 ≤ level) (hlater : anchor ≤ later) :
    Ledger rate burst log ((anchor, later) :: gaps) later burst := by
  refine Within.reopen h (gapLimit_grows hrate hburst _) hlevel hlater
    (fun t₁ t₂ _ => gapLimit_le_cons hburst _ t₁ t₂) (fun t₁ hbefore => ?_)
  have hmore := (gapLimit_grows hrate hburst gaps).add_le t₁ anchor later hlater
  have hrefill := mul_nonneg hrate (sub_nonneg.mpr hlater)
  rw [gapLimit_cons_of_mem hbefore (le_refl later)]
  linarith

end Ledger

end Windows
