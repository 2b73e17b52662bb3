import FerrumProxy.AllocationList

/-!
# The ports that are opened in the firewall

`ensure_ports_open` with the ufw backend asks for each TCP and UDP port of each listener whether
`ufw status` contains `port/protocol`, and adds the rule otherwise.
-/

namespace FerrumProxy

open Str List

/-- A rule of the firewall, as `ufw status` shows it and `ufw allow` adds it. -/
structure PortRule where
  port : UInt16
  proto : Protocol
  deriving DecidableEq

def protoStr : Protocol → Text
  | .tcp => "tcp".toList
  | .udp => "udp".toList

def PortRule.needle (rule : PortRule) : Text :=
  Nat.toDigits 10 rule.port.toNat ++ '/' :: protoStr rule.proto

/-- What `ufw status` prints around the rules: each has a line that starts with its port and
protocol and goes on with columns that show no other one. -/
structure UfwStatus where
  header : Text
  columns : PortRule → Text
  footer : Text
  slash_header : '/' ∉ header
  slash_columns : ∀ rule, '/' ∉ columns rule
  slash_footer : '/' ∉ footer

section

variable (ufw : UfwStatus)

def UfwStatus.rows (rules : List PortRule) : Text :=
  rules.flatMap (fun rule => '\n' :: (rule.needle ++ ufw.columns rule)) ++ ufw.footer

def ruleExists (rules : List PortRule) (wanted : PortRule) : Bool :=
  decide (wanted.needle <:+: ufw.header ++ ufw.rows rules)

/-- Every command succeeds: the status is shown, and `ufw allow` adds the rule. -/
def ensurePort (rules : List PortRule) (wanted : PortRule) : List PortRule :=
  if ruleExists ufw rules wanted then rules else rules ++ [wanted]

def ensurePortsOpen (listeners : List ListenerRule) (rules : List PortRule) : List PortRule :=
  listeners.foldl (fun rules rule =>
    let rules := match rule.tcp with
      | some port => ensurePort ufw rules ⟨port, .tcp⟩
      | none => rules
    match rule.udp with
      | some port => ensurePort ufw rules ⟨port, .udp⟩
      | none => rules) rules

end

/-- The ports of a listener, in the order in which they are looked at. -/
def ListenerRule.wantedPorts (rule : ListenerRule) : List PortRule :=
  rule.tcp.toList.map (⟨·, .tcp⟩) ++ rule.udp.toList.map (⟨·, .udp⟩)

/-- The digits of the wanted port stand at the end of those of the rule. -/
def PortRule.Shows (rule wanted : PortRule) : Prop :=
  Nat.toDigits 10 wanted.port.toNat <:+ Nat.toDigits 10 rule.port.toNat ∧ wanted.proto = rule.proto

instance (rule wanted : PortRule) : Decidable (rule.Shows wanted) :=
  inferInstanceAs (Decidable (_ ∧ _))

/-- A port that has no rule of its own when its turn comes is shown by no other rule. -/
def Unshadowed (rules : List PortRule) : List PortRule → Prop
  | [] => True
  | wanted :: rest =>
    (wanted ∈ rules ∧ Unshadowed rules rest) ∨
      (∀ rule ∈ rules, ¬ rule.Shows wanted) ∧ Unshadowed (rules ++ [wanted]) rest

variable {ufw : UfwStatus} {rules wanted : List PortRule} {w : PortRule}

theorem suffix_line_iff {digits front other : Text} (h : '\n' ∉ digits) :
    digits <:+ front ++ '\n' :: other ↔ digits <:+ other := by
  induction front with
  | nil =>
    rw [nil_append, suffix_cons_iff]
    exact or_iff_right (fun heq => h (heq ▸ mem_cons_self))
  | cons c front ih =>
    rw [cons_append, suffix_cons_iff, ih]
    exact or_iff_right (fun heq => h (heq ▸ by simp))

theorem slash_protoStr (proto : Protocol) : '/' ∉ protoStr proto := by
  cases proto <;> decide

theorem protoStr_prefix_iff {first second : Protocol} (rest : Text) :
    protoStr first <+: protoStr second ++ rest ↔ first = second := by
  cases first <;> cases second <;> simp [protoStr]

/-- **What the substring test sees.**  The status contains the needle exactly if one of the rules
ends in it. -/
theorem infix_rows_iff {front : Text} (hfront : '/' ∉ front) (rules : List PortRule) :
    w.needle <:+: front ++ ufw.rows rules ↔ ∃ rule ∈ rules, rule.Shows w := by
  induction rules generalizing front with
  | nil =>
    refine iff_of_false (fun h => ?_) (by simp)
    have hslash : '/' ∈ w.needle := by simp [PortRule.needle]
    exact not_mem_append hfront ufw.slash_footer (h.subset hslash)
  | cons rule rest ih =>
    have hdigits : ∀ n, '/' ∉ Nat.toDigits 10 n := notMem_toDigits (by decide)
    have hrow : front ++ ufw.rows (rule :: rest) =
        (front ++ '\n' :: Nat.toDigits 10 rule.port.toNat) ++
          '/' :: ((protoStr rule.proto ++ ufw.columns rule) ++ ufw.rows rest) := by
      simp [UfwStatus.rows, PortRule.needle]
    have hpiece : '/' ∉ front ++ '\n' :: Nat.toDigits 10 rule.port.toNat := by
      simp [hfront, hdigits]
    rw [hrow, PortRule.needle, infix_append_iff (hdigits _) hpiece,
      suffix_line_iff (notMem_toDigits (by decide) _), append_assoc, protoStr_prefix_iff,
      ← append_assoc, ← PortRule.needle,
      ih (not_mem_append (slash_protoStr _) (ufw.slash_columns rule))]
    simp only [exists_mem_cons_iff, PortRule.Shows]

theorem ruleExists_iff : ruleExists ufw rules w = true ↔ ∃ rule ∈ rules, rule.Shows w :=
  decide_eq_true_iff.trans (infix_rows_iff ufw.slash_header rules)

theorem ensurePort_of_exists (h : ∃ rule ∈ rules, rule.Shows w) : ensurePort ufw rules w = rules :=
  if_pos (ruleExists_iff.mpr h)

theorem ensurePort_of_not (h : ¬ ∃ rule ∈ rules, rule.Shows w) :
    ensurePort ufw rules w = rules ++ [w] :=
  if_neg (ruleExists_iff.not.mpr h)

theorem shows_self (w : PortRule) : w.Shows w := ⟨suffix_refl _, rfl⟩

/-- A port that another rule stands in for gets no rule any more. -/
theorem notMem_of_shown (hshown : ∃ rule ∈ rules, rule.Shows w) (hw : w ∉ rules)
    (wanted : List PortRule) : w ∉ wanted.foldl (ensurePort ufw) rules := by
  induction wanted generalizing rules with
  | nil => exact hw
  | cons next rest ih =>
    rw [foldl_cons]
    by_cases hnext : ∃ rule ∈ rules, rule.Shows next
    · rw [ensurePort_of_exists hnext]
      exact ih hshown hw
    · rw [ensurePort_of_not hnext]
      obtain ⟨rule, hrule, hshows⟩ := hshown
      refine ih ⟨rule, mem_append_left _ hrule, hshows⟩ (not_mem_append hw ?_)
      rw [mem_singleton]
      exact fun heq => hnext ⟨rule, hrule, heq ▸ hshows⟩

theorem mem_foldl_of_mem (hw : w ∈ rules) (wanted : List PortRule) :
    w ∈ wanted.foldl (ensurePort ufw) rules := by
  induction wanted generalizing rules with
  | nil => exact hw
  | cons next rest ih =>
    refine ih ?_
    unfold ensurePort
    split
    · exact hw
    · exact mem_append_left _ hw

theorem forall_mem_foldl_iff :
    (∀ w ∈ wanted, w ∈ wanted.foldl (ensurePort ufw) rules) ↔ Unshadowed rules wanted := by
  induction wanted generalizing rules with
  | nil => simp [Unshadowed]
  | cons w rest ih =>
    rw [forall_mem_cons, foldl_cons, ih, Unshadowed]
    by_cases hshown : ∃ rule ∈ rules, rule.Shows w
    · rw [ensurePort_of_exists hshown]
      have hnot : ¬ ∀ rule ∈ rules, ¬ rule.Shows w := by simpa using hshown
      have hmem : w ∈ rest.foldl (ensurePort ufw) rules ↔ w ∈ rules :=
        ⟨fun h => by_contra (fun hw => notMem_of_shown hshown hw rest h),
          fun h => mem_foldl_of_mem h rest⟩
      rw [hmem]
      exact (or_iff_left (fun h => hnot h.1)).symm
    · rw [ensurePort_of_not hshown]
      have hnot : ∀ rule ∈ rules, ¬ rule.Shows w := by simpa using hshown
      have hw : w ∉ rules := fun hw => hnot w hw (shows_self w)
      have hmem := @mem_foldl_of_mem ufw (rules ++ [w]) w (mem_append_right _ mem_cons_self) rest
      simp only [hw, hmem, true_and, false_and, false_or]
      exact (and_iff_right hnot).symm

theorem ensurePortsOpen_eq (listeners : List ListenerRule) (rules : List PortRule) :
    ensurePortsOpen ufw listeners rules =
      (listeners.flatMap ListenerRule.wantedPorts).foldl (ensurePort ufw) rules := by
  unfold ensurePortsOpen
  rw [foldl_flatMap]
  congr 1
  funext rules rule
  cases htcp : rule.tcp <;> cases hudp : rule.udp <;> simp [ListenerRule.wantedPorts, htcp, hudp]

/-- **Opening the ports.**  Every TCP and UDP port of every listener has its own rule in the end
exactly if no port without one was shown by another rule when its turn came. -/
theorem ensurePortsOpen_iff (ufw : UfwStatus) (listeners : List ListenerRule)
    (rules : List PortRule) :
    (∀ rule ∈ listeners,
      (∀ port, rule.tcp = some port → ⟨port, .tcp⟩ ∈ ensurePortsOpen ufw listeners rules) ∧
      ∀ port, rule.udp = some port → ⟨port, .udp⟩ ∈ ensurePortsOpen ufw listeners rules) ↔
      Unshadowed rules (listeners.flatMap ListenerRule.wantedPorts) := by
  rw [← forall_mem_foldl_iff, ← ensurePortsOpen_eq]
  simp only [mem_flatMap, ListenerRule.wantedPorts, mem_append, mem_map, Option.mem_toList]
  constructor
  · intro h w hw
    obtain ⟨rule, hrule, ⟨port, hport, rfl⟩ | ⟨port, hport, rfl⟩⟩ := hw
    · exact (h rule hrule).1 port hport
    · exact (h rule hrule).2 port hport
  · intro h rule hrule
    exact ⟨fun port hport => h _ ⟨rule, hrule, .inl ⟨port, hport, rfl⟩⟩,
      fun port hport => h _ ⟨rule, hrule, .inr ⟨port, hport, rfl⟩⟩⟩

/-- Port 18080 is open, so port 8080 of the listener stays closed. -/
theorem shadowed_port_stays_closed :
    ⟨8080, .tcp⟩ ∉ ensurePortsOpen ⟨[], fun _ => [], [], by decide, fun _ => by decide, by decide⟩
      [{ tcp := some 8080 }] [⟨18080, .tcp⟩] := by
  rw [ensurePortsOpen_eq]
  exact notMem_of_shown ⟨⟨18080, .tcp⟩, by decide, by decide +kernel⟩ (by decide) _

end FerrumProxy
