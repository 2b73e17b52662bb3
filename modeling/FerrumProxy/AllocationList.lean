import FerrumProxy.ConnectTargets
import FerrumProxy.ControlSecrecy
import FerrumProxy.TextSearch

/-!
# Reading the list of allocations

A desktop client asks the relay for its list every two seconds, and takes its share for lost if
no line contains `port=` with its number and a blank.  A line also has the token of the
allocation, with a blank behind it.
-/

namespace Str

/-! ### Words with a blank behind them -/

variable {c : Char} {w piece : Text}

open List

theorem prefix_append_iff (hw : c ∉ w) (hpiece : c ∉ piece) (v rest : Text) :
    w ++ c :: v <+: piece ++ c :: rest ↔ w = piece ∧ v <+: rest := by
  induction w generalizing piece with
  | nil =>
    cases piece with
    | nil => simp
    | cons d piece =>
      have hne : c ≠ d := fun heq => hpiece (heq ▸ mem_cons_self)
      simp [hne]
  | cons a w ih =>
    rw [mem_cons, not_or] at hw
    cases piece with
    | nil => simp [Ne.symm hw.1]
    | cons d piece =>
      rw [mem_cons, not_or] at hpiece
      simp only [cons_append, cons_prefix_cons, ih hw.2 hpiece.2, List.cons.injEq, and_assoc]

/-- A word with its separator and more stands around the separator, or behind it. -/
theorem infix_append_iff (hw : c ∉ w) (hpiece : c ∉ piece) (v rest : Text) :
    w ++ c :: v <:+: piece ++ c :: rest ↔ w <:+ piece ∧ v <+: rest ∨ w ++ c :: v <:+: rest := by
  induction piece with
  | nil =>
    rw [nil_append, infix_cons_iff, suffix_nil]
    exact or_congr_left (prefix_append_iff hw hpiece v rest)
  | cons d piece ih =>
    have hrest : c ∉ piece := fun hmem => hpiece (mem_cons_of_mem d hmem)
    rw [cons_append, infix_cons_iff, ih hrest, suffix_cons_iff, or_and_right, or_assoc]
    exact or_congr_left (prefix_append_iff hw hpiece v rest)

/-- A word that starts with a letter which the first part does not have is in the second part. -/
theorem suffix_of_suffix_append {first second : Text} (hfirst : c ∉ first)
    (h : c :: w <:+ first ++ second) : c :: w <:+ second := by
  induction first with
  | nil => exact h
  | cons d first ih =>
    cases suffix_cons_iff.mp h with
    | inl heq =>
      cases heq
      exact absurd mem_cons_self hfirst
    | inr hrest => exact ih (fun hmem => hfirst (mem_cons_of_mem d hmem)) hrest

theorem lines_append_feed {l : Text} (hfeed : '\n' ∉ l) (hreturn : '\r' ∉ l) (rest : Text) :
    lines (l ++ '\n' :: rest) = l :: lines rest := by
  induction l with
  | nil => rfl
  | cons c l ih =>
    rw [mem_cons, not_or] at hfeed hreturn
    exact lines_cons (fun _ hc _ => hreturn.1 hc.symm) (Ne.symm hfeed.1) (ih hfeed.2 hreturn.2)

theorem strLines_feeds {ls : List Text} (h : ∀ l ∈ ls, '\n' ∉ l ∧ '\r' ∉ l) :
    strLines (ls.flatMap (· ++ ['\n'])) = ls := by
  have hlines : lines (ls.flatMap (· ++ ['\n'])) = ls ++ [[]] := by
    induction ls with
    | nil => rfl
    | cons l ls ih =>
      obtain ⟨hl, hls⟩ := forall_mem_cons.mp h
      rw [flatMap_cons, append_assoc, singleton_append,
        lines_append_feed hl.1 hl.2, ih hls, cons_append]
  rw [strLines, hlines, List.getLast?_concat, if_pos rfl, dropLast_concat]

end Str

namespace FerrumProxy

open Str List

/-- The words that are searched for, without the blank. -/
def portWord (port : Port) : Text := "port=".toList ++ Nat.toDigits 10 port.toNat

def relayListContainsPort (response : Text) (publicPort : Port) : Bool :=
  (strLines response).any (fun line => decide (portWord publicPort ++ [' '] <:+: line))

/-- What a line says of the token. -/
def PortAllocation.tokenText (allocation : PortAllocation) : Text :=
  allocation.token.getD "anonymous".toList

variable {p q : Port} {c : Char} {w : Text} {portAllocations : PortAllocations} {order : List Port}

theorem toDigits_inj (h : Nat.toDigits 10 p.toNat = Nat.toDigits 10 q.toNat) : p = q :=
  Option.some.inj ((parseU16_toDigits p).symm.trans ((congrArg parseU16 h).trans
    (parseU16_toDigits q)))

theorem visible_of_all (h : w.all (fun c => !isWhitespace c) = true) :
    ∀ c ∈ w, isWhitespace c = false := by
  intro c hmem
  simpa using List.all_eq_true.mp h c hmem

theorem portWord_visible (port : Port) : ∀ c ∈ portWord port, isWhitespace c = false := by
  intro c hmem
  cases mem_append.mp hmem with
  | inl hword => exact visible_of_all (by decide) c hword
  | inr hdigit => exact digit_visible hdigit

theorem notMem_of_visible (hc : isWhitespace c = true) (h : ∀ d ∈ w, isWhitespace d = false) :
    c ∉ w := by
  intro hmem
  rw [h c hmem] at hc
  cases hc

theorem suffix_portWord_iff : portWord p <:+ portWord q ↔ p = q := by
  constructor
  · intro h
    cases suffix_cons_iff.mp h with
    | inl heq => exact toDigits_inj (append_cancel_left heq)
    | inr hrest =>
      have hletter : 'p' ∈ "ort=".toList ++ Nat.toDigits 10 q.toNat :=
        hrest.subset mem_cons_self
      exact absurd hletter (not_mem_append (by decide) (notMem_toDigits (by decide) _))
  · intro heq
    rw [heq]

section

variable {Document : Type} {env : ControlEnv Document}

theorem allocationLine_eq (port : Port) (allocation : PortAllocation) :
    allocationLine env port allocation =
      [] ++ ' ' :: ([] ++ ' ' :: (portWord port ++ ' ' :: ("token=".toList ++
        allocation.tokenText ++ ' ' :: ("client=".toList ++
          env.displayAddr allocation.clientAddr)))) := by
  unfold allocationLine portWord PortAllocation.tokenText
  simp only [toString, Nat.repr, String.toList_append, String.toList_ofList, append_assoc,
    nil_append]
  rfl

variable (hshown : ∀ addr, ∀ c ∈ env.displayAddr addr, isWhitespace c = false)

include hshown

variable {port other : Port} {allocation : PortAllocation}
  (htoken : ∀ c ∈ allocation.tokenText, isWhitespace c = false)

include htoken

theorem infix_allocationLine_iff :
    portWord port ++ [' '] <:+: allocationLine env other allocation ↔
      port = other ∨ portWord port <:+ allocation.tokenText := by
  have hblank : ∀ {w : Text}, (∀ c ∈ w, isWhitespace c = false) → ' ' ∉ w :=
    notMem_of_visible (by decide)
  have hport : ∀ p, ' ' ∉ portWord p := fun p => hblank (portWord_visible p)
  have hne : ¬ portWord port <:+ [] := fun h => nomatch suffix_nil.mp h
  have hclient : ¬ portWord port ++ [' '] <:+: "client=".toList ++
      env.displayAddr allocation.clientAddr := by
    intro h
    exact absurd (h.subset (mem_append_right _ mem_cons_self))
      (not_mem_append (by decide) (hblank (hshown _)))
  have hword : portWord port <:+ "token=".toList ++ allocation.tokenText ↔
      portWord port <:+ allocation.tokenText :=
    ⟨suffix_of_suffix_append (by decide), fun h => h.trans (suffix_append _ _)⟩
  have htokenWord : ' ' ∉ "token=".toList ++ allocation.tokenText :=
    not_mem_append (by decide) (hblank htoken)
  rw [allocationLine_eq, infix_append_iff (hport port) not_mem_nil,
    infix_append_iff (hport port) not_mem_nil, infix_append_iff (hport port) (hport other),
    infix_append_iff (hport port) htokenWord, suffix_portWord_iff, hword]
  simp only [hne, hclient, nil_prefix, and_true, false_or, or_false]

theorem notMem_allocationLine (hc : isWhitespace c = true) (hblank : c ≠ ' ') :
    c ∉ allocationLine env other allocation := by
  rw [allocationLine_eq]
  simp only [nil_append, mem_cons, mem_append, hblank, false_or,
    notMem_of_visible hc (portWord_visible other), notMem_of_visible hc htoken,
    notMem_of_visible hc (hshown allocation.clientAddr),
    notMem_of_visible hc (@visible_of_all "token=".toList (by decide)),
    notMem_of_visible hc (@visible_of_all "client=".toList (by decide)),
    not_false_eq_true]

omit htoken

theorem strLines_handleListAllocations (horder : order.Perm portAllocations.keys)
    (htokens : ∀ other allocation, portAllocations.lookup other = some allocation →
      ∀ c ∈ allocation.tokenText, isWhitespace c = false) :
    ∃ first, 'r' ∉ first ∧ strLines (handleListAllocations env portAllocations order) =
      first :: allocationLines env portAllocations order := by
  cases hentries : portAllocations.entries with
  | nil =>
    have hkeys : portAllocations.keys = [] := by rw [AList.keys, hentries]; rfl
    rw [hkeys, perm_nil] at horder
    refine ⟨"LIST empty".toList, by decide, ?_⟩
    rw [handleListAllocations, hentries, horder]
    rfl
  | cons entry entries =>
    have hmem : entry ∈ portAllocations.entries := by rw [hentries]; exact mem_cons_self
    have hlookup : portAllocations.lookup entry.1 = some entry.2 := AList.mem_lookup_iff.mpr hmem
    have hin : entry.1 ∈ order := horder.mem_iff.mpr (List.mem_map_of_mem hmem)
    have hne : allocationLines env portAllocations order ≠ [] :=
      ne_nil_of_mem (mem_filterMap.mpr ⟨entry.1, hin, by rw [hlookup]; rfl⟩)
    have hlines : ∀ l ∈ allocationLines env portAllocations order, '\n' ∉ l ∧ '\r' ∉ l := by
      intro l hl
      obtain ⟨other, _, hl⟩ := mem_filterMap.mp hl
      obtain ⟨allocation, hlookup, rfl⟩ := Option.map_eq_some_iff.mp hl
      have htoken := htokens other allocation hlookup
      exact ⟨notMem_allocationLine hshown htoken (by decide) (by decide),
        notMem_allocationLine hshown htoken (by decide) (by decide)⟩
    have hfirst : ∀ c, c ∉ "LIST ".toList → c.isDigit = false →
        c ∉ "LIST ".toList ++ Nat.toDigits 10 portAllocations.entries.length :=
      fun c hc hdigit => not_mem_append hc (notMem_toDigits hdigit _)
    refine ⟨_, hfirst 'r' (by decide) (by decide), ?_⟩
    rw [← strLines_feeds (forall_mem_cons.mpr
      ⟨⟨hfirst '\n' (by decide) (by decide), hfirst '\r' (by decide) (by decide)⟩, hlines⟩),
      flatMap_cons, ← intercalate_append_self _ hne]
    rw [handleListAllocations, if_neg (by rw [hentries]; simp)]
    simp [toString, Nat.repr]

theorem relayListContainsPort_iff (horder : order.Perm portAllocations.keys)
    (htokens : ∀ other allocation, portAllocations.lookup other = some allocation →
      ∀ c ∈ allocation.tokenText, isWhitespace c = false) :
    relayListContainsPort (handleListAllocations env portAllocations order) port = true ↔
      ∃ other allocation, portAllocations.lookup other = some allocation ∧
        (port = other ∨ portWord port <:+ allocation.tokenText) := by
  obtain ⟨first, hletter, hlines⟩ := strLines_handleListAllocations hshown horder htokens
  have hfirst : ¬ portWord port ++ [' '] <:+: first := fun h =>
    hletter (h.subset (mem_append_left _ (mem_append_left _ (by decide))))
  simp only [relayListContainsPort, hlines, any_cons, decide_eq_false hfirst, Bool.false_or,
    List.any_eq_true, decide_eq_true_eq, allocationLines, mem_filterMap,
    Option.map_eq_some_iff]
  constructor
  · intro hshows
    obtain ⟨_, ⟨other, _, allocation, hlookup, rfl⟩, hword⟩ := hshows
    exact ⟨other, allocation, hlookup,
      (infix_allocationLine_iff hshown (htokens other allocation hlookup)).mp hword⟩
  · intro hshows
    obtain ⟨other, allocation, hlookup, hword⟩ := hshows
    have hmem : other ∈ order :=
      horder.mem_iff.mpr (AList.mem_keys.mp (AList.lookup_isSome.mp (by rw [hlookup]; rfl)))
    exact ⟨_, ⟨other, hmem, allocation, hlookup, rfl⟩,
      (infix_allocationLine_iff hshown (htokens other allocation hlookup)).mpr hword⟩

omit hshown

/-- For tokens without blanks the client reads the truth about a port exactly when the port is
allocated or no token ends with its words. -/
theorem list_contains_port_iff (env : ControlEnv Document)
    (hshown : ∀ addr, ∀ c ∈ env.displayAddr addr, isWhitespace c = false)
    {portAllocations : PortAllocations} {order : List Port}
    (horder : order.Perm portAllocations.keys)
    (htokens : ∀ other allocation, portAllocations.lookup other = some allocation →
      ∀ token, allocation.token = some token → ∀ c ∈ token, isWhitespace c = false)
    (port : Port) :
    (relayListContainsPort (handleListAllocations env portAllocations order) port = true ↔
        ∃ allocation, portAllocations.lookup port = some allocation) ↔
      ((∃ allocation, portAllocations.lookup port = some allocation) ∨
        ∀ other allocation, portAllocations.lookup other = some allocation →
          ∀ token, allocation.token = some token → ¬ portWord port <:+ token) := by
  have hanonymous : ¬ portWord port <:+ "anonymous".toList := by
    intro h
    exact absurd (h.subset mem_cons_self) (by decide)
  have hvisible : ∀ other allocation, portAllocations.lookup other = some allocation →
      ∀ c ∈ allocation.tokenText, isWhitespace c = false := by
    intro other allocation hlookup
    cases htoken : allocation.token with
    | none =>
      rw [PortAllocation.tokenText, htoken]
      exact visible_of_all (by decide)
    | some token =>
      rw [PortAllocation.tokenText, htoken]
      exact htokens other allocation hlookup token htoken
  have htext : ∀ allocation : PortAllocation, portWord port <:+ allocation.tokenText ↔
      ∃ token, allocation.token = some token ∧ portWord port <:+ token := by
    intro allocation
    rw [PortAllocation.tokenText]
    cases allocation.token with
    | none => exact iff_of_false hanonymous (fun h => nomatch h)
    | some token => simp
  simp only [relayListContainsPort_iff hshown horder hvisible, htext]
  by_cases hallocated : ∃ allocation, portAllocations.lookup port = some allocation
  · obtain ⟨allocation, hlookup⟩ := hallocated
    exact iff_of_true (iff_of_true ⟨port, allocation, hlookup, .inl rfl⟩ ⟨allocation, hlookup⟩)
      (.inl ⟨allocation, hlookup⟩)
  · rw [iff_false_right hallocated, or_iff_right hallocated]
    constructor
    · intro h other allocation hlookup token htoken hsuffix
      exact h ⟨other, allocation, hlookup, .inr ⟨token, htoken, hsuffix⟩⟩
    · intro h ⟨other, allocation, hlookup, hword⟩
      cases hword with
      | inl heq => exact hallocated ⟨allocation, heq ▸ hlookup⟩
      | inr hsuffix =>
        obtain ⟨token, htoken, hsuffix⟩ := hsuffix
        exact h other allocation hlookup token htoken hsuffix

end

/-- Port 40000 with a token. -/
def allocatedWith (token : Text) : PortAllocations :=
  AList.singleton 40000 ⟨40000, some token, ⟨.v4 (.new 192 0 2 1), 50000⟩⟩

/-- A token that does not look like a port. -/
theorem list_contains_port_iff_alpha :
    relayListContainsPort
        (handleListAllocations plainControlEnv (allocatedWith "alpha".toList) [40000]) 40001 = true ↔
      ∃ allocation, (allocatedWith "alpha".toList).lookup 40001 = some allocation := by
  refine (list_contains_port_iff plainControlEnv ?_ (by decide) ?_ 40001).mpr (.inr ?_)
  · intro addr c hmem
    have hshown : c ∈ "client:".toList ++ Nat.toDigits 10 addr.port.toNat := by
      simpa [plainControlEnv, toString, Nat.repr] using hmem
    cases mem_append.mp hshown with
    | inl hword => exact visible_of_all (by decide) c hword
    | inr hdigit => exact digit_visible hdigit
  · intro other allocation hlookup token htoken
    cases mem_singleton.mp (AList.mem_lookup_iff.mp hlookup)
    cases htoken
    exact visible_of_all (by decide)
  · intro other allocation hlookup token htoken
    cases mem_singleton.mp (AList.mem_lookup_iff.mp hlookup)
    cases htoken
    intro hsuffix
    have hletter : 'o' ∈ "alpha".toList := hsuffix.subset (mem_append_left _ (by decide))
    exact absurd hletter (by decide)

/-- The token `port=40001` at port 40000 passes for port 40001. -/
theorem token_looks_like_port :
    relayListContainsPort (handleListAllocations plainControlEnv
        (allocatedWith "port=40001".toList) [40000]) 40001 = true ∧
      (allocatedWith "port=40001".toList).lookup 40001 = none := by
  constructor
  · decide +kernel
  · rfl

end FerrumProxy
