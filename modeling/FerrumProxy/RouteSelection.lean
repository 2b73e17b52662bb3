import FerrumProxy.MaxByKey
import FerrumProxy.ProxyPaths

/-!
# The route of a request

`ListenerRule::http_targets_for_request` keeps the mappings that match the host and the path of
a request and takes the one with the greatest key, the later one of two with the same key.
-/

namespace FerrumProxy

open Wire Str Lists

/-! ### What matches -/

/-- The request path starts with the mapping's path, which ends where a segment ends. -/
def Covers (mapping path : Text) : Prop :=
  ∃ rest, path = mapping ++ rest ∧
    (rest = [] ∨ rest.head? = some '/' ∨ mapping.getLast? = some '/')

theorem pathMatchesMapping_iff_covers (mapping : Text) {path : Text}
    (hpath : path.head? = some '/') :
    pathMatchesMapping path (normalizeMappingPath mapping) = true ↔
      Covers (normalizeMappingPath mapping) path := by
  rw [pathMatchesMapping_iff]
  rcases pathBase_normalizeMappingPath mapping with ⟨hroot, _⟩ | ⟨hroot, hmount, _⟩
  · obtain ⟨rest, hrest⟩ := List.head?_eq_some_iff.mp hpath
    rw [hroot]
    exact iff_of_true (.inl rfl) ⟨rest, hrest, .inr (.inr rfl)⟩
  · have hlast := pathBase_last (some (normalizeMappingPath mapping))
    rw [hmount] at hlast
    rw [or_iff_right hroot, under_iff]
    constructor
    · intro ⟨rest, happend, hrest⟩
      exact ⟨rest, happend, hrest.imp_right .inl⟩
    · intro ⟨rest, happend, hrest⟩
      exact ⟨rest, happend, hrest.imp_right (fun h => h.resolve_right hlast)⟩

/-- The mapping is for the host, or for every host, and for the path. -/
structure HttpTargetMapping.Matches (m : HttpTargetMapping) (path : Text) (host : Option Text) :
    Prop where
  path : Covers m.path path
  host : ∀ name, m.hostname = some name →
    ∃ actual, host = some actual ∧ eqIgnoreAsciiCase name actual = true

/-- The first is for one host and the second for all, or both are alike and the path of the
first is longer. -/
def HttpTargetMapping.MoreSpecific (a b : HttpTargetMapping) : Prop :=
  (a.hostname.isSome = true ∧ b.hostname.isSome = false) ∨
    (a.hostname.isSome = b.hostname.isSome ∧ b.path.length < a.path.length)

/-- A mapping as it is kept. -/
def HttpTargetMapping.IsNormal (url : UrlParser) (m : HttpTargetMapping) : Prop :=
  ∃ raw, m = HttpTargetMapping.normalize url raw

section Matching

variable {url : UrlParser} {a b m : HttpTargetMapping} {path : Text} {host : Option Text}

theorem mappingApplies_iff (hm : m.IsNormal url) (hpath : path.head? = some '/') :
    mappingApplies path host m = true ↔ m.Matches path host := by
  obtain ⟨raw, rfl⟩ := hm
  have hcovers := pathMatchesMapping_iff_covers raw.path hpath
  constructor
  · intro h
    rw [mappingApplies, Bool.and_eq_true] at h
    refine ⟨hcovers.mp h.1, fun name hname => ?_⟩
    have hhost := h.2
    rw [hname] at hhost
    cases host with
    | none => cases hhost
    | some actual => exact ⟨actual, rfl, hhost⟩
  · intro h
    rw [mappingApplies, Bool.and_eq_true]
    refine ⟨hcovers.mpr h.path, ?_⟩
    cases hname : (HttpTargetMapping.normalize url raw).hostname with
    | none => rfl
    | some name =>
      obtain ⟨actual, rfl, hactual⟩ := h.host name hname
      exact hactual

theorem HttpTargetMapping.Matches.isPrefix (h : m.Matches path host) : m.path <+: path := by
  obtain ⟨rest, happend, _⟩ := h.path
  exact ⟨rest, happend.symm⟩

/-- Of two beginnings of one path, the shorter one in bytes is the beginning of the other. -/
theorem prefix_of_byteLen_le {s t : Text} (hs : s <+: path) (ht : t <+: path)
    (h : byteLen s ≤ byteLen t) : s <+: t := by
  rcases List.prefix_or_prefix_of_prefix hs ht with hst | hts
  · exact hst
  · obtain ⟨rest, rfl⟩ := hts
    have hrest : rest = [] := by
      cases rest with
      | nil => rfl
      | cons c rest =>
        have hc : 0 < c.utf8Size := c.utf8Size_pos
        simp only [byteLen, List.map_append, List.sum_append, List.map_cons, List.sum_cons] at h
        omega
    rw [hrest, List.append_nil]

theorem specificityLe_iff :
    specificityLe a b = true ↔ (a.hostname.isSome = false ∧ b.hostname.isSome = true) ∨
      (a.hostname.isSome = b.hostname.isSome ∧ byteLen a.path ≤ byteLen b.path) := by
  simp [specificityLe]

theorem isRank_specificityLe : IsRank specificityLe where
  total a b := by
    rw [specificityLe_iff, specificityLe_iff]
    cases a.hostname.isSome <;> cases b.hostname.isSome <;> simp [Nat.le_total]
  trans {a b c} hab hbc := by
    rw [specificityLe_iff] at hab hbc ⊢
    rcases hab with ⟨hfree, hbound⟩ | ⟨hab, hle⟩
    · rcases hbc with ⟨hfree', _⟩ | ⟨hbc, _⟩
      · rw [hbound] at hfree'
        cases hfree'
      · exact .inl ⟨hfree, hbc ▸ hbound⟩
    · rcases hbc with ⟨hfree', hbound⟩ | ⟨hbc, hle'⟩
      · exact .inl ⟨hab ▸ hfree', hbound⟩
      · exact .inr ⟨hab.trans hbc, hle.trans hle'⟩

/-- Of two mappings that match, the one with the lesser key is not more specific. -/
theorem not_moreSpecific (ha : a.Matches path host) (hb : b.Matches path host)
    (hle : specificityLe a b = true) : ¬ a.MoreSpecific b := by
  intro hmore
  rcases specificityLe_iff.mp hle with ⟨hfree, hbound⟩ | ⟨hsame, hbytes⟩
  · rcases hmore with ⟨hbound', _⟩ | ⟨hsame, _⟩
    · rw [hfree] at hbound'
      cases hbound'
    · rw [hfree, hbound] at hsame
      cases hsame
  · rcases hmore with ⟨hbound, hfree⟩ | ⟨_, hlonger⟩
    · rw [hbound, hfree] at hsame
      cases hsame
    · have hprefix := prefix_of_byteLen_le ha.isPrefix hb.isPrefix hbytes
      exact absurd hprefix.length_le (Nat.not_le_of_lt hlonger)

/-- Two mappings that match one request and have the same key are for the same host and
path. -/
theorem eq_of_tie (ha : a.IsNormal url) (hb : b.IsNormal url) (hma : a.Matches path host)
    (hmb : b.Matches path host) (hab : specificityLe a b = true) (hba : specificityLe b a = true) :
    a.hostname = b.hostname ∧ a.path = b.path := by
  have hsame : a.hostname.isSome = b.hostname.isSome ∧ byteLen a.path ≤ byteLen b.path := by
    rcases specificityLe_iff.mp hab with ⟨hfree, hbound⟩ | hsame
    · rcases specificityLe_iff.mp hba with ⟨hfree', _⟩ | ⟨hsame, _⟩
      · rw [hbound] at hfree'
        cases hfree'
      · rw [hfree, hbound] at hsame
        cases hsame
    · exact hsame
  have hbytes : byteLen b.path ≤ byteLen a.path := by
    rcases specificityLe_iff.mp hba with ⟨hfree, hbound⟩ | ⟨_, hbytes⟩
    · rw [hsame.1, hfree] at hbound
      cases hbound
    · exact hbytes
  refine ⟨?_, (prefix_of_byteLen_le hma.isPrefix hmb.isPrefix hsame.2).eq_of_length_le
    (prefix_of_byteLen_le hmb.isPrefix hma.isPrefix hbytes).length_le⟩
  obtain ⟨rawA, rfl⟩ := ha
  obtain ⟨rawB, rfl⟩ := hb
  cases hnameA : (HttpTargetMapping.normalize url rawA).hostname with
  | none =>
    have hnone := hsame.1
    rw [hnameA] at hnone
    exact (Option.isSome_eq_false_iff.mp hnone.symm |> Option.isNone_iff_eq_none.mp).symm
  | some nameA =>
    obtain ⟨actual, rfl, hactualA⟩ := hma.host nameA hnameA
    cases hnameB : (HttpTargetMapping.normalize url rawB).hostname with
    | none =>
      have hnone := hsame.1
      rw [hnameA, hnameB] at hnone
      cases hnone
    | some nameB =>
      obtain ⟨_, hactual, hactualB⟩ := hmb.host nameB hnameB
      cases hactual
      rw [eqIgnoreAsciiCase, beq_iff_eq, normalizeHostname_lower hnameA] at hactualA
      rw [eqIgnoreAsciiCase, beq_iff_eq, normalizeHostname_lower hnameB] at hactualB
      rw [hactualA, hactualB]

end Matching

/-! ### The choice -/

section Choice

variable {url : UrlParser} {rule : ListenerRule} {path : Text}

/-- The targets of a mapping that has one for the protocol. -/
def HttpTargetMapping.targetsFor (m : HttpTargetMapping) (protocol : Protocol) :
    List ProxyTarget :=
  (chosenTargets m.target m.targets).filter (fun t => (t.portFor protocol).isSome)

theorem mostSpecific_eq (mappings : List HttpTargetMapping) :
    mostSpecific mappings = maxBy specificityLe mappings := by
  unfold mostSpecific maxBy
  congr 1
  funext best m
  cases best <;> rfl

/-- What `http_targets_for_request` answers, from the mapping it takes. -/
theorem httpTargetsForRequest_eq (protocol : Protocol) (host : Option Text) :
    rule.httpTargetsForRequest protocol (some path) host =
      ((maxBy specificityLe (rule.httpMappings.filter (mappingApplies path host))).map
        (fun m => m.targetsFor protocol)).getD [] := by
  rw [ListenerRule.httpTargetsForRequest, ← mostSpecific_eq]
  cases mostSpecific (rule.httpMappings.filter (mappingApplies path host)) <;> rfl

theorem mapping_of_route {protocol : Protocol} {host : Option Text} {target : ProxyTarget}
    (h : target ∈ rule.httpTargetsForRequest protocol (some path) host) :
    ∃ m ∈ rule.httpMappings,
      mappingApplies path host m = true ∧ target ∈ m.targetsFor protocol := by
  rw [httpTargetsForRequest_eq] at h
  cases hchosen : maxBy specificityLe (rule.httpMappings.filter (mappingApplies path host)) with
  | none =>
    rw [hchosen] at h
    cases h
  | some m =>
    rw [hchosen] at h
    obtain ⟨hm, happlies⟩ := List.mem_filter.mp (isRank_specificityLe.maxBy_spec hchosen).1
    exact ⟨m, hm, happlies, h⟩

theorem mem_applying (hnormal : ∀ m ∈ rule.httpMappings, m.IsNormal url)
    (hpath : path.head? = some '/') {host : Option Text} {m : HttpTargetMapping} :
    m ∈ rule.httpMappings.filter (mappingApplies path host) ↔
      m ∈ rule.httpMappings ∧ m.Matches path host := by
  rw [List.mem_filter]
  exact and_congr_right (fun hm => mappingApplies_iff (hnormal m hm) hpath)

/-- **The route is the most specific one, in whatever order the mappings are listed.** -/
theorem route_selection (hnormal : ∀ m ∈ rule.httpMappings, m.IsNormal url)
    (hdistinct : (rule.httpMappings.map (fun m => (m.hostname, m.path))).Nodup)
    (protocol : Protocol) (hpath : path.head? = some '/') (host : Option Text) :
    ((∃ m ∈ rule.httpMappings, m.Matches path host ∧
          (∀ other ∈ rule.httpMappings, other.Matches path host → ¬ other.MoreSpecific m) ∧
          rule.httpTargetsForRequest protocol (some path) host = m.targetsFor protocol) ∨
        ((∀ m ∈ rule.httpMappings, ¬ m.Matches path host) ∧
          rule.httpTargetsForRequest protocol (some path) host = [])) ∧
      ∀ other : ListenerRule, other.httpMappings.Perm rule.httpMappings →
        other.httpTargetsForRequest protocol (some path) host =
          rule.httpTargetsForRequest protocol (some path) host := by
  have happlying : ∀ {m}, m ∈ rule.httpMappings.filter (mappingApplies path host) ↔
      m ∈ rule.httpMappings ∧ m.Matches path host := mem_applying hnormal hpath
  constructor
  · rw [httpTargetsForRequest_eq]
    cases hchosen : maxBy specificityLe (rule.httpMappings.filter (mappingApplies path host)) with
    | none =>
      have hnil := isRank_specificityLe.maxBy_eq_none hchosen
      refine .inr ⟨fun m hm hmatches => ?_, rfl⟩
      have hmem := happlying.mpr ⟨hm, hmatches⟩
      rw [hnil] at hmem
      cases hmem
    | some m =>
      obtain ⟨hmem, hgreatest⟩ := isRank_specificityLe.maxBy_spec hchosen
      obtain ⟨hm, hmatches⟩ := happlying.mp hmem
      refine .inl ⟨m, hm, hmatches, fun other hother hothers => ?_, rfl⟩
      exact not_moreSpecific hothers hmatches (hgreatest other (happlying.mpr ⟨hother, hothers⟩))
  · intro other hperm
    -- two mappings with one key would be one mapping
    have hties : ∀ a ∈ rule.httpMappings.filter (mappingApplies path host),
        ∀ b ∈ rule.httpMappings.filter (mappingApplies path host),
        specificityLe a b = true → specificityLe b a = true → a = b := by
      intro a ha b hb hab hba
      obtain ⟨ha, hma⟩ := happlying.mp ha
      obtain ⟨hb, hmb⟩ := happlying.mp hb
      obtain ⟨hhost, hpaths⟩ := eq_of_tie (hnormal a ha) (hnormal b hb) hma hmb hab hba
      exact List.inj_on_of_nodup_map hdistinct ha hb (Prod.ext hhost hpaths)
    rw [httpTargetsForRequest_eq, httpTargetsForRequest_eq,
      isRank_specificityLe.maxBy_perm (hperm.symm.filter _) hties]

end Choice

/-- A mapping for every host and one for a host, and no URLs. -/
def twoMappings : ListenerRule where
  httpMappings :=
    [{ path := "/".toList, hostname := some "a".toList
       target := some { host := "one".toList, tcp := some 80 } },
      { path := "/app".toList, target := some { host := "two".toList, tcp := some 80 } }].map
    (HttpTargetMapping.normalize { parse := fun _ => none, host_not_absolute := nofun })

/-- The mapping for the host is taken although its path is shorter, and also if it comes
second. -/
theorem route_selection_reversed :
    ({ twoMappings with httpMappings := twoMappings.httpMappings.reverse } :
        ListenerRule).httpTargetsForRequest .tcp (some "/app/x".toList) (some "A".toList) =
      twoMappings.httpTargetsForRequest .tcp (some "/app/x".toList) (some "A".toList) := by
  have hnormal : ∀ m ∈ twoMappings.httpMappings,
      m.IsNormal { parse := fun _ => none, host_not_absolute := nofun } := by
    intro m hm
    obtain ⟨raw, _, rfl⟩ := List.mem_map.mp hm
    exact ⟨raw, rfl⟩
  exact (route_selection hnormal (by decide) .tcp rfl (some "A".toList)).2 _ (List.reverse_perm _)

end FerrumProxy
