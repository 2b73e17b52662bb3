import FerrumProxy.ConfigLoad

/-!
# What survives load, save and load

Every manager request that changes the configuration loads it, changes it and saves it.  Loading has
rewritten the targets in place, and saving drops the fields the rewriting filled in, so the question
is what a second load finds.
-/

namespace FerrumProxy

open Str Wire List

/-- The fields of a target that the proxy acts on: all but the URL it was
written as, which is only kept. -/
def ProxyTarget.acted (t : ProxyTarget) : ProxyTarget :=
  { t with originalUrl := none }

/-- The targets of a mapping, in their two places. -/
def HttpTargetMapping.actedTargets (m : HttpTargetMapping) :
    Option ProxyTarget × List ProxyTarget :=
  (m.target.map ProxyTarget.acted, m.targets.map ProxyTarget.acted)

/-- The targets of a listener and of each of its mappings. -/
def ListenerRule.actedTargets (rule : ListenerRule) :
    Option ProxyTarget × List ProxyTarget × List (Option ProxyTarget × List ProxyTarget) :=
  (rule.target.map ProxyTarget.acted, rule.targets.map ProxyTarget.acted,
    rule.httpMappings.map HttpTargetMapping.actedTargets)

def ProxyConfig.SameTargets (a b : ProxyConfig) : Prop :=
  a.listeners.map ListenerRule.actedTargets = b.listeners.map ListenerRule.actedTargets

/-! ### One target -/

variable (url : UrlParser)

/-- A target that is not written as an `http` or `https` URL, nor as any URL
with a path. -/
def ProxyTarget.Plain (t : ProxyTarget) : Prop :=
  ∀ u host, url.parse t.host = some u → u.host = some host →
    isHttpScheme u.scheme = false ∧ (u.path = [] ∨ u.path = "/".toList)

/-- Rewriting a target that was read from a file: either nothing happens, or
the host is no URL any more. -/
theorem normalizeUrlHost_cases (t : ProxyTarget) :
    (normalizeUrlHost url t = t ∧ t.Plain url) ∨
      (url.parse (normalizeUrlHost url t).host = none ∧
        ((normalizeUrlHost url t).urlProtocol = none ∧
          (normalizeUrlHost url t).urlBasePath = none ↔ t.Plain url)) := by
  cases hparse : url.parse t.host with
  | none =>
    left
    exact ⟨by simp [normalizeUrlHost, hparse], by simp [ProxyTarget.Plain, hparse]⟩
  | some u =>
    cases hhost : u.host with
    | none =>
      left
      exact ⟨by simp [normalizeUrlHost, hparse, hhost], by grind [ProxyTarget.Plain]⟩
    | some host =>
      right
      have hgone := url.host_not_absolute hparse hhost
      refine ⟨by simp [normalizeUrlHost, hparse, hhost, hgone], ?_⟩
      have hplain : t.Plain url ↔
          isHttpScheme u.scheme = false ∧ (u.path = [] ∨ u.path = "/".toList) := by
        grind [ProxyTarget.Plain]
      rw [hplain]
      simp only [normalizeUrlHost, hparse, hhost]
      by_cases hscheme : isHttpScheme u.scheme = true
      · simp [hscheme]
      · by_cases hpath : u.path = [] ∨ u.path = "/".toList
        · rw [if_neg hscheme, if_pos hpath]
          exact ⟨fun _ => ⟨by simpa using hscheme, hpath⟩, fun _ => ⟨rfl, rfl⟩⟩
        · rw [if_neg hscheme, if_neg hpath]
          exact ⟨fun h => by simp at h, fun h => absurd h.2 hpath⟩

variable {t : ProxyTarget} {target : Option ProxyTarget} {targets : List ProxyTarget}
  {m : HttpTargetMapping} {rule : ListenerRule} {c : ProxyConfig} {host : Text}

/-- **One target after save and load.**  Host and ports are found again; of the
rest only what was empty anyway. -/
theorem reload_target (hread : t.withoutSkipped = t) :
    (normalizeUrlHost url (normalizeUrlHost url t).withoutSkipped).acted =
      (normalizeUrlHost url t).withoutSkipped := by
  rcases normalizeUrlHost_cases url t with ⟨hsame, _⟩ | ⟨hgone, _⟩
  · rw [hsame, hread, hsame]
    rw [← hread]
    rfl
  · have hhost : url.parse (normalizeUrlHost url t).withoutSkipped.host = none := hgone
    have hkeep : ∀ s : ProxyTarget, url.parse s.host = none → normalizeUrlHost url s = s := by
      intro s hs
      simp [normalizeUrlHost, hs]
    rw [hkeep _ hhost]
    rfl

/-- Rewriting the host leaves the mount path. -/
theorem normalizeUrlHost_mountPath (t : ProxyTarget) :
    (normalizeUrlHost url t).mountPath = t.mountPath := by
  unfold normalizeUrlHost
  (repeat' split) <;> rfl

/-- A target read from a file relies on no dropped field exactly when it is
plain. -/
theorem withoutSkipped_eq_acted_iff (hread : t.withoutSkipped = t) :
    (normalizeUrlHost url t).withoutSkipped = (normalizeUrlHost url t).acted ↔ t.Plain url := by
  have hmount : (normalizeUrlHost url t).mountPath = none := by
    rw [normalizeUrlHost_mountPath, ← hread]
    rfl
  have hfields : (normalizeUrlHost url t).withoutSkipped = (normalizeUrlHost url t).acted ↔
      (normalizeUrlHost url t).urlProtocol = none ∧
        (normalizeUrlHost url t).urlBasePath = none := by
    simp [ProxyTarget.withoutSkipped, ProxyTarget.acted, hmount, eq_comm]
  rw [hfields]
  rcases normalizeUrlHost_cases url t with ⟨hsame, hplain⟩ | ⟨_, hiff⟩
  · have hempty : t.urlProtocol = none ∧ t.urlBasePath = none := by
      rw [← hread]
      exact ⟨rfl, rfl⟩
    simp [hsame, hempty, hplain]
  · exact hiff

/-- A plain target is found again, and no other one. -/
theorem reload_target_iff (hread : t.withoutSkipped = t) :
    (normalizeUrlHost url (normalizeUrlHost url t).withoutSkipped).acted =
      (normalizeUrlHost url t).acted ↔ t.Plain url := by
  rw [reload_target url hread]
  exact withoutSkipped_eq_acted_iff url hread

/-- The same for a target of a mapping, whose mount path is set again. -/
theorem reload_mounted_iff (hread : t.withoutSkipped = t) (before after : Text) :
    (mountTarget url after (mountTarget url before t).withoutSkipped).acted =
      (mountTarget url before t).acted ↔ t.Plain url ∧ after = before := by
  have hskip : (mountTarget url before t).withoutSkipped =
      (normalizeUrlHost url t).withoutSkipped := rfl
  have hleft : (mountTarget url after (mountTarget url before t).withoutSkipped).acted =
      { (normalizeUrlHost url t).withoutSkipped with mountPath := some after } := by
    rw [hskip]
    change { (normalizeUrlHost url (normalizeUrlHost url t).withoutSkipped).acted with
      mountPath := some after } = _
    rw [reload_target url hread]
  have hright : (mountTarget url before t).acted =
      { (normalizeUrlHost url t).acted with mountPath := some before } := rfl
  have hmount : (normalizeUrlHost url t).mountPath = none := by
    rw [normalizeUrlHost_mountPath, ← hread]
    rfl
  rw [hleft, hright, ← withoutSkipped_eq_acted_iff url hread]
  simp [ProxyTarget.withoutSkipped, ProxyTarget.acted, hmount, and_assoc]

/-! ### Mount paths -/

/-- What is left of a mapping path without blanks around it and slashes around
that. -/
def pathCore (path : Text) : Text :=
  trimEndMatches '/' (trimStartMatches '/' (trim path))

/-- A normalised path is its core after a slash. -/
theorem normalizeMappingPath_eq (path : Text) :
    normalizeMappingPath path = '/' :: pathCore path := by
  unfold normalizeMappingPath pathCore
  by_cases h : trim path = "/".toList
  · simp only [h, if_true]
    decide
  · simp only [h, if_false]

open List

/-- The core does not begin with a slash. -/
theorem pathCore_head (path : Text) : ∀ c ∈ (pathCore path).head?, ¬ (c == '/') = true := by
  intro c hc hslash
  have hprefix : pathCore path <+: (trim path).dropWhile (· == '/') := rdropWhile_prefix _ _
  obtain ⟨rest, hrest⟩ := hprefix
  have hnot := head?_dropWhile_not (· == '/') (trim path)
  rw [← hrest, head?_append, hc] at hnot
  exact absurd hslash (Bool.eq_false_iff.mp hnot)

/-- A mapping path that normalising a second time does not change: what is
between its slashes does not end in a blank. -/
def PathStable (path : Text) : Prop :=
  ∀ c ∈ (pathCore path).getLast?, isWhitespace c = false

instance (path : Text) : Decidable (PathStable path) :=
  inferInstanceAs (Decidable (∀ c ∈ (pathCore path).getLast?, isWhitespace c = false))

theorem trim_slash_cons (core : Text) : trim ('/' :: core) = '/' :: trimEnd core := by
  have hslash : ¬ isWhitespace '/' = true := by decide
  rw [trim, dropWhile_cons_of_neg hslash, trimEnd, rdropWhile_cons_of_neg hslash]
  rfl

/-- **Normalising twice.**  A second normalisation only ever cuts blanks off the
end, and slashes that stood before them. -/
theorem normalizeMappingPath_stable_iff (path : Text) :
    normalizeMappingPath (normalizeMappingPath path) = normalizeMappingPath path ↔
      PathStable path := by
  rw [normalizeMappingPath_eq (normalizeMappingPath path), normalizeMappingPath_eq path, cons.injEq]
  have hcore : pathCore ('/' :: pathCore path) =
      trimEndMatches '/' (trimStartMatches '/' (trimEnd (pathCore path))) := by
    rw [pathCore, trim_slash_cons]
    simp [trimStartMatches]
  rw [hcore]
  constructor
  · intro h c hc
    have hsame := h.2
    -- the result is no longer than the trimmed core, so trimming cut nothing off
    have hle : (pathCore path).length ≤ (trimEnd (pathCore path)).length := by
      calc (pathCore path).length
          = (trimEndMatches '/' (trimStartMatches '/' (trimEnd (pathCore path)))).length := by
            rw [hsame]
        _ ≤ (trimStartMatches '/' (trimEnd (pathCore path))).length :=
            (List.rdropWhile_prefix _ _).length_le
        _ ≤ (trimEnd (pathCore path)).length := length_dropWhile_le _ _
    have heq : trimEnd (pathCore path) = pathCore path :=
      (List.rdropWhile_prefix _ _).eq_of_length_le hle
    have hne : pathCore path ≠ [] := by
      intro hnil
      simp [hnil] at hc
    have hlast := rdropWhile_eq_self_iff.mp heq hne
    rw [getLast?_eq_some_getLast hne] at hc
    cases hc
    simpa using hlast
  · intro hstable
    have htrim : trimEnd (pathCore path) = pathCore path :=
      rdropWhile_eq_self_of_last (fun c hc => by simp [hstable c hc])
    have hstart : trimStartMatches '/' (pathCore path) = pathCore path :=
      dropWhile_eq_self_of_head (pathCore_head path)
    refine ⟨rfl, ?_⟩
    rw [htrim, hstart]
    exact rdropWhile_idempotent _ _

/-! ### Mappings, listeners and the whole file -/

/-- Neither dropping the skipped fields nor a second mount loses anything of
the mapping's targets. -/
def HttpTargetMapping.Keeps (m : HttpTargetMapping) : Prop :=
  ∀ t ∈ m.target.toList ++ m.targets, t.Plain url ∧ PathStable m.path

def ListenerRule.Keeps (rule : ListenerRule) : Prop :=
  (∀ t ∈ rule.target.toList ++ rule.targets, t.Plain url) ∧
    ∀ m ∈ rule.httpMappings, m.Keeps url

/-- A mapping after save and load. -/
def HttpTargetMapping.reload (m : HttpTargetMapping) : HttpTargetMapping :=
  (m.normalize url).withoutSkipped.normalize url

/-- A listener after save and load. -/
def ListenerRule.reload (rule : ListenerRule) : ListenerRule :=
  (rule.normalizeTargets url).withoutSkipped.normalizeTargets url

theorem optionMap_eq_iff {α β : Type} {f g : α → β} {o : Option α} :
    o.map f = o.map g ↔ ∀ a ∈ o.toList, f a = g a := by
  cases o <;> simp

/-- A list that a function keeps has entries that it keeps. -/
theorem eq_of_map_eq_self {α : Type} {f : α → α} {list : List α} (h : list.map f = list) :
    ∀ a ∈ list, f a = a :=
  map_inj_left.mp (h.trans (map_id list).symm)

/-- A value that dropping the skipped fields does not change has no skipped
field set in any of its targets. -/
theorem targets_skipped (htarget : target.map ProxyTarget.withoutSkipped = target)
    (htargets : targets.map ProxyTarget.withoutSkipped = targets) :
    ∀ t ∈ target.toList ++ targets, t.withoutSkipped = t := by
  have hone : target.map ProxyTarget.withoutSkipped = target.map id := by simpa using htarget
  exact forall_mem_append.mpr ⟨optionMap_eq_iff.mp hone, eq_of_map_eq_self htargets⟩

theorem HttpTargetMapping.skipped (hread : m.withoutSkipped = m) :
    ∀ t ∈ m.target.toList ++ m.targets, t.withoutSkipped = t :=
  targets_skipped (congrArg HttpTargetMapping.target hread)
    (congrArg HttpTargetMapping.targets hread)

theorem ListenerRule.skipped (hread : rule.withoutSkipped = rule) :
    (∀ t ∈ rule.target.toList ++ rule.targets, t.withoutSkipped = t) ∧
      ∀ m ∈ rule.httpMappings, m.withoutSkipped = m :=
  ⟨targets_skipped (congrArg ListenerRule.target hread) (congrArg ListenerRule.targets hread),
    eq_of_map_eq_self (congrArg ListenerRule.httpMappings hread)⟩

open ProxyConfig

theorem ProxyConfig.skipped (hread : c.withoutSkipped = c) :
    ∀ rule ∈ c.listeners, rule.withoutSkipped = rule :=
  eq_of_map_eq_self (congrArg listeners hread)

/-- A mapping finds its targets again exactly if it keeps them. -/
theorem reload_mapping_iff (hread : m.withoutSkipped = m) :
    (m.reload url).actedTargets = (m.normalize url).actedTargets ↔ m.Keeps url := by
  have hone : ∀ t ∈ m.target.toList ++ m.targets,
      (mountTarget url (normalizeMappingPath (normalizeMappingPath m.path))
          (mountTarget url (normalizeMappingPath m.path) t).withoutSkipped).acted =
        (mountTarget url (normalizeMappingPath m.path) t).acted ↔
      t.Plain url ∧ PathStable m.path := by
    intro t ht
    rw [reload_mounted_iff url (m.skipped hread t ht), normalizeMappingPath_stable_iff]
  simp only [HttpTargetMapping.actedTargets, HttpTargetMapping.reload,
    HttpTargetMapping.normalize, HttpTargetMapping.withoutSkipped, Option.map_map,
    map_map, Prod.mk.injEq, optionMap_eq_iff, map_inj_left, Function.comp_apply]
  rw [← forall_mem_append]
  exact forall₂_congr hone

/-- A listener finds its targets again exactly if it keeps them. -/
theorem reload_listener_iff (hread : rule.withoutSkipped = rule) :
    (rule.reload url).actedTargets = (rule.normalizeTargets url).actedTargets ↔
      rule.Keeps url := by
  obtain ⟨htargets, hmappings⟩ := rule.skipped hread
  have hone : ∀ t ∈ rule.target.toList ++ rule.targets,
      (normalizeUrlHost url (normalizeUrlHost url t).withoutSkipped).acted =
        (normalizeUrlHost url t).acted ↔ t.Plain url :=
    fun t ht => reload_target_iff url (htargets t ht)
  have hmap : ∀ m ∈ rule.httpMappings,
      (m.reload url).actedTargets = (m.normalize url).actedTargets ↔ m.Keeps url :=
    fun m hm => reload_mapping_iff url (hmappings m hm)
  simp only [ListenerRule.actedTargets, ListenerRule.reload, ListenerRule.normalizeTargets,
    ListenerRule.withoutSkipped, Option.map_map, map_map, Prod.mk.injEq,
    optionMap_eq_iff, map_inj_left, Function.comp_apply]
  rw [← and_assoc, ← forall_mem_append]
  exact and_congr (forall₂_congr hone) (forall₂_congr hmap)

/-! ### The second load is accepted -/

/-- A host name that passed the check contains no blank and does not end in a
dot. -/
theorem validHostname_chars (hvalid : validHostname host = true) :
    (∀ c ∈ host, isWhitespace c = false) ∧ host.getLast? ≠ some '.' ∧ host ≠ [] := by
  have hlabels : ∀ label ∈ split '.' host, validLabel label = true := by
    simp only [validHostname, Bool.and_eq_true, all_eq_true] at hvalid
    exact hvalid.2
  have hnonempty : ∀ label ∈ split '.' host, label ≠ [] := by
    intro label hlabel hnil
    have h := hlabels label hlabel
    simp [validLabel, hnil] at h
  refine ⟨?_, ?_, ?_⟩
  · intro c hc
    rcases mem_split '.' hc with rfl | ⟨label, hlabel, hcl⟩
    · decide
    · have h := hlabels label hlabel
      simp only [validLabel, Bool.and_eq_true, all_eq_true] at h
      rcases Bool.or_eq_true_iff.mp (h.2 c hcl) with halnum | hdash
      · exact isWhitespace_of_isAlphanum halnum
      · rw [beq_iff_eq.mp hdash]
        decide
  · intro hlast
    obtain ⟨first, pieces, hsplit⟩ := split_of_getLast hlast
    exact hnonempty [] (by simp [hsplit]) rfl
  · intro hnil
    subst hnil
    exact hnonempty [] (by simp [split]) rfl

/-- A checked host name in lower case is its own normal form. -/
theorem normalizeHostname_of_valid (hvalid : validHostname host = true)
    (hlower : toAsciiLowercase host = host) : normalizeHostname (some host) = some host := by
  obtain ⟨hblank, hdot, hne⟩ := validHostname_chars hvalid
  have htrim : trimEndMatches '.' (trim host) = host := by
    rw [trim_eq_self hblank]
    apply rdropWhile_eq_self_of_last
    intro c hc hceq
    rw [beq_iff_eq.mp hceq] at hc
    exact hdot hc
  simp [normalizeHostname, htrim, hlower, Option.filter, hne]

/-- A normalised host name is in lower case. -/
theorem normalizeHostname_lower {hostname : Option Text}
    (h : normalizeHostname hostname = some host) : toAsciiLowercase host = host := by
  cases hostname with
  | none => simp [normalizeHostname] at h
  | some raw =>
    simp only [normalizeHostname, Option.map_some, Option.filter_eq_some_iff] at h
    obtain ⟨hhost, _⟩ := h
    cases hhost
    exact toAsciiLowercase_idem _

/-- A host name that passed the check passes it again. -/
theorem checkHostname_reload (hcheck : checkHostname (m.normalize url) = .ok ()) :
    checkHostname (m.reload url) = .ok () := by
  have hreload : (m.reload url).hostname = normalizeHostname (m.normalize url).hostname := rfl
  cases hhost : (m.normalize url).hostname with
  | none => simp [checkHostname, hreload, hhost, normalizeHostname]
  | some host =>
    simp only [checkHostname, hhost, ensure_eq_ok] at hcheck
    have hsame := normalizeHostname_of_valid hcheck (normalizeHostname_lower hhost)
    simp only [checkHostname, hreload, hhost, hsame, ensure_eq_ok]
    exact hcheck

/-- A target offers the same ports after save and load. -/
theorem reload_target_portFor (hread : t.withoutSkipped = t) (protocol : Protocol) :
    (normalizeUrlHost url (normalizeUrlHost url t).withoutSkipped).portFor protocol =
      (normalizeUrlHost url t).portFor protocol := by
  have hports := congrArg (fun s => ProxyTarget.portFor s protocol) (reload_target url hread)
  cases protocol <;> exact hports

theorem exists_mem_chosenTargets_map {f : ProxyTarget → ProxyTarget} {P : ProxyTarget → Prop} :
    (∃ t ∈ chosenTargets (target.map f) (targets.map f), P t) ↔
      ∃ t ∈ chosenTargets target targets, P (f t) := by
  simp [chosenTargets_map]

/-- A listener has the same ports after save and load. -/
theorem hasTargetsFor_reload (hread : rule.withoutSkipped = rule) (protocol : Protocol) :
    (rule.reload url).hasTargetsFor protocol =
      (rule.normalizeTargets url).hasTargetsFor protocol := by
  obtain ⟨htargets, hmappings⟩ := rule.skipped hread
  rw [Bool.eq_iff_iff, ListenerRule.hasTargetsFor_iff, ListenerRule.hasTargetsFor_iff]
  refine or_congr ?_ ?_
  · simp only [ListenerRule.reload, ListenerRule.normalizeTargets, ListenerRule.withoutSkipped,
      exists_mem_chosenTargets_map]
    refine exists_congr (fun t => and_congr_right (fun ht => ?_))
    rw [reload_target_portFor url (htargets t (mem_chosenTargets ht))]
  · simp only [ListenerRule.reload, ListenerRule.normalizeTargets, ListenerRule.withoutSkipped,
      mem_map, exists_exists_and_eq_and, HttpTargetMapping.normalize,
      HttpTargetMapping.withoutSkipped, exists_mem_chosenTargets_map]
    refine exists_congr (fun m => and_congr_right (fun hm => ?_))
    refine exists_congr (fun t => and_congr_right (fun ht => ?_))
    have hport := reload_target_portFor url
      (m.skipped (hmappings m hm) t (mem_chosenTargets ht)) protocol
    cases protocol <;> exact (congrArg (fun p => p.isSome = true) hport).to_iff

/-- The checks of `load` pass again on a listener that was saved and read back. -/
theorem checkListener_reload (hread : rule.withoutSkipped = rule)
    (hcheck : checkListener (rule.normalizeTargets url) = .ok ()) :
    checkListener (rule.reload url) = .ok () := by
  obtain ⟨_, hhttp3, hcheck⟩ := bind_eq_ok.mp hcheck
  obtain ⟨_, hhosts, hadvertise⟩ := bind_eq_ok.mp hcheck
  have hhttp3' : checkHttp3 (rule.reload url) = .ok () := by
    rw [← hhttp3]
    simp [checkHttp3, ListenerRule.reload, ListenerRule.normalizeTargets,
      ListenerRule.withoutSkipped]
  have hhosts' : (rule.reload url).httpMappings.forM checkHostname = .ok () := by
    rw [forM_eq_ok] at hhosts ⊢
    intro m' hm'
    simp only [ListenerRule.reload, ListenerRule.normalizeTargets, ListenerRule.withoutSkipped,
      map_map, mem_map] at hm'
    obtain ⟨m, hm, rfl⟩ := hm'
    exact checkHostname_reload url (hhosts _ (mem_map.mpr ⟨m, hm, rfl⟩))
  have hadvertise' : checkAdvertisement (rule.reload url) = .ok () := by
    have htargets := hasTargetsFor_reload url hread .udp
    rw [← hadvertise]
    unfold checkAdvertisement
    rw [htargets]
    rfl
  exact bind_eq_ok.mpr ⟨(), hhttp3', bind_eq_ok.mpr ⟨(), hhosts', hadvertise'⟩⟩

section

variable {Document : Type} (yaml : SerdeYaml Document) (url : UrlParser)

variable {text : Document}

/-- What `load` accepts, and what it returns. -/
theorem load_eq_ok :
    load yaml url text = .ok c ↔
      ∃ c₀, yaml.fromStr text = .ok c₀ ∧ c = c₀.normalizeTargets url ∧
        ∀ rule ∈ c₀.listeners, checkListener (rule.normalizeTargets url) = .ok () := by
  simp only [load, bind_eq_ok]
  constructor
  · intro h
    obtain ⟨c₀, hread, _, hchecks, hc⟩ := h
    cases hc
    exact ⟨c₀, hread, rfl, forall_mem_map.mp (forM_eq_ok.mp hchecks)⟩
  · intro h
    obtain ⟨c₀, hread, rfl, hchecks⟩ := h
    exact ⟨c₀, hread, (), forM_eq_ok.mpr (forall_mem_map.mpr hchecks), rfl⟩

/-- A configuration after save and load. -/
def ProxyConfig.reload (c₀ : ProxyConfig) : ProxyConfig :=
  (c₀.normalizeTargets url).withoutSkipped.normalizeTargets url

theorem reload_listeners (c₀ : ProxyConfig) :
    (c₀.reload url).listeners = c₀.listeners.map (ListenerRule.reload url) := by
  simp [ProxyConfig.reload, ProxyConfig.normalizeTargets, ProxyConfig.withoutSkipped,
    ListenerRule.reload, Function.comp_def]

/-- **Saving never makes a file unreadable.**  What was loaded is accepted again
after it was saved. -/
theorem load_save_ok {c₀ : ProxyConfig} (hread : yaml.fromStr text = .ok c₀)
    (hload : load yaml url text = .ok c) :
    load yaml url (c.save yaml) = .ok (c₀.reload url) := by
  obtain ⟨c₁, hread', rfl, hchecks⟩ := (load_eq_ok yaml url).mp hload
  rw [hread] at hread'
  cases hread'
  refine (load_eq_ok yaml url).mpr ⟨_, yaml.fromStr_toString _, rfl, ?_⟩
  intro rule' hrule'
  simp only [ProxyConfig.normalizeTargets, ProxyConfig.withoutSkipped, map_map,
    mem_map] at hrule'
  obtain ⟨rule, hrule, rfl⟩ := hrule'
  exact checkListener_reload url (ProxyConfig.skipped (yaml.fromStr_skipped hread) rule hrule)
    (hchecks rule hrule)

/-- Changing anything but the listeners of a loaded configuration and saving it
gives a file that loads, with the change and everything else as it was. -/
theorem load_save_changed {changed : ProxyConfig} (hload : load yaml url text = .ok c)
    (hlisteners : changed.listeners = c.listeners) :
    ∃ c', load yaml url (changed.save yaml) = .ok c' ∧
      c' = { changed with listeners := c'.listeners } := by
  obtain ⟨c₀, hread, _, _⟩ := (load_eq_ok yaml url).mp hload
  obtain ⟨c₁, hread', _, hchecks⟩ := (load_eq_ok yaml url).mp (load_save_ok yaml url hread hload)
  have hkept : c₁ = c.withoutSkipped :=
    (Except.ok.inj (hread'.symm.trans (yaml.fromStr_toString c)))
  have hsame : changed.withoutSkipped.listeners = c₁.listeners := by
    rw [hkept]
    unfold ProxyConfig.withoutSkipped
    rw [hlisteners]
  refine ⟨changed.withoutSkipped.normalizeTargets url,
    (load_eq_ok yaml url).mpr ⟨_, yaml.fromStr_toString changed, rfl, ?_⟩, rfl⟩
  rw [hsame]
  exact hchecks

/-- **What survives load, save and load.**  The saved configuration is accepted
again, and its targets are the loaded ones exactly when the file had none that
relied on a dropped field: no target written as an `http(s)` URL or with a URL
path, and no mapping with a target whose path ends in a blank. -/
theorem load_save_sameTargets_iff {text : Document} {c₀ c : ProxyConfig}
    (hread : yaml.fromStr text = .ok c₀) (hload : ProxyConfig.load yaml url text = .ok c) :
    (∃ c', ProxyConfig.load yaml url (c.save yaml) = .ok c' ∧ c'.SameTargets c) ↔
      ∀ rule ∈ c₀.listeners, rule.Keeps url := by
  have hsaved := load_save_ok yaml url hread hload
  have hskipped := ProxyConfig.skipped (yaml.fromStr_skipped hread)
  obtain ⟨c₁, hread', rfl, _⟩ := (load_eq_ok yaml url).mp hload
  rw [hread] at hread'
  cases hread'
  have hsame : (c₀.reload url).SameTargets (c₀.normalizeTargets url) ↔
      ∀ rule ∈ c₀.listeners, rule.Keeps url := by
    rw [ProxyConfig.SameTargets, reload_listeners]
    simp only [ProxyConfig.normalizeTargets, map_map, map_inj_left, Function.comp_apply]
    exact forall₂_congr (fun rule hrule => reload_listener_iff url (hskipped rule hrule))
  rw [← hsame]
  constructor
  · intro h
    obtain ⟨c', hc', htargets⟩ := h
    rw [hsaved] at hc'
    cases hc'
    exact htargets
  · intro htargets
    exact ⟨_, hsaved, htargets⟩

end

/-- Texts that are the configurations themselves, as far as serde keeps them. -/
def plainYaml : SerdeYaml ProxyConfig where
  fromStr c := .ok c.withoutSkipped
  toString c := c
  fromStr_toString _ := rfl
  fromStr_skipped := by
    intro text c h
    cases h
    have htarget : ProxyTarget.withoutSkipped ∘ ProxyTarget.withoutSkipped =
        ProxyTarget.withoutSkipped := rfl
    have hmapping : HttpTargetMapping.withoutSkipped ∘ HttpTargetMapping.withoutSkipped =
        HttpTargetMapping.withoutSkipped := by
      funext m
      simp [HttpTargetMapping.withoutSkipped, htarget]
    have hrule : ListenerRule.withoutSkipped ∘ ListenerRule.withoutSkipped =
        ListenerRule.withoutSkipped := by
      funext rule
      simp [ListenerRule.withoutSkipped, htarget, hmapping]
    simp [ProxyConfig.withoutSkipped, hrule]

/-- A URL parser that knows one URL. -/
def oneUrl : UrlParser where
  parse text :=
    if text = "https://example.com/base".toList then
      some
        { scheme := "https".toList, host := some "example.com".toList, port := none
          path := "/base".toList, query := none
          serialized := "https://example.com/base".toList }
    else none
  host_not_absolute := by
    intro text host u hparse hhost
    split at hparse <;> cases hparse
    cases hhost
    decide

/-- One TCP listener whose target is written as `host`. -/
def oneTarget (host : Text) : ProxyConfig :=
  { listeners := [{ tcp := some 443, target := some { host := host, tcp := some 8443 } }] }

/-- A target written as a host name survives. -/
theorem load_save_keeps_hostname :
    ∃ c c' : ProxyConfig,
      ProxyConfig.load plainYaml oneUrl (oneTarget "example.com".toList) = .ok c ∧
      ProxyConfig.load plainYaml oneUrl (c.save plainYaml) = .ok c' ∧ c'.SameTargets c := by
  have hparse : oneUrl.parse "example.com".toList = none := rfl
  have hkeeps : ∀ rule ∈ (oneTarget "example.com".toList).listeners, rule.Keeps oneUrl := by
    intro rule hrule
    rw [mem_singleton.mp hrule]
    refine ⟨fun t ht u host hu _ => ?_, fun m hm => absurd hm not_mem_nil⟩
    rw [mem_singleton.mp ht, hparse] at hu
    cases hu
  have hread : plainYaml.fromStr (oneTarget "example.com".toList) =
      .ok (oneTarget "example.com".toList) := rfl
  have hsame := (load_save_sameTargets_iff plainYaml oneUrl hread rfl).mpr hkeeps
  obtain ⟨c', hload, htargets⟩ := hsame
  exact ⟨_, c', rfl, hload, htargets⟩

/-- A target written as an `https` URL is a plain TCP target after one save. -/
theorem load_save_drops_https :
    ∃ c c' : ProxyConfig,
      ProxyConfig.load plainYaml oneUrl (oneTarget "https://example.com/base".toList) = .ok c ∧
      ProxyConfig.load plainYaml oneUrl (c.save plainYaml) = .ok c' ∧
      c.listeners.map (fun rule => rule.target.map (fun t => (t.urlProtocol, t.urlBasePath))) =
        [some (some "https".toList, some "/base".toList)] ∧
      c'.listeners.map (fun rule => rule.target.map (fun t => (t.urlProtocol, t.urlBasePath))) =
        [some (none, none)] ∧
      ¬ c'.SameTargets c := by
  refine ⟨_, _, rfl, rfl, rfl, rfl, ?_⟩
  intro hsame
  have htarget := congrArg (map Prod.fst) hsame
  revert htarget
  decide

end FerrumProxy
