import FerrumProxy.ConfigRoundTrip
import FerrumProxy.HttpRewrite

/-!
# Request paths under mounts and base paths

A mapping has a path, its mount, and a target that is written as a URL may have a base path.
`normalize_proxy_path` cuts the mount off the path of a request and puts the base path in front of
what is left, unless the request lies under the base path already.  That last question is asked of
the path before the mount is cut off.
-/

namespace FerrumProxy

open Wire Str

/-- The path is the other one or goes on behind it with a slash. -/
def Under (base path : Text) : Prop := path = base ∨ base ++ ['/'] <+: path

instance (base path : Text) : Decidable (Under base path) :=
  inferInstanceAs (Decidable (path = base ∨ base ++ ['/'] <+: path))

variable {base s : Text} {c : Char} {url : UrlParser} {t : ProxyTarget}

theorem under_iff {path : Text} :
    Under base path ↔ ∃ rest, path = base ++ rest ∧ (rest = [] ∨ rest.head? = some '/') := by
  constructor
  · intro h
    rcases h with rfl | ⟨rest, rfl⟩
    · exact ⟨[], by simp, .inl rfl⟩
    · exact ⟨'/' :: rest, by simp, .inr rfl⟩
  · intro ⟨rest, hpath, hrest⟩
    rcases hrest with rfl | hslash
    · exact .inl (by simp [hpath])
    · obtain ⟨tail, rfl⟩ := List.head?_eq_some_iff.mp hslash
      exact .inr ⟨tail, by simp [hpath]⟩

/-- A path as the code compares it: nothing for the root, and no slash at its end. -/
def pathBase (path : Option Text) : Text :=
  ((path.filter (· != "/".toList)).map (trimEndMatches '/')).getD []

open List

theorem trimEndMatches_last (c : Char) (s : Text) : (trimEndMatches c s).getLast? ≠ some c := by
  intro hlast
  have hne : trimEndMatches c s ≠ [] := by
    intro hnil
    simp [hnil] at hlast
  have hnot := rdropWhile_last_not (· == c) s hne
  rw [List.getLast?_eq_some_getLast hne] at hlast
  simp only [Option.some.injEq] at hlast
  exact hnot (beq_iff_eq.mpr hlast)

theorem pathBase_last (path : Option Text) : (pathBase path).getLast? ≠ some '/' := by
  unfold pathBase
  cases path.filter (· != "/".toList) with
  | none => simp
  | some path => exact trimEndMatches_last '/' path

/-! ### Cutting off the mount -/

section Stripping

variable {mountPath : Option Text} {path rest : Text}

theorem stripMountPath_of_root (hmount : pathBase mountPath = []) (hpath : path.head? = some '/') :
    stripMountPath path mountPath = path := by
  obtain ⟨tail, rfl⟩ := List.head?_eq_some_iff.mp hpath
  unfold pathBase at hmount
  unfold stripMountPath
  cases hfilter : mountPath.filter (· != "/".toList) with
  | none => rfl
  | some mount =>
    rw [hfilter] at hmount
    have htrim : trimEndMatches '/' mount = [] := hmount
    simp [htrim, dropPrefix?]

theorem stripMountPath_of_not_under (h : ¬ Under (pathBase mountPath) path) :
    stripMountPath path mountPath = path := by
  unfold pathBase at h
  unfold stripMountPath
  cases hfilter : mountPath.filter (· != "/".toList) with
  | none => rfl
  | some mount =>
    rw [hfilter] at h
    have hunder : ¬ Under (trimEndMatches '/' mount) path := h
    have hstart : path.dropPrefix? (trimEndMatches '/' mount ++ "/".toList) = none := by
      rw [Option.eq_none_iff_forall_ne_some]
      intro stripped hstripped
      obtain ⟨pre, happend, hpre⟩ := List.dropPrefix?_eq_some_iff.mp hstripped
      exact hunder (.inr ⟨stripped, by simp [happend, beq_iff_eq.mp hpre]⟩)
    have hne : path ≠ trimEndMatches '/' mount := fun heq => hunder (.inl heq)
    simp only [hstart, if_neg hne]

/-- What goes on behind the mount is what is left, or the root. -/
theorem stripMountPath_append (hmount : pathBase mountPath ≠ [])
    (hrest : rest = [] ∨ rest.head? = some '/') :
    stripMountPath (pathBase mountPath ++ rest) mountPath =
      if rest = [] then "/".toList else rest := by
  unfold pathBase at hmount ⊢
  unfold stripMountPath
  cases hfilter : mountPath.filter (· != "/".toList) with
  | none =>
    rw [hfilter] at hmount
    exact absurd rfl hmount
  | some mount =>
    simp only [Option.map_some, Option.getD_some]
    rcases hrest with rfl | hslash
    · simp
    · obtain ⟨tail, rfl⟩ := List.head?_eq_some_iff.mp hslash
      have hdrop : (trimEndMatches '/' mount ++ '/' :: tail).dropPrefix?
          (trimEndMatches '/' mount ++ ['/']) = some tail := by
        rw [List.dropPrefix?_eq_some_iff]
        exact ⟨trimEndMatches '/' mount ++ ['/'], by simp, beq_self_eq_true _⟩
      simp [hdrop]

/-- Below the mount path what follows it is left, or `/`. -/
theorem stripMountPath_of_under (hmount : pathBase mountPath ≠ [])
    (h : Under (pathBase mountPath) path) :
    ∃ rest, path = pathBase mountPath ++ rest ∧ (rest = [] ∨ rest.head? = some '/') ∧
      stripMountPath path mountPath = if rest = [] then "/".toList else rest := by
  obtain ⟨rest, rfl, hrest⟩ := under_iff.mp h
  exact ⟨rest, rfl, hrest, stripMountPath_append hmount hrest⟩

theorem stripMountPath_head (hpath : path.head? = some '/') :
    (stripMountPath path mountPath).head? = some '/' := by
  by_cases hmount : pathBase mountPath = []
  · rw [stripMountPath_of_root hmount hpath]
    exact hpath
  · by_cases hunder : Under (pathBase mountPath) path
    · obtain ⟨rest, _, hrest, hstrip⟩ := stripMountPath_of_under hmount hunder
      rw [hstrip]
      rcases hrest with rfl | hslash
      · rfl
      · have hne : rest ≠ [] := fun hnil => by simp [hnil] at hslash
        rw [if_neg hne]
        exact hslash
    · rw [stripMountPath_of_not_under hunder]
      exact hpath

theorem stripMountPath_eq_self_iff (hpath : path.head? = some '/') :
    stripMountPath path mountPath = path ↔
      pathBase mountPath = [] ∨ ¬ Under (pathBase mountPath) path := by
  constructor
  · intro hsame
    by_contra hneither
    rw [not_or, not_not] at hneither
    obtain ⟨hmount, hunder⟩ := hneither
    obtain ⟨rest, rfl, hrest, hstrip⟩ := stripMountPath_of_under hmount hunder
    rw [hstrip] at hsame
    by_cases hnil : rest = []
    · -- the mount would be the root, but it does not end with a slash
      rw [if_pos hnil, hnil, append_nil] at hsame
      have hlast := pathBase_last mountPath
      rw [← hsame] at hlast
      exact hlast rfl
    · rw [if_neg hnil] at hsame
      exact hmount (self_eq_append_left.mp hsame)
  · intro h
    rcases h with hroot | hunder
    · exact stripMountPath_of_root hroot hpath
    · exact stripMountPath_of_not_under hunder

end Stripping

/-! ### The whole path -/

/-- The query of a request target, with its question mark. -/
def querySuffix (query : Option Text) : Text := (query.map ("?".toList ++ ·)).getD []

/-- The path of a request target in origin form. -/
structure IsRequestPath (path : Text) : Prop where
  rooted : path.head? = some '/'
  no_query : '?' ∉ path

/-- The path that `normalize_proxy_path` makes of a path. -/
def rewrittenPath (basePath mountPath : Option Text) (path : Text) : Text :=
  if pathBase basePath = [] ∨ Under (pathBase basePath) path then stripMountPath path mountPath
  else pathBase basePath ++ stripMountPath path mountPath

section Rewriting

variable {basePath mountPath : Option Text} {path : Text}

/-- The branches of the source: the base path is put in front unless it is there. -/
theorem prepend_base (base path mounted : Text) :
    (if !base.isEmpty && path != base && !(base ++ "/".toList).isPrefixOf path then
        if mounted = "/".toList then base ++ "/".toList else base ++ mounted
      else mounted) =
      if base = [] ∨ Under base path then mounted else base ++ mounted := by
  have hstart : (base ++ ['/']).isPrefixOf path = true ↔ base ++ ['/'] <+: path :=
    isPrefixOf_iff_prefix
  have hmounted : (if mounted = ['/'] then base ++ ['/'] else base ++ mounted) =
      base ++ mounted := by
    split
    · rename_i hslash
      rw [hslash]
    · rfl
  by_cases hbase : base = []
  · simp [hbase]
  · by_cases hpath : path = base
    · simp [hpath, Under]
    · cases hpre : (base ++ ['/']).isPrefixOf path with
      | true => simp [hpre, Under, hstart.mp hpre]
      | false =>
        have hnot : ¬ base ++ ['/'] <+: path := fun h => by simp [hstart.mpr h] at hpre
        simp [hbase, hpath, hpre, Under, hnot, hmounted]

/-- A query stays behind the rewritten path. -/
theorem normalizePathTarget_eq (hpath : IsRequestPath path) (query : Option Text) :
    normalizePathTarget basePath (path ++ querySuffix query) mountPath =
      rewrittenPath basePath mountPath path ++ querySuffix query := by
  have hcut : splitOnce '?' (path ++ querySuffix query) =
      query.map (fun query => (path, query)) := by
    cases query with
    | none => exact splitOnce_of_notMem (by simpa [querySuffix] using hpath.no_query)
    | some query => exact splitOnce_append hpath.no_query query
  have hpart : ((splitOnce '?' (path ++ querySuffix query)).map Prod.fst).getD
      (path ++ querySuffix query) = path := by
    rw [hcut]
    cases query with
    | none => exact append_nil path
    | some query => rfl
  unfold normalizePathTarget
  simp only [hpart, hpath.rooted, ne_eq, not_true, if_false]
  rw [hcut, prepend_base]
  cases query with
  | none => exact (append_nil _).symm
  | some query => exact append_assoc _ _ _

theorem normalizeProxyPath_eq (url : UrlParser) (hpath : IsRequestPath path)
    (query : Option Text) :
    normalizeProxyPath url basePath (path ++ querySuffix query) mountPath =
      rewrittenPath basePath mountPath path ++ querySuffix query := by
  obtain ⟨tail, rfl⟩ := List.head?_eq_some_iff.mp hpath.rooted
  have hscheme : hasUrlScheme ('/' :: tail ++ querySuffix query) = false := rfl
  rw [normalizeProxyPath, hscheme, if_neg (by simp)]
  exact normalizePathTarget_eq hpath query

end Rewriting

/-! ### Base paths and mounts as the configuration has them -/

/-- What the URL standard says of the URLs that have a host. -/
structure UrlParser.Standard (url : UrlParser) : Prop where
  path_rooted : ∀ {text : Text} {u : Url}, url.parse text = some u → u.host.isSome = true →
    u.path = [] ∨ u.path.head? = some '/'
  path_clean : ∀ {text : Text} {u : Url}, url.parse text = some u → u.host.isSome = true →
    ∀ c ∈ u.path, isWhitespace c = false ∧ c ≠ '?'

/-- A base path as `normalize_url_host` leaves it. -/
structure IsBasePath (basePath : Option Text) : Prop where
  base_eq : pathBase basePath = basePath.getD []
  rooted : basePath.getD [] = [] ∨ (basePath.getD []).head? = some '/'
  clean : ∀ c ∈ basePath.getD [], isWhitespace c = false ∧ c ≠ '?'

theorem trimEndMatches_of_last (h : s.getLast? ≠ some c) : trimEndMatches c s = s :=
  rdropWhile_eq_self_of_last (fun _ ha heq => h (ha.trans (congrArg some (beq_iff_eq.mp heq))))

theorem pathBase_of_last (h : s.getLast? ≠ some '/') : pathBase (some s) = s := by
  have hne : s ≠ ['/'] := fun heq => by
    rw [heq] at h
    exact h rfl
  simp [pathBase, Option.filter, hne, trimEndMatches_of_last h]

theorem isBasePath_none : IsBasePath none := ⟨rfl, .inl rfl, fun _ hc => (nomatch hc)⟩

theorem isBasePath_of_parse (hurl : url.Standard) {parsed : Url} {host : Text}
    (hparse : url.parse t.host = some parsed) (hhost : parsed.host = some host) :
    IsBasePath (normalizeUrlHost url t).urlBasePath := by
  have hsome : parsed.host.isSome = true := by rw [hhost]; rfl
  simp only [normalizeUrlHost, hparse, hhost]
  split
  · exact isBasePath_none
  · rename_i hpath
    have hstart : trimEndMatches '/' parsed.path <+: parsed.path := rdropWhile_prefix _ _
    refine ⟨pathBase_of_last (trimEndMatches_last '/' parsed.path), ?_,
      fun c hc => hurl.path_clean hparse hsome c (hstart.subset hc)⟩
    by_cases hnil : trimEndMatches '/' parsed.path = []
    · exact .inl hnil
    · right
      rcases hurl.path_rooted hparse hsome with hempty | hrooted
      · exact absurd (.inl hempty) hpath
      · obtain ⟨rest, hrest⟩ := hstart
        rw [← hrest, List.head?_append_of_ne_nil _ hnil] at hrooted
        exact hrooted

theorem isBasePath_of_normalizeUrlHost (hurl : url.Standard) (ht : t.urlBasePath = none) :
    IsBasePath (normalizeUrlHost url t).urlBasePath := by
  cases hparse : url.parse t.host with
  | none =>
    simp only [normalizeUrlHost, hparse, ht]
    exact isBasePath_none
  | some parsed =>
    cases hhost : parsed.host with
    | none =>
      simp only [normalizeUrlHost, hparse, hhost, ht]
      exact isBasePath_none
    | some host => exact isBasePath_of_parse hurl hparse hhost

/-- A mount as `normalize_mapping_path` leaves it: the root, or no slash at its end. -/
theorem pathBase_normalizeMappingPath (path : Text) :
    normalizeMappingPath path = ['/'] ∧ pathBase (some (normalizeMappingPath path)) = [] ∨
      normalizeMappingPath path ≠ ['/'] ∧
        pathBase (some (normalizeMappingPath path)) = normalizeMappingPath path ∧
        normalizeMappingPath path ≠ [] := by
  rw [normalizeMappingPath_eq]
  by_cases hcore : pathCore path = []
  · rw [hcore]
    exact .inl ⟨rfl, rfl⟩
  · have hlast : ('/' :: pathCore path).getLast? ≠ some '/' := by
      rw [List.getLast?_cons_of_ne_nil hcore]
      exact trimEndMatches_last '/' _
    exact .inr ⟨by simpa using hcore, pathBase_of_last hlast, cons_ne_nil _ _⟩

/-- The request path and its query after rewriting: the path is inside the base path and
the query is the same. -/
def StaysInside (base : Text) (query : Option Text) (rewritten : Text) : Prop :=
  ∃ path, rewritten = path ++ querySuffix query ∧ '?' ∉ path ∧ Under base path

/-- Cutting the mount off does not cut off the base path. -/
def KeepsBase (base mount path : Text) : Prop :=
  base = [] ∨ mount = ['/'] ∨ ¬ Under base path ∨ ∃ rest, path = mount ++ rest ∧ Under base rest

theorem stripMountPath_mem {mountPath : Option Text} {path : Text}
    (h : c ∈ stripMountPath path mountPath) (hpath : path.head? = some '/') :
    c ∈ path ∨ c = '/' := by
  by_cases hmount : pathBase mountPath = []
  · rw [stripMountPath_of_root hmount hpath] at h
    exact .inl h
  · by_cases hunder : Under (pathBase mountPath) path
    · obtain ⟨rest, rfl, _, hstrip⟩ := stripMountPath_of_under hmount hunder
      rw [hstrip] at h
      split at h
      · exact .inr (mem_singleton.mp h)
      · exact .inl (mem_append_right _ h)
    · rw [stripMountPath_of_not_under hunder] at h
      exact .inl h

theorem rewrittenPath_no_query {basePath mountPath : Option Text} {path : Text}
    (hbase : IsBasePath basePath) (hpath : IsRequestPath path) :
    '?' ∉ rewrittenPath basePath mountPath path := by
  have hstrip : '?' ∉ stripMountPath path mountPath := fun hmem =>
    (stripMountPath_mem hmem hpath.rooted).elim hpath.no_query (by decide)
  unfold rewrittenPath
  split
  · exact hstrip
  · rw [hbase.base_eq, mem_append, not_or]
    exact ⟨fun hmem => (hbase.clean _ hmem).2 rfl, hstrip⟩

theorem not_under_short {rest : Text} (hbase : base ≠ []) (hlast : base.getLast? ≠ some '/')
    (hrest : rest = [] ∨ rest = "/".toList) : ¬ Under base rest := by
  intro h
  obtain ⟨tail, happend, _⟩ := under_iff.mp h
  rcases hrest with rfl | rfl
  · exact hbase (append_eq_nil_iff.mp happend.symm).1
  · rcases singleton_eq_append_iff.mp happend with ⟨hnil, _⟩ | ⟨hslash, _⟩
    · exact hbase hnil
    · rw [hslash] at hlast
      exact hlast rfl

theorem under_stripMountPath_iff {mount path : Text} (hbase : base ≠ [])
    (hlast : base.getLast? ≠ some '/') (hmount : pathBase (some mount) = mount) (hne : mount ≠ [])
    (hunder : Under mount path) :
    Under base (stripMountPath path (some mount)) ↔
      ∃ rest, path = mount ++ rest ∧ Under base rest := by
  obtain ⟨rest, happend, _, hstrip⟩ :=
    stripMountPath_of_under (by rw [hmount]; exact hne) (by rw [hmount]; exact hunder)
  rw [hmount] at happend
  have hrest : (∃ other, path = mount ++ other ∧ Under base other) ↔ Under base rest := by
    constructor
    · intro ⟨other, hother, hunderOther⟩
      rw [append_cancel_left (happend.symm.trans hother)]
      exact hunderOther
    · exact fun h => ⟨rest, happend, h⟩
  rw [hrest, hstrip]
  split
  · rename_i hnil
    exact iff_of_false (not_under_short hbase hlast (.inr rfl))
      (not_under_short hbase hlast (.inl hnil))
  · rfl

theorem pathMatchesMapping_iff {path mapping : Text} :
    pathMatchesMapping path mapping = true ↔ mapping = ['/'] ∨ Under mapping path := by
  simp [pathMatchesMapping, Under, isPrefixOf_iff_prefix, or_assoc]

/-- **When a rewritten request stays inside the base path of its target.**  The base path
is looked for in the path of the request before the mount is cut off, so it is lost when
it stands there and not behind the mount. -/
theorem inside_base_iff {url : UrlParser} (hurl : url.Standard) {t : ProxyTarget}
    (ht : t.urlBasePath = none) (mapping : Text) {path : Text} (hpath : IsRequestPath path)
    (hmatch : pathMatchesMapping path (normalizeMappingPath mapping) = true)
    (query : Option Text) :
    StaysInside ((normalizeUrlHost url t).urlBasePath.getD []) query
        (normalizeProxyPath url (normalizeUrlHost url t).urlBasePath (path ++ querySuffix query)
          (some (normalizeMappingPath mapping))) ↔
      KeepsBase ((normalizeUrlHost url t).urlBasePath.getD []) (normalizeMappingPath mapping)
        path := by
  have hbasePath := isBasePath_of_normalizeUrlHost hurl ht
  generalize (normalizeUrlHost url t).urlBasePath = basePath at hbasePath ⊢
  have hlast := pathBase_last basePath
  have hinside : StaysInside (basePath.getD []) query
      (normalizeProxyPath url basePath (path ++ querySuffix query)
        (some (normalizeMappingPath mapping))) ↔
      Under (basePath.getD [])
        (rewrittenPath basePath (some (normalizeMappingPath mapping)) path) := by
    rw [normalizeProxyPath_eq url hpath]
    constructor
    · intro ⟨inner, happend, _, hunder⟩
      rw [append_cancel_right happend]
      exact hunder
    · intro hunder
      exact ⟨_, rfl, rewrittenPath_no_query hbasePath hpath, hunder⟩
  have hhead : (stripMountPath path (some (normalizeMappingPath mapping))).head? = some '/' :=
    stripMountPath_head hpath.rooted
  rw [hbasePath.base_eq] at hlast
  rw [hinside, rewrittenPath, hbasePath.base_eq]
  by_cases hbase : basePath.getD [] = []
  · rw [if_pos (.inl hbase), hbase]
    exact iff_of_true (under_iff.mpr ⟨_, rfl, .inr hhead⟩) (.inl rfl)
  · by_cases hunder : Under (basePath.getD []) path
    · rw [if_pos (.inr hunder)]
      rcases pathBase_normalizeMappingPath mapping with ⟨hroot, hmount⟩ | ⟨hroot, hmount, hne⟩
      · rw [stripMountPath_of_root hmount hpath.rooted]
        exact iff_of_true hunder (.inr (.inl hroot))
      · have hmounted := (pathMatchesMapping_iff.mp hmatch).resolve_left hroot
        rw [under_stripMountPath_iff hbase hlast hmount hne hmounted]
        simp [KeepsBase, hbase, hroot, hunder]
    · rw [if_neg (by simp [hbase, hunder])]
      exact iff_of_true (under_iff.mpr ⟨_, rfl, .inr hhead⟩) (.inr (.inr (.inl hunder)))

/-! ### A backend with a base path -/

/-- A URL parser that knows the URLs of one backend. -/
def backendUrl : UrlParser where
  parse text :=
    match text.dropPrefix? "http://backend".toList with
    | none => none
    | some path =>
      if path.head? == some '/' && path.all (fun c => !isWhitespace c && c != '?') then
        some
          { scheme := "http".toList, host := some "backend".toList, port := none
            path := path, query := none, serialized := text }
      else none
  host_not_absolute := by
    intro text host u hparse hhost
    split at hparse
    · cases hparse
    · split at hparse <;> cases hparse
      cases hhost
      rfl

theorem standard_backendUrl : backendUrl.Standard := by
  have hknown : ∀ {text : Text} {u : Url}, backendUrl.parse text = some u →
      u.path.head? = some '/' ∧ ∀ c ∈ u.path, isWhitespace c = false ∧ c ≠ '?' := by
    intro text u h
    simp only [backendUrl] at h
    split at h
    · cases h
    · split at h <;> cases h
      next hpath => simpa using hpath
  exact ⟨fun h _ => .inr (hknown h).1, fun h _ => (hknown h).2⟩

def backendTarget (path : Text) : ProxyTarget where
  host := "http://backend".toList ++ path

/-- A backend under `/app` that is mounted under `/app` as well is asked for a path outside
of it. -/
theorem base_path_left :
    backendUrl.Standard ∧ (backendTarget "/app".toList).urlBasePath = none ∧
      IsRequestPath "/app/x".toList ∧
      pathMatchesMapping "/app/x".toList (normalizeMappingPath "/app".toList) = true ∧
      normalizeProxyPath backendUrl
        (normalizeUrlHost backendUrl (backendTarget "/app".toList)).urlBasePath
        "/app/x".toList (some (normalizeMappingPath "/app".toList)) = "/x".toList ∧
      ¬ StaysInside "/app".toList none "/x".toList := by
  refine ⟨standard_backendUrl, rfl, ⟨rfl, by decide⟩, by decide, by decide, ?_⟩
  intro ⟨path, happend, _, hunder⟩
  rw [querySuffix, Option.map_none, Option.getD_none, append_nil] at happend
  rw [← happend] at hunder
  exact absurd hunder (by decide)

/-- Mounted elsewhere, it is asked for a path inside. -/
theorem inside_base_iff_elsewhere :
    StaysInside "/app".toList (some "q".toList)
      (normalizeProxyPath backendUrl
        (normalizeUrlHost backendUrl (backendTarget "/app".toList)).urlBasePath
        "/m/x?q".toList (some (normalizeMappingPath "/m".toList))) := by
  have hpath : IsRequestPath "/m/x".toList := ⟨rfl, by decide⟩
  have hurl : backendUrl.Standard := standard_backendUrl
  have hinside := inside_base_iff hurl (t := backendTarget "/app".toList) rfl "/m".toList hpath
    (by decide) (some "q".toList)
  exact hinside.mpr (.inr (.inr (.inl (by decide))))

end FerrumProxy
