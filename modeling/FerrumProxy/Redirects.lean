import FerrumProxy.HttpResponse
import FerrumProxy.ProxyPaths

/-!
# Redirects of a backend to itself

A backend that answers a rewritten request with a redirect to the URL it was asked for names its own
origin and base path.  `rewrite_http_response` is to turn that URL back into the path that the
client asked for.  It compares the scheme and the host, without the port, and the base path, if
there is one.
-/

namespace FerrumProxy

open Wire Str

/-! ### What becomes of a location -/

theorem pathOrEmpty_of_last {path : Option Text} (h : (path.getD []).getLast? ≠ some '/') :
    pathOrEmpty path = path.getD [] := by
  cases path with
  | none => rfl
  | some path =>
    have hne : path ≠ ['/'] := fun heq => by
      rw [heq] at h
      exact h rfl
    simp [pathOrEmpty, Option.filter, hne]

open ProxyTarget

open List

section Location

variable {protocol : Text} {target : ProxyTarget}

/-- The origin that a target's answers are compared with. -/
def ProxyTarget.originOf (protocol : Text) (target : ProxyTarget) : Text :=
  protocol ++ "://".toList ++ target.host

theorem rewriteLocation_base {rest : Text} (hbase : pathOrEmpty target.urlBasePath ≠ [])
    (hrest : rest = [] ∨ rest.head? = some '/') :
    rewriteLocation protocol target
        (target.originOf protocol ++ pathOrEmpty target.urlBasePath ++ rest) =
      toProxyPath (pathOrEmpty target.mountPath) (if rest = [] then ['/'] else rest) := by
  unfold rewriteLocation originOf
  rcases hrest with rfl | hslash
  · simp
  · obtain ⟨tail, rfl⟩ := List.head?_eq_some_iff.mp hslash
    by_cases htail : tail = []
    · simp [htail]
    · have hdrop : ∀ pre : Text, (pre ++ '/' :: tail).drop pre.length = '/' :: tail :=
        fun pre => drop_left
      simp [htail, hbase, hdrop]

theorem rewriteLocation_root :
    rewriteLocation protocol target
        (target.originOf protocol ++ pathOrEmpty target.urlBasePath ++ ['/']) =
      toProxyPath (pathOrEmpty target.mountPath) ['/'] := by
  unfold rewriteLocation originOf
  simp

theorem rewriteLocation_no_base {rest : Text} (hbase : pathOrEmpty target.urlBasePath = [])
    (hrest : rest ≠ [] ∧ rest ≠ ['/']) :
    rewriteLocation protocol target (target.originOf protocol ++ rest) =
      target.originOf protocol ++ rest := by
  unfold rewriteLocation originOf
  simp [hbase, hrest.1, hrest.2]

/-- A location outside of them is left as it is. -/
theorem rewriteLocation_other {location : Text}
    (hbase : ¬ Under (target.originOf protocol ++ pathOrEmpty target.urlBasePath) location)
    (horigin : location ≠ target.originOf protocol) :
    rewriteLocation protocol target location = location := by
  unfold originOf at hbase horigin
  unfold rewriteLocation
  rw [Under, not_or] at hbase
  have hslash : location ≠
      protocol ++ "://".toList ++ target.host ++ pathOrEmpty target.urlBasePath ++ "/".toList :=
    fun heq => hbase.2 (heq ▸ prefix_refl _)
  have hprefix : (protocol ++ "://".toList ++ target.host ++ pathOrEmpty target.urlBasePath ++
      "/".toList).isPrefixOf location = false :=
    Bool.eq_false_iff.mpr (fun h => hbase.2 (List.isPrefixOf_iff_prefix.mp h))
  simp only [hbase.1, hslash, or_self, if_false, hprefix, Bool.and_false, Bool.false_eq_true,
    horigin]

end Location

/-! ### The path behind the mount -/

section Mounted

variable {mount path : Text}

/-- A request path that goes on behind its mount. -/
structure GoesOn (mount path : Text) : Prop where
  request : IsRequestPath path
  matches_mount : pathMatchesMapping path mount = true
  longer : mount.length < path.length

theorem GoesOn.stripped_head (h : GoesOn mount path) :
    (stripMountPath path (some mount)).head? = some '/' :=
  stripMountPath_head h.request.rooted

section

variable (mapping : Text) (h : GoesOn (normalizeMappingPath mapping) path)

include mapping h

/-- What is left of the path is the path itself behind the root, or what follows the mount. -/
theorem stripMountPath_cases :
    (normalizeMappingPath mapping = ['/'] ∧
      stripMountPath path (some (normalizeMappingPath mapping)) = path) ∨
    (normalizeMappingPath mapping ≠ ['/'] ∧ normalizeMappingPath mapping ≠ [] ∧
      path = normalizeMappingPath mapping ++
        stripMountPath path (some (normalizeMappingPath mapping))) := by
  rcases pathBase_normalizeMappingPath mapping with ⟨hroot, hmount⟩ | ⟨hroot, hmount, hne⟩
  · exact .inl ⟨hroot, stripMountPath_of_root hmount h.request.rooted⟩
  · have hunder := (pathMatchesMapping_iff.mp h.matches_mount).resolve_left hroot
    obtain ⟨tail, happend, _, hstrip⟩ :=
      stripMountPath_of_under (by rw [hmount]; exact hne) (by rw [hmount]; exact hunder)
    rw [hmount] at happend
    have hlonger := h.longer
    rw [happend, length_append] at hlonger
    rw [if_neg (fun hnil => by simp [hnil] at hlonger)] at hstrip
    exact .inr ⟨hroot, hne, hstrip ▸ happend⟩

/-- Only what is left of the path when the mount is cut off becomes that path again. -/
theorem toProxyPath_eq_iff {rest : Text} (hrest : rest ≠ ['/']) :
    toProxyPath (pathOrEmpty (some (normalizeMappingPath mapping))) rest = path ↔
      rest = stripMountPath path (some (normalizeMappingPath mapping)) := by
  rcases stripMountPath_cases mapping h with ⟨hroot, hstrip⟩ | ⟨hroot, hne, happend⟩
  · rw [hstrip, hroot]
    simp [toProxyPath, pathOrEmpty, Option.filter]
  · nth_rw 1 [happend]
    simp [toProxyPath, pathOrEmpty, Option.filter, hroot, hne, hrest]

/-- The root of the proxy is no request behind the mount. -/
theorem toProxyPath_root_ne :
    toProxyPath (pathOrEmpty (some (normalizeMappingPath mapping))) ['/'] ≠ path := by
  intro heq
  have hlonger := h.longer
  rw [← heq] at hlonger
  rcases stripMountPath_cases mapping h with ⟨hroot, _⟩ | ⟨hroot, hne, _⟩
  · rw [hroot] at hlonger
    exact absurd hlonger (by decide)
  · simp [toProxyPath, pathOrEmpty, Option.filter, hroot, hne] at hlonger

/-- A slash is all that is left exactly if it is all that is behind the mount. -/
theorem stripMountPath_eq_root_iff :
    stripMountPath path (some (normalizeMappingPath mapping)) = ['/'] ↔
      normalizeMappingPath mapping ≠ ['/'] ∧ path = normalizeMappingPath mapping ++ ['/'] := by
  rcases stripMountPath_cases mapping h with ⟨hroot, hstrip⟩ | ⟨hroot, _, happend⟩
  · have hlonger := h.longer
    refine iff_of_false (fun heq => ?_) (fun hnot => hnot.1 hroot)
    rw [hroot, ← hstrip, heq] at hlonger
    exact absurd hlonger (by decide)
  · nth_rw 2 [happend]
    simp [hroot]

end

end Mounted

/-! ### A redirect to the request itself -/

/-- The origin of a URL, with the port if it is not the scheme's own. -/
def Url.origin (parsed : Url) (host : Text) : Text :=
  parsed.scheme ++ "://".toList ++ host ++
    ((parsed.port.map (fun port => ':' :: Nat.toDigits 10 port.toNat)).getD [])

/-- The requests whose path comes back. -/
structure ComesBack (parsed : Url) (base mount path : Text) : Prop where
  default_port : parsed.port = none
  has_base : base ≠ []
  outside_base : ¬ Under base path
  more_than_slash : mount = ['/'] ∨ path ≠ mount ++ ['/']

/-- A target that is written as a URL and mounted, as the configuration has it. -/
structure IsMounted (target : ProxyTarget) (scheme base mapping : Text) : Prop where
  web_scheme : scheme = "https".toList ∨ scheme = "http".toList
  base_eq : pathOrEmpty target.urlBasePath = base
  path_base : pathBase target.urlBasePath = base
  rooted : base = [] ∨ base.head? = some '/'
  mount : target.mountPath = some (normalizeMappingPath mapping)

section Returning

variable {target : ProxyTarget} {scheme base mapping path rest : Text}

theorem IsMounted.origin_ne (h : IsMounted target scheme base mapping)
    (hpath : GoesOn (normalizeMappingPath mapping) path) (rest : Text) :
    target.originOf scheme ++ rest ≠ path := by
  intro heq
  have hrooted := hpath.request.rooted
  rw [← heq, originOf] at hrooted
  rcases h.web_scheme with rfl | rfl <;> cases hrooted

theorem IsMounted.rewriteLocation_port (h : IsMounted target scheme base mapping) (rest : Text) :
    rewriteLocation scheme target (target.originOf scheme ++ ':' :: rest) =
      target.originOf scheme ++ ':' :: rest := by
  refine rewriteLocation_other (fun hunder => ?_) (by simp)
  obtain ⟨tail, happend, htail⟩ := under_iff.mp hunder
  rw [append_assoc] at happend
  have hcolon := congrArg head? (append_cancel_left happend)
  rw [h.base_eq] at hcolon
  rcases h.rooted with hnil | hslash
  · rw [hnil] at hcolon
    rcases htail with rfl | hslash
    · cases hcolon
    · rw [nil_append, hslash] at hcolon
      cases hcolon
  · obtain ⟨baseTail, hbaseTail⟩ := List.head?_eq_some_iff.mp hslash
    rw [hbaseTail] at hcolon
    cases hcolon

theorem IsMounted.rewriteLocation_no_base (h : IsMounted target scheme [] mapping)
    (hpath : GoesOn (normalizeMappingPath mapping) path) (hrest : rest ≠ []) :
    rewriteLocation scheme target (target.originOf scheme ++ rest) ≠ path := by
  by_cases hslash : rest = ['/']
  · have hroot : rewriteLocation scheme target (target.originOf scheme ++ ['/']) =
        toProxyPath (pathOrEmpty target.mountPath) ['/'] := by
      have hroot : rewriteLocation scheme target
          (target.originOf scheme ++ pathOrEmpty target.urlBasePath ++ ['/']) = _ :=
        rewriteLocation_root
      rwa [h.base_eq, append_nil] at hroot
    rw [hslash, hroot, h.mount]
    exact toProxyPath_root_ne mapping hpath
  · rw [FerrumProxy.rewriteLocation_no_base h.base_eq ⟨hrest, hslash⟩]
    exact h.origin_ne hpath rest

/-- Behind the base path, what is left of the request path becomes that path again. -/
theorem IsMounted.rewriteLocation_base_iff (h : IsMounted target scheme base mapping)
    (hbase : base ≠ []) (hpath : GoesOn (normalizeMappingPath mapping) path)
    (hrest : rest = [] ∨ rest.head? = some '/') :
    rewriteLocation scheme target (target.originOf scheme ++ (base ++ rest)) = path ↔
      rest = stripMountPath path (some (normalizeMappingPath mapping)) ∧ rest ≠ ['/'] := by
  have hhead := hpath.stripped_head
  rw [← append_assoc, ← h.base_eq, rewriteLocation_base (by rw [h.base_eq]; exact hbase) hrest,
    h.mount]
  by_cases hnil : rest = []
  · rw [if_pos hnil]
    refine iff_of_false (toProxyPath_root_ne mapping hpath) (fun ⟨heq, _⟩ => ?_)
    rw [← heq, hnil] at hhead
    cases hhead
  · rw [if_neg hnil]
    by_cases hslash : rest = ['/']
    · rw [hslash]
      exact iff_of_false (toProxyPath_root_ne mapping hpath) (fun ⟨_, hnot⟩ => hnot rfl)
    · rw [toProxyPath_eq_iff mapping hpath hslash]
      exact (and_iff_left hslash).symm

/-- A request that lies under the base path is not sent there, and does not come back. -/
theorem IsMounted.rewriteLocation_stripped_ne (h : IsMounted target scheme base mapping)
    (hbase : base ≠ []) (hpath : GoesOn (normalizeMappingPath mapping) path) :
    rewriteLocation scheme target (target.originOf scheme ++
      stripMountPath path (some (normalizeMappingPath mapping))) ≠ path := by
  have hhead := hpath.stripped_head
  by_cases hunder : Under base (stripMountPath path (some (normalizeMappingPath mapping)))
  · obtain ⟨rest, happend, hrest⟩ := under_iff.mp hunder
    rw [happend, ne_eq, h.rewriteLocation_base_iff hbase hpath hrest, happend]
    intro ⟨hself, _⟩
    exact hbase (self_eq_append_left.mp hself)
  · rw [rewriteLocation_other]
    · exact h.origin_ne hpath _
    · intro hother
      obtain ⟨rest, happend, hrest⟩ := under_iff.mp hother
      rw [h.base_eq, append_assoc] at happend
      exact hunder (under_iff.mpr ⟨rest, append_cancel_left happend, hrest⟩)
    · intro hnil
      rw [append_right_eq_self.mp hnil] at hhead
      cases hhead

theorem IsMounted.rewriteLocation_rewritten_iff {parsed : Url} {host : Text}
    (h : IsMounted target parsed.scheme base mapping) (hhost : target.host = host)
    (hpath : GoesOn (normalizeMappingPath mapping) path) :
    rewriteLocation parsed.scheme target (parsed.origin host ++
        rewrittenPath target.urlBasePath target.mountPath path) = path ↔
      ComesBack parsed base (normalizeMappingPath mapping) path := by
  have hhead := hpath.stripped_head
  have hstripped : stripMountPath path (some (normalizeMappingPath mapping)) ≠ [] := fun hnil => by
    rw [hnil] at hhead
    cases hhead
  cases hport : parsed.port with
  | some port =>
    have hlocation : ∀ rest, parsed.origin host ++ rest =
        target.originOf parsed.scheme ++ ':' :: (Nat.toDigits 10 port.toNat ++ rest) := by
      intro rest
      simp [Url.origin, originOf, hport, hhost]
    rw [hlocation, h.rewriteLocation_port]
    refine iff_of_false (h.origin_ne hpath _) (fun hback => ?_)
    rw [hback.default_port] at hport
    cases hport
  | none =>
    have hlocation : ∀ rest, parsed.origin host ++ rest =
        target.originOf parsed.scheme ++ rest := by
      intro rest
      simp [Url.origin, originOf, hport, hhost]
    rw [hlocation, rewrittenPath, h.path_base, h.mount]
    by_cases hbase : base = []
    · subst hbase
      rw [if_pos (.inl rfl)]
      exact iff_of_false (h.rewriteLocation_no_base hpath hstripped)
        (fun hback => hback.has_base rfl)
    · by_cases hunder : Under base path
      · rw [if_pos (.inr hunder)]
        exact iff_of_false (h.rewriteLocation_stripped_ne hbase hpath)
          (fun hback => hback.outside_base hunder)
      · rw [if_neg (by simp [hbase, hunder]), h.rewriteLocation_base_iff hbase hpath (.inr hhead),
          ne_eq, stripMountPath_eq_root_iff mapping hpath]
        constructor
        · intro hback
          exact ⟨hport, hbase, hunder, by tauto⟩
        · intro hback
          exact ⟨rfl, fun h => hback.more_than_slash.elim h.1 (fun hne => hne h.2)⟩

end Returning

theorem isMounted_mountTarget {url : UrlParser} (hurl : url.Standard) {t : ProxyTarget}
    {parsed : Url} {host : Text} (hparse : url.parse t.host = some parsed)
    (hhost : parsed.host = some host) (hscheme : isHttpScheme parsed.scheme = true)
    (mapping : Text) :
    IsMounted (mountTarget url (normalizeMappingPath mapping) t) parsed.scheme
      ((normalizeUrlHost url t).urlBasePath.getD []) mapping := by
  have hbasePath := isBasePath_of_parse hurl hparse hhost
  have hlast := pathBase_last (normalizeUrlHost url t).urlBasePath
  rw [hbasePath.base_eq] at hlast
  exact ⟨by simpa [isHttpScheme] using hscheme, pathOrEmpty_of_last hlast, hbasePath.base_eq,
    hbasePath.rooted, rfl⟩

/-- **Which redirects come back to where they were.**  The backend redirects the rewritten
request to its own URL.  The client is sent to the path it asked for exactly if the URL of
the target has a base path and no port of its own, the path does not lie under the base path
already, and more than a slash is behind the mount. -/
theorem redirect_returns_iff {url : UrlParser} (hurl : url.Standard) {t : ProxyTarget}
    {parsed : Url} {host : Text} (hparse : url.parse t.host = some parsed)
    (hhost : parsed.host = some host) (hscheme : isHttpScheme parsed.scheme = true)
    (mapping : Text) {path : Text} (hpath : GoesOn (normalizeMappingPath mapping) path)
    {buf : Bytes} {headEnd : Nat} (hhead : headerEnd buf = some headEnd) {before after : List Text}
    {line : Text}
    (hlines : splitCrlf (fromUtf8Lossy (buf.take headEnd)) = before ++ line :: after)
    (hline : isHeaderLine "location:".toList line = true)
    (hlocation : trim (line.drop 9) = parsed.origin host ++
      normalizeProxyPath url (normalizeUrlHost url t).urlBasePath path
        (some (normalizeMappingPath mapping))) :
    ∃ location,
      rewriteHttpResponse buf (mountTarget url (normalizeMappingPath mapping) t) =
        toUtf8 (joinCrlf (before.map (rewriteResponseLine parsed.scheme
            (mountTarget url (normalizeMappingPath mapping) t)) ++
          ("Location: ".toList ++ location) :: after.map (rewriteResponseLine parsed.scheme
            (mountTarget url (normalizeMappingPath mapping) t)))) ++
          crlfcrlf ++ buf.drop (headEnd + 4) ∧
      (location = path ↔ ComesBack parsed ((normalizeUrlHost url t).urlBasePath.getD [])
        (normalizeMappingPath mapping) path) := by
  have hmounted := isMounted_mountTarget hurl hparse hhost hscheme mapping
  have htarget : (mountTarget url (normalizeMappingPath mapping) t).host = host ∧
      (mountTarget url (normalizeMappingPath mapping) t).urlProtocol = some parsed.scheme := by
    simp [mountTarget, normalizeUrlHost, hparse, hhost, hscheme]
  have hpathEq : normalizeProxyPath url (normalizeUrlHost url t).urlBasePath path
      (some (normalizeMappingPath mapping)) = rewrittenPath (normalizeUrlHost url t).urlBasePath
        (some (normalizeMappingPath mapping)) path := by
    have hquery : normalizeProxyPath url (normalizeUrlHost url t).urlBasePath
        (path ++ querySuffix none) (some (normalizeMappingPath mapping)) = _ :=
      normalizeProxyPath_eq url hpath.request none
    simpa [querySuffix] using hquery
  rw [hpathEq] at hlocation
  refine ⟨_, ?_, hmounted.rewriteLocation_rewritten_iff htarget.1 hpath⟩
  rw [rewriteHttpResponse, htarget.2, hhead]
  simp only [hlines, map_append, map_cons]
  rw [rewriteResponseLine, if_pos hline, hlocation]
  rfl

/-- A backend without a base path redirects to its own URL, and the client gets to see it. -/
theorem redirect_not_returned :
    backendUrl.Standard ∧
      GoesOn (normalizeMappingPath "/m".toList) "/m/x".toList ∧
      normalizeProxyPath backendUrl
        (normalizeUrlHost backendUrl (backendTarget "/".toList)).urlBasePath
        "/m/x".toList (some (normalizeMappingPath "/m".toList)) = "/x".toList ∧
      rewriteHttpResponse
          (toUtf8 "HTTP/1.1 302 Found\r\nLocation: http://backend/x\r\n\r\n".toList)
          (mountTarget backendUrl (normalizeMappingPath "/m".toList)
            (backendTarget "/".toList)) =
        toUtf8 "HTTP/1.1 302 Found\r\nLocation: http://backend/x\r\n\r\n".toList := by
  refine ⟨standard_backendUrl, ⟨⟨rfl, by decide⟩, by decide, by decide⟩,
    by decide, by decide +kernel⟩

/-- One with a base path redirects to the path that was asked for. -/
theorem redirect_returns_iff_base :
    rewriteHttpResponse
        (toUtf8 "HTTP/1.1 302 Found\r\nLocation: http://backend/app/x\r\n\r\n".toList)
        (mountTarget backendUrl (normalizeMappingPath "/m".toList)
          (backendTarget "/app".toList)) =
      toUtf8 "HTTP/1.1 302 Found\r\nLocation: /m/x\r\n\r\n".toList := by
  have hurl : backendUrl.Standard := standard_backendUrl
  have hpath : GoesOn (normalizeMappingPath "/m".toList) "/m/x".toList :=
    ⟨⟨rfl, by decide⟩, by decide, by decide⟩
  have hhead : headerEnd (toUtf8
      "HTTP/1.1 302 Found\r\nLocation: http://backend/app/x\r\n\r\n".toList) = some 50 := by
    decide +kernel
  have hlines : splitCrlf (fromUtf8Lossy ((toUtf8
      "HTTP/1.1 302 Found\r\nLocation: http://backend/app/x\r\n\r\n".toList).take 50)) =
      ["HTTP/1.1 302 Found".toList] ++ "Location: http://backend/app/x".toList :: [] := by
    decide +kernel
  obtain ⟨location, hresponse, hback⟩ := redirect_returns_iff hurl
    (t := backendTarget "/app".toList) rfl rfl (by decide) "/m".toList hpath hhead hlines
    (by decide) (by decide)
  have hlocation : location = "/m/x".toList :=
    hback.mpr ⟨rfl, by decide, by decide, .inr (by decide)⟩
  rw [hresponse, hlocation]
  decide +kernel

end FerrumProxy
