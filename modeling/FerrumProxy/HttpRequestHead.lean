import FerrumProxy.ByteStrings
import FerrumProxy.ConfigLoad

/-!
# HTTP request heads and routes

The part of `http_rewrite.rs` that reads a request head, and the choice of a mapping in
`ListenerRule::http_targets_for_request`.  Bytes that follow a complete head never change what is
read.
-/

namespace FerrumProxy

open Wire Str

/-- A line end and an empty line. -/
def crlfcrlf : Bytes := [0x0d, 0x0a, 0x0d, 0x0a]

def headerEnd : Bytes → Option Nat
  | [] => none
  | b :: rest =>
    if crlfcrlf.isPrefixOf (b :: rest) then some 0
    else (headerEnd rest).map (· + 1)

def hasUrlScheme (target : Text) : Bool :=
  "http://".toList.isPrefixOf target || "https://".toList.isPrefixOf target

/-- The path of a request line. -/
def requestLinePath (url : UrlParser) (line : Text) : Option Text :=
  match splitWhitespace line with
  | [_, target, version] =>
    if "HTTP/1.".toList.isPrefixOf version then
      if hasUrlScheme target then (url.parse target).map Url.path
      else
        let path := ((splitOnce '?' target).map Prod.fst).getD target
        if path.head? = some '/' then some path else none
    else none
  | _ => none

def httpRequestPath (url : UrlParser) (buf : Bytes) : Option Text :=
  let headEnd := (headerEnd buf).getD (min buf.length 1024)
  requestLinePath url (firstLine (fromUtf8Lossy (buf.take headEnd)))

def normalizeHttpAuthority (url : UrlParser) (value : Text) : Except String Text := do
  ensure (!value.isEmpty && value.all (fun c => c.isAlphanum || ".-:[]".toList.contains c))
    "invalid Host header"
  match url.parse ("http://".toList ++ value ++ "/".toList) with
  | none => .error "invalid URL"
  | some parsed =>
    match parsed.host with
    | none => .error "missing host"
    | some host => return toAsciiLowercase (trimEndMatches '.' host)

/-- One round of the header loop. -/
def scanHeaderLine (url : UrlParser) (host : Option Text) (line : Text) :
    Except String (Option Text) := do
  ensure (!(line.head? == some ' ' || line.head? == some '\t'))
    "folded headers are not accepted for host routing"
  match splitOnce ':' line with
  | none => .error "invalid HTTP header"
  | some (name, value) => do
      ensure (trim name == name) "invalid header name"
      if eqIgnoreAsciiCase name "host".toList then do
        ensure host.isNone "multiple Host headers"
        let authority ← normalizeHttpAuthority url (trim value)
        return some authority
      else
        return host

/-- The authority of an absolute-form request target has to be the Host. -/
def checkAbsoluteForm (url : UrlParser) (requestLine : Text) (host : Option Text) :
    Except String Unit :=
  match (splitWhitespace requestLine)[1]? with
  | some target =>
    if hasUrlScheme target then
      match url.parse target with
      | none => .error "invalid URL"
      | some parsed =>
        match parsed.host with
        | none => .error "missing authority"
        | some authority =>
          ensure (host == some (toAsciiLowercase (trimEndMatches '.' authority)))
            "absolute-form authority differs from Host"
    else .ok ()
  | none => .ok ()

def httpRequestHost (url : UrlParser) (buf : Bytes) : Except String (Option Text) :=
  match headerEnd buf with
  | none => .error "incomplete HTTP headers"
  | some headEnd =>
    match fromUtf8 (buf.take headEnd) with
    | none => .error "invalid utf-8 sequence"
    | some text => do
        let lines := splitCrlf text
        let host ← lines.tail.foldlM (scanHeaderLine url) none
        checkAbsoluteForm url (lines.headD []) host
        return host

/-! ### Routes -/

def pathMatchesMapping (requestPath mappingPath : Text) : Bool :=
  mappingPath == "/".toList || requestPath == mappingPath ||
    (mappingPath ++ "/".toList).isPrefixOf requestPath

/-- The order of the keys `(hostname.is_some(), path.len())`. -/
def specificityLe (a b : HttpTargetMapping) : Bool :=
  (!a.hostname.isSome && b.hostname.isSome) ||
    (a.hostname.isSome == b.hostname.isSome && decide (byteLen a.path ≤ byteLen b.path))

/-- `Iterator::max_by_key` over the mappings: the last one of those with the
greatest key. -/
def mostSpecific (mappings : List HttpTargetMapping) : Option HttpTargetMapping :=
  mappings.foldl
    (fun best m =>
      match best with
      | none => some m
      | some b => if specificityLe b m then some m else some b)
    none

def mappingApplies (requestPath : Text) (requestHost : Option Text) (m : HttpTargetMapping) :
    Bool :=
  pathMatchesMapping requestPath m.path &&
    (m.hostname.all (fun host => requestHost.any (fun actual => eqIgnoreAsciiCase host actual)))

def ListenerRule.httpTargetsForRequest (rule : ListenerRule) (protocol : Protocol)
    (requestPath requestHost : Option Text) : List ProxyTarget :=
  match requestPath with
  | none => []
  | some path =>
    match mostSpecific (rule.httpMappings.filter (mappingApplies path requestHost)) with
    | none => []
    | some m =>
      (chosenTargets m.target m.targets).filter (fun t => (t.portFor protocol).isSome)

/-! ### What follows the head does not matter -/

theorem headerEnd_le {buf : Bytes} {n : Nat} (h : headerEnd buf = some n) :
    n + 4 ≤ buf.length := by
  induction buf generalizing n with
  | nil => cases h
  | cons b rest ih =>
    unfold headerEnd at h
    by_cases hhere : crlfcrlf.isPrefixOf (b :: rest) = true
    · rw [if_pos hhere] at h
      cases h
      exact (List.isPrefixOf_iff_prefix.mp hhere).length_le
    · rw [if_neg hhere] at h
      obtain ⟨k, hk, rfl⟩ := Option.map_eq_some_iff.mp h
      have hrest := ih hk
      rw [List.length_cons]
      omega

/-- The first blank line of a prefix is that of the whole, if it is long enough
to contain it. -/
theorem headerEnd_take (buf : Bytes) (len n : Nat) :
    headerEnd (buf.take len) = some n ↔ headerEnd buf = some n ∧ n + 4 ≤ len := by
  induction buf generalizing len n with
  | nil => simp [headerEnd]
  | cons b rest ih =>
    cases len with
    | zero => simp [headerEnd]
    | succ len =>
      rw [List.take_succ_cons]
      have hhere : crlfcrlf.isPrefixOf (b :: rest.take len) = true ↔
          crlfcrlf.isPrefixOf (b :: rest) = true ∧ 4 ≤ len + 1 := by
        rw [List.isPrefixOf_iff_prefix, List.isPrefixOf_iff_prefix, ← List.take_succ_cons,
          List.prefix_take_iff]
        rfl
      unfold headerEnd
      by_cases hfirst : crlfcrlf.isPrefixOf (b :: rest) = true
      · by_cases hlen : 4 ≤ len + 1
        · rw [if_pos hfirst, if_pos (hhere.mpr ⟨hfirst, hlen⟩)]
          constructor
          · intro h
            cases h
            exact ⟨rfl, by omega⟩
          · exact And.left
        · -- too short for any blank line
          have hnone : ∀ k, headerEnd (rest.take len) ≠ some k := by
            intro k hk
            have hle := (headerEnd_le hk).trans (List.length_take_le len rest)
            omega
          rw [if_pos hfirst, if_neg (fun h => hlen (hhere.mp h).2)]
          constructor
          · intro h
            obtain ⟨k, hk, _⟩ := Option.map_eq_some_iff.mp h
            exact absurd hk (hnone k)
          · intro h
            omega
      · rw [if_neg hfirst, if_neg (fun h => hfirst (hhere.mp h).1)]
        simp only [Option.map_eq_some_iff, ih]
        constructor
        · intro h
          obtain ⟨k, ⟨hk, hle⟩, rfl⟩ := h
          exact ⟨⟨k, hk, rfl⟩, by omega⟩
        · intro h
          obtain ⟨⟨k, hk, rfl⟩, hle⟩ := h
          exact ⟨k, ⟨hk, by omega⟩, rfl⟩

section

variable (url : UrlParser) {buf : Bytes} {len n : Nat}

theorem take_head (hlen : n + 4 ≤ len) : (buf.take len).take n = buf.take n := by
  rw [List.take_take, Nat.min_eq_left (by omega)]

theorem httpRequestPath_take (hhead : headerEnd buf = some n) (hlen : n + 4 ≤ len) :
    httpRequestPath url (buf.take len) = httpRequestPath url buf := by
  unfold httpRequestPath
  rw [(headerEnd_take buf len n).mpr ⟨hhead, hlen⟩, hhead]
  simp only [Option.getD_some]
  rw [take_head hlen]

theorem httpRequestHost_take (hhead : headerEnd buf = some n) (hlen : n + 4 ≤ len) :
    httpRequestHost url (buf.take len) = httpRequestHost url buf := by
  unfold httpRequestHost
  rw [(headerEnd_take buf len n).mpr ⟨hhead, hlen⟩, hhead]
  simp only
  rw [take_head hlen]

end

end FerrumProxy
