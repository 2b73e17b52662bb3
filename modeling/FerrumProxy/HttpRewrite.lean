import FerrumProxy.HttpRequestHead

/-!
# Rewriting request heads

For a target that is written as a URL the proxy rewrites each HTTP/1 request: the path, the `Host`
header and the forwarding headers.  Bytes count as a request when they start with one of nine
methods.
-/

namespace FerrumProxy

open Wire Str

def httpMethods : List Text :=
  ["GET".toList, "POST".toList, "PUT".toList, "PATCH".toList, "DELETE".toList, "HEAD".toList,
    "OPTIONS".toList, "TRACE".toList, "CONNECT".toList]

def isLikelyHttpRequest (buf : Bytes) : Bool :=
  let headEnd := (headerEnd buf).getD (min buf.length 128)
  let line := (splitCrlf (fromUtf8Lossy (buf.take headEnd))).headD []
  httpMethods.contains ((split ' ' line).headD [])

/-! ### The path -/

def stripMountPath (pathPart : Text) (mountPath : Option Text) : Text :=
  match mountPath.filter (· != "/".toList) with
  | none => pathPart
  | some mountPath =>
    let normalizedMount := trimEndMatches '/' mountPath
    if pathPart = normalizedMount then "/".toList
    else
      match pathPart.dropPrefix? (normalizedMount ++ "/".toList) with
      | some stripped => "/".toList ++ stripped
      | none => pathPart

/-- `normalize_proxy_path` on a target that is no URL. -/
def normalizePathTarget (basePath : Option Text) (requestTarget : Text)
    (mountPath : Option Text) : Text :=
  let cut := splitOnce '?' requestTarget
  let pathPart := (cut.map Prod.fst).getD requestTarget
  if pathPart.head? ≠ some '/' then requestTarget
  else
    let normalizedBase := ((basePath.filter (· != "/".toList)).map (trimEndMatches '/')).getD []
    let mountedPath := stripMountPath pathPart mountPath
    let rewrittenPath :=
      if !normalizedBase.isEmpty && pathPart != normalizedBase &&
          !(normalizedBase ++ "/".toList).isPrefixOf pathPart then
        if mountedPath = "/".toList then normalizedBase ++ "/".toList
        else normalizedBase ++ mountedPath
      else mountedPath
    match cut with
    | some (_, query) => rewrittenPath ++ "?".toList ++ query
    | none => rewrittenPath

/-- The path and the query of a URL. -/
def Url.pathAndQuery (parsed : Url) : Text :=
  parsed.path ++ ((parsed.query.map ("?".toList ++ ·)).getD [])

/-- A URL is first cut down to its path, which starts with a slash. -/
def normalizeProxyPath (url : UrlParser) (basePath : Option Text) (requestTarget : Text)
    (mountPath : Option Text) : Text :=
  if hasUrlScheme requestTarget then
    match url.parse requestTarget with
    | some parsed => normalizePathTarget basePath parsed.pathAndQuery mountPath
    | none => normalizePathTarget basePath requestTarget mountPath
  else normalizePathTarget basePath requestTarget mountPath

/-! ### The head -/

/-- The line starts with the header's name, in lower case and with its colon. -/
def isHeaderLine (name line : Text) : Bool := name.isPrefixOf (toAsciiLowercase line)

def rewriteHostLine (target : ProxyTarget) (line : Text) : Text :=
  if isHeaderLine "host:".toList line then "Host: ".toList ++ target.host else line

/-- The value of the last `Host` line. -/
def originalHost (lines : List Text) : Option Text :=
  (lines.filter (isHeaderLine "host:".toList)).getLast?.map (fun line => trim (line.drop 5))

/-- The lines of a rewritten head. -/
def rewriteLines (url : UrlParser) (target : ProxyTarget) (forwardedProto method requestTarget
    version : Text) (lines : List Text) : List Text :=
  let requestLine := method ++ " ".toList ++
    normalizeProxyPath url target.urlBasePath requestTarget target.mountPath ++ " ".toList ++ version
  let rewritten := requestLine :: lines.map (rewriteHostLine target)
  let rewritten :=
    if lines.any (isHeaderLine "host:".toList) then rewritten
    else rewritten ++ ["Host: ".toList ++ target.host]
  let rewritten :=
    match originalHost lines with
    | some host =>
      if rewritten.any (isHeaderLine "x-forwarded-host:".toList) then rewritten
      else rewritten ++ ["X-Forwarded-Host: ".toList ++ host]
    | none => rewritten
  if rewritten.any (isHeaderLine "x-forwarded-proto:".toList) then rewritten
  else rewritten ++ ["X-Forwarded-Proto: ".toList ++ forwardedProto]

def joinCrlf (lines : List Text) : Text := "\r\n".toList.intercalate lines

/-- The head of a request, rewritten if its first line is that of HTTP/1. -/
def rewriteHead (url : UrlParser) (target : ProxyTarget) (forwardedProto head : Text) :
    Option Text :=
  match splitCrlf head with
  | [] => none
  | requestLine :: lines =>
    match splitWhitespace requestLine with
    | [method, requestTarget, version] =>
      if "HTTP/1.".toList.isPrefixOf version then
        some (joinCrlf
          (rewriteLines url target forwardedProto method requestTarget version lines))
      else none
    | _ => none

def rewriteHttpRequest (url : UrlParser) (buf : Bytes) (target : ProxyTarget)
    (forwardedProto : Text) : Bytes :=
  match headerEnd buf with
  | none => buf
  | some headEnd =>
    match rewriteHead url target forwardedProto (fromUtf8Lossy (buf.take headEnd)) with
    | none => buf
    | some head => toUtf8 head ++ crlfcrlf ++ buf.drop (headEnd + 4)

/-- What is written for bytes that may be a request. -/
def rewriteChunk (url : UrlParser) (target : ProxyTarget) (forwardedProto : Text) (chunk : Bytes) :
    Bytes :=
  if isLikelyHttpRequest chunk then rewriteHttpRequest url chunk target forwardedProto else chunk

/-! ### Only the head is looked at -/

section

variable (url : UrlParser) (target : ProxyTarget) (forwardedProto : Text) {buf : Bytes} {n : Nat}

theorem rewriteChunk_of_none (h : headerEnd buf = none) :
    rewriteChunk url target forwardedProto buf = buf := by
  unfold rewriteChunk rewriteHttpRequest
  rw [h]
  exact ite_self buf

theorem rewriteChunk_eq_append (h : headerEnd buf = some n) :
    rewriteChunk url target forwardedProto buf =
      rewriteChunk url target forwardedProto (buf.take (n + 4)) ++ buf.drop (n + 4) := by
  have hhead : headerEnd (buf.take (n + 4)) = some n :=
    (headerEnd_take buf (n + 4) n).mpr ⟨h, Nat.le_refl _⟩
  have htake : (buf.take (n + 4)).take n = buf.take n := take_head (Nat.le_refl _)
  have hlikely : isLikelyHttpRequest (buf.take (n + 4)) = isLikelyHttpRequest buf := by
    unfold isLikelyHttpRequest
    rw [h, hhead]
    simp only [Option.getD_some, htake]
  have hlength : (buf.take (n + 4)).drop (n + 4) = [] := List.drop_take_self
  unfold rewriteChunk rewriteHttpRequest
  rw [hlikely, h, hhead]
  simp only [htake, hlength]
  split
  · split
    · exact (List.take_append_drop _ _).symm
    · rw [List.append_nil]
  · exact (List.take_append_drop _ _).symm

end

end FerrumProxy
