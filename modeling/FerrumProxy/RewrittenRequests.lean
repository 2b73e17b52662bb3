import FerrumProxy.ConfigRoundTrip
import FerrumProxy.HttpRewrite
import FerrumProxy.TextLines
import FerrumProxy.Utf8Texts

/-!
# What a rewritten request keeps

`rewrite_http_request` decodes the head of a request, which replaces what is not UTF-8, and
writes the text again.  The lines of a head are compared here as bytes.
-/

namespace FerrumProxy

open Wire Str

def crlfBytes : Bytes := [0x0d, 0x0a]

/-- The lines of a head. -/
def splitCrlfBytes : Bytes → List Bytes
  | [] => [[]]
  | 0x0d :: 0x0a :: rest => [] :: splitCrlfBytes rest
  | b :: rest =>
    match splitCrlfBytes rest with
    | [] => [[b]]
    | piece :: pieces => (b :: piece) :: pieces

/-- The line is that of a header, given in lower case and with its colon. -/
def isHeaderBytes (name : Text) (line : Bytes) : Bool := isHeaderLine name (fromUtf8Lossy line)

/-- A `Host` line is replaced, any other line stays. -/
def rewriteHostBytes (target : ProxyTarget) (line : Bytes) : Bytes :=
  if isHeaderBytes "host:".toList line then toUtf8 ("Host: ".toList ++ target.host) else line

/-- The `Host` line of a request that has none. -/
def missingHost (target : ProxyTarget) (lines : List Text) : List Text :=
  if lines.any (isHeaderLine "host:".toList) then [] else ["Host: ".toList ++ target.host]

/-- Nothing, or one line with a header that the lines do not have. -/
def AddedTo (lines : List Text) (name title : Text) (added : List Text) : Prop :=
  added = [] ∨ lines.any (isHeaderLine name) = false ∧ ∃ value, added = [title ++ value]

/-- The output has the body, and of the lines all but the first and the `Host` lines; these are
replaced, and only headers that were missing are added. -/
def Preserves (target : ProxyTarget) (headEnd : Nat) (buf out : Bytes) : Prop :=
  ∃ requestLine forwardedHost forwardedProto,
    let lines := (splitCrlfBytes (buf.take headEnd)).tail
    let texts := lines.map fromUtf8Lossy
    AddedTo texts "x-forwarded-host:".toList "X-Forwarded-Host: ".toList forwardedHost ∧
      AddedTo texts "x-forwarded-proto:".toList "X-Forwarded-Proto: ".toList forwardedProto ∧
      out = crlfBytes.intercalate (requestLine :: (lines.map (rewriteHostBytes target) ++
          (missingHost target texts ++ forwardedHost ++ forwardedProto).map toUtf8)) ++
        crlfcrlf ++ buf.drop (headEnd + 4)

/-! ## Lines of bytes and of text -/

open List

theorem splitCrlfBytes_ne_nil (bytes : Bytes) : splitCrlfBytes bytes ≠ [] := by
  induction bytes using splitCrlfBytes.induct with
  | case1 | case2 => exact cons_ne_nil _ _
  | case3 b rest hline hnil ih => exact absurd hnil ih
  | case4 b rest hline piece pieces hpieces ih =>
    rw [splitCrlfBytes.eq_3 b rest hline, hpieces]
    exact cons_ne_nil _ _

/-- Joining the lines gives the head, and no line has a line end in it. -/
theorem splitCrlfBytes_spec (bytes : Bytes) :
    crlfBytes.intercalate (splitCrlfBytes bytes) = bytes ∧
      ∀ line ∈ splitCrlfBytes bytes, ¬ crlfBytes <:+: line := by
  induction bytes using splitCrlfBytes.induct with
  | case1 => simp [splitCrlfBytes, crlfBytes]
  | case2 rest ih =>
    obtain ⟨piece, pieces, hpieces⟩ := exists_cons_of_ne_nil (splitCrlfBytes_ne_nil rest)
    rw [hpieces] at ih
    rw [splitCrlfBytes, hpieces, intercalate_cons_cons, ih.1]
    refine ⟨rfl, forall_mem_cons.mpr ⟨?_, ih.2⟩⟩
    simp [crlfBytes]
  | case3 b rest hline hnil ih => exact absurd hnil (splitCrlfBytes_ne_nil rest)
  | case4 b rest hline piece pieces hpieces ih =>
    rw [hpieces] at ih
    obtain ⟨hjoin, hlines⟩ := ih
    obtain ⟨more, hmore, hcons⟩ : ∃ more, rest = piece ++ more ∧
        crlfBytes.intercalate ((b :: piece) :: pieces) = b :: piece ++ more := by
      cases pieces with
      | nil => exact ⟨[], by rw [← hjoin]; simp, by simp⟩
      | cons next pieces =>
        rw [intercalate_cons_cons, append_assoc] at hjoin
        exact ⟨_, hjoin.symm, by rw [intercalate_cons_cons, append_assoc]⟩
    rw [splitCrlfBytes.eq_3 b rest hline, hpieces]
    refine ⟨by rw [hcons, hmore]; rfl, forall_mem_cons.mpr ⟨?_, ?_⟩⟩
    · intro hword
      cases infix_cons_iff.mp hword with
      | inl hstart =>
        obtain ⟨hb, tail, htail⟩ := cons_prefix_cons.mp hstart
        exact hline (tail ++ more) hb.symm (by rw [hmore, ← htail]; rfl)
      | inr hrest => exact hlines piece mem_cons_self hrest
    · exact fun line hmem => hlines line (mem_cons_of_mem _ hmem)

theorem fromUtf8Lossy_crlf (left right : Bytes) :
    fromUtf8Lossy (left ++ crlfBytes ++ right) =
      fromUtf8Lossy left ++ '\r' :: '\n' :: fromUtf8Lossy right := by
  have hright := fromUtf8Lossy_append ['\r', '\n'] right
  rw [append_assoc, crlfBytes, cons_append, fromUtf8Lossy_append_ascii (by decide)]
  exact congrArg (fromUtf8Lossy left ++ ·) hright

theorem splitCrlf_fromUtf8Lossy_line {line : Bytes} (h : ¬ crlfBytes <:+: line) :
    splitCrlf (fromUtf8Lossy line) = [fromUtf8Lossy line] := by
  induction hlength : line.length using Nat.strongRecOn generalizing line with
  | _ n ih =>
    subst hlength
    cases line with
    | nil => rfl
    | cons b rest =>
      have hsuffix := utf8Next_suffix b rest
      have hrest : ¬ crlfBytes <:+: (utf8Next b rest).2 := fun hword =>
        h (hword.trans (hsuffix.isInfix.trans (suffix_cons b rest).isInfix))
      rw [fromUtf8Lossy_cons]
      refine splitCrlf_cons ?_ (ih _ (Nat.lt_succ_of_le hsuffix.length_le) hrest rfl)
      -- a line end in the text would be one in the bytes
      intro s hreturn hread
      obtain ⟨hb, hsame⟩ := utf8Next_ascii hreturn (by decide)
      rw [hsame] at hread
      obtain ⟨d, later, rfl, hd⟩ := fromUtf8Lossy_head hread (by decide)
      have hb' : b = 13 := UInt8.toNat_inj.mp hb
      have hd' : d = 10 := UInt8.toNat_inj.mp hd
      rw [hb', hd'] at h
      exact h ⟨[], later, rfl⟩

theorem splitCrlf_fromUtf8Lossy {lines : List Bytes} (hne : lines ≠ [])
    (h : ∀ line ∈ lines, ¬ crlfBytes <:+: line) :
    splitCrlf (fromUtf8Lossy (crlfBytes.intercalate lines)) = lines.map fromUtf8Lossy := by
  induction lines with
  | nil => exact absurd rfl hne
  | cons line lines ih =>
    obtain ⟨hline, hlines⟩ := forall_mem_cons.mp h
    cases lines with
    | nil => rw [intercalate_singleton, splitCrlf_fromUtf8Lossy_line hline]; rfl
    | cons next lines =>
      rw [intercalate_cons_cons, fromUtf8Lossy_crlf, splitCrlf_append,
        splitCrlf_fromUtf8Lossy_line hline, ih (cons_ne_nil _ _) hlines]
      rfl

theorem toUtf8_joinCrlf (texts : List Text) :
    toUtf8 (joinCrlf texts) = crlfBytes.intercalate (texts.map toUtf8) := by
  unfold joinCrlf
  induction texts with
  | nil => rfl
  | cons text texts ih =>
    cases texts with
    | nil => simp
    | cons next texts =>
      rw [intercalate_cons_cons, toUtf8_append, toUtf8_append, ih]
      exact intercalate_cons_cons.symm

theorem toUtf8_of_intercalate {lines : List Bytes} {text : Text}
    (h : crlfBytes.intercalate lines = toUtf8 text) : ∀ line ∈ lines, ∃ s, line = toUtf8 s := by
  induction lines generalizing text with
  | nil => exact fun _ hmem => nomatch hmem
  | cons line lines ih =>
    cases lines with
    | nil =>
      rw [intercalate_singleton] at h
      exact forall_mem_cons.mpr ⟨⟨text, h⟩, fun _ hmem => nomatch hmem⟩
    | cons next lines =>
      rw [intercalate_cons_cons, append_assoc] at h
      obtain ⟨first, rest, hfirst, hrest⟩ := toUtf8_eq_append (by decide) h.symm
      have hfeed : toUtf8 rest = [] ++ 0x0a :: crlfBytes.intercalate (next :: lines) := hrest.symm
      obtain ⟨_, later, _, hlater⟩ := toUtf8_eq_append (by decide) hfeed
      exact forall_mem_cons.mpr ⟨⟨first, hfirst⟩, ih hlater⟩

/-! ## Requests -/

/-- Headers with another first letter are no `Host` lines. -/
theorem not_host_of_forwarded {name line : Text} (hname : name.head? = some 'x')
    (h : isHeaderLine name line = true) : isHeaderLine "host:".toList line = false := by
  unfold isHeaderLine at h ⊢
  generalize toAsciiLowercase line = lower at h ⊢
  cases name with
  | nil => cases hname
  | cons c name =>
    cases hname
    cases lower with
    | nil => rfl
    | cons d lower =>
      obtain ⟨heq, _⟩ := cons_prefix_cons.mp (List.isPrefixOf_iff_prefix.mp h)
      rw [← heq]
      rfl

theorem addHeader_eq (target : ProxyTarget) (name title value : Text)
    (hname : name.head? = some 'x') (first : Text) (lines more : List Text) :
    ∃ added, AddedTo lines name title added ∧
      (if (first :: (lines.map (rewriteHostLine target) ++ more)).any (isHeaderLine name) then
        first :: (lines.map (rewriteHostLine target) ++ more)
      else first :: (lines.map (rewriteHostLine target) ++ more) ++ [title ++ value]) =
        first :: (lines.map (rewriteHostLine target) ++ (more ++ added)) := by
  split
  · exact ⟨[], .inl rfl, by rw [append_nil]⟩
  · rename_i hany
    refine ⟨[title ++ value], .inr ⟨?_, value, rfl⟩, by simp⟩
    rw [List.any_eq_false]
    intro line hmem hheader
    -- a line with this header is not replaced, so it would have been found
    have hkept : rewriteHostLine target line = line := by
      rw [rewriteHostLine, not_host_of_forwarded hname hheader]
      rfl
    exact hany (List.any_eq_true.mpr ⟨line, mem_cons_of_mem _ (mem_append_left _
      (List.mem_map.mpr ⟨line, hmem, hkept⟩)), hheader⟩)

theorem rewriteLines_eq (url : UrlParser) (target : ProxyTarget) (forwardedProto method
    requestTarget version : Text) (lines : List Text) :
    ∃ first host proto, AddedTo lines "x-forwarded-host:".toList "X-Forwarded-Host: ".toList host ∧
      AddedTo lines "x-forwarded-proto:".toList "X-Forwarded-Proto: ".toList proto ∧
      rewriteLines url target forwardedProto method requestTarget version lines =
        first :: (lines.map (rewriteHostLine target) ++
          (missingHost target lines ++ host ++ proto)) := by
  unfold rewriteLines
  dsimp only
  generalize method ++ _ ++ _ ++ _ ++ version = first
  have hfirst : (if lines.any (isHeaderLine "host:".toList) then
        first :: lines.map (rewriteHostLine target)
      else first :: lines.map (rewriteHostLine target) ++ ["Host: ".toList ++ target.host]) =
        first :: (lines.map (rewriteHostLine target) ++ missingHost target lines) := by
    unfold missingHost
    split <;> simp
  rw [hfirst]
  have hproto := addHeader_eq target "x-forwarded-proto:".toList "X-Forwarded-Proto: ".toList
    forwardedProto rfl first lines
  cases originalHost lines with
  | none =>
    obtain ⟨proto, hadded, heq⟩ := hproto (missingHost target lines)
    exact ⟨first, [], proto, .inl rfl, hadded, by rw [append_nil]; exact heq⟩
  | some original =>
    obtain ⟨host, hhost, heq⟩ := addHeader_eq target "x-forwarded-host:".toList
      "X-Forwarded-Host: ".toList original rfl first lines (missingHost target lines)
    obtain ⟨proto, hadded, heq'⟩ := hproto (missingHost target lines ++ host)
    simp only [heq]
    exact ⟨first, host, proto, hhost, hadded, heq'⟩

/-- What a changed request has become. -/
theorem rewriteHttpRequest_eq {url : UrlParser} {target : ProxyTarget} {forwardedProto : Text}
    {buf : Bytes} (h : rewriteHttpRequest url buf target forwardedProto ≠ buf) :
    ∃ headEnd lines, headerEnd buf = some headEnd ∧
      (splitCrlfBytes (buf.take headEnd)).tail = lines ∧
      ∃ first host proto,
        AddedTo (lines.map fromUtf8Lossy) "x-forwarded-host:".toList "X-Forwarded-Host: ".toList
          host ∧
        AddedTo (lines.map fromUtf8Lossy) "x-forwarded-proto:".toList "X-Forwarded-Proto: ".toList
          proto ∧
        rewriteHttpRequest url buf target forwardedProto =
          toUtf8 (joinCrlf (first :: ((lines.map fromUtf8Lossy).map (rewriteHostLine target) ++
            (missingHost target (lines.map fromUtf8Lossy) ++ host ++ proto)))) ++
          crlfcrlf ++ buf.drop (headEnd + 4) := by
  unfold rewriteHttpRequest at h ⊢
  cases hend : headerEnd buf with
  | none => simp [hend] at h
  | some headEnd =>
    obtain ⟨hjoin, hlines⟩ := splitCrlfBytes_spec (buf.take headEnd)
    obtain ⟨requestLine, lines, hsplit⟩ :=
      exists_cons_of_ne_nil (splitCrlfBytes_ne_nil (buf.take headEnd))
    refine ⟨headEnd, lines, rfl, by rw [hsplit]; rfl, ?_⟩
    have htexts : splitCrlf (fromUtf8Lossy (buf.take headEnd)) =
        fromUtf8Lossy requestLine :: lines.map fromUtf8Lossy := by
      have hread := splitCrlf_fromUtf8Lossy (splitCrlfBytes_ne_nil _) hlines
      rwa [hjoin, hsplit] at hread
    simp only [hend] at h ⊢
    cases hhead : rewriteHead url target forwardedProto (fromUtf8Lossy (buf.take headEnd)) with
    | none => simp [hhead] at h
    | some head =>
      unfold rewriteHead at hhead
      rw [htexts] at hhead
      dsimp only at hhead
      split at hhead
      · rename_i method requestTarget version hwords
        rw [Option.ite_none_right_eq_some] at hhead
        obtain ⟨_, hhead⟩ := hhead
        obtain ⟨first, host, proto, hhost, hproto, heq⟩ := rewriteLines_eq url target
          forwardedProto method requestTarget version (lines.map fromUtf8Lossy)
        exact ⟨first, host, proto, hhost, hproto, by rw [← Option.some.inj hhead, heq]⟩
      · cases hhead

/-- A request with one more header, whose value is given in bytes. -/
def requestWith (value : Bytes) : Bytes :=
  toUtf8 "GET / HTTP/1.1\r\nHost: a\r\nX-Name: ".toList ++ value ++ crlfcrlf

end FerrumProxy
