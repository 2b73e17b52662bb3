import FerrumProxy.HttpRequestHead
import FerrumProxy.TextLines

/-!
# One host for a request

`http_request_host` is to refuse a head that names more than one host.  It cuts the head at each
carriage return and line feed, while `http_request_path`, and many a backend, cut it at each line
feed.  The lines around a line feed that stands alone are hidden from it.
-/

namespace FerrumProxy

open Wire Str

/-- The line is a `Host` header with the value. -/
def NamesHost (line value : Text) : Prop :=
  ∃ name, splitOnce ':' line = some (name, value) ∧ eqIgnoreAsciiCase name "host".toList = true

/-- Every line that names a host names the one. -/
def OnlyHost (url : UrlParser) (host : Text) (lines : List Text) : Prop :=
  ∀ line ∈ lines, ∀ value, NamesHost line value →
    normalizeHttpAuthority url (trim value) = .ok host

/-- The header lines of a head: all behind the first. -/
def headerLines (head : Text) : List Text := (lines head).tail

/-- The header lines that are cut at a line feed alone. -/
def hiddenLines (head : Text) : List Text :=
  (lines ((splitCrlf head).headD [])).tail ++
    ((splitCrlf head).tail.filter (fun piece => piece.contains '\n')).flatMap lines

open List

section Scanning

variable {url : UrlParser} {host : Text}

theorem onlyHost_append {left right : List Text} :
    OnlyHost url host (left ++ right) ↔ OnlyHost url host left ∧ OnlyHost url host right :=
  forall_mem_append

theorem scanHeaderLine_ok {before after : Option Text} {line : Text}
    (h : scanHeaderLine url before line = .ok after) :
    (after = before ∧ ∀ value, ¬ NamesHost line value) ∨
      (before = none ∧ ∃ host, after = some host ∧ OnlyHost url host [line]) := by
  obtain ⟨_, _, h⟩ := bind_eq_ok.mp h
  split at h
  · cases h
  · rename_i name value hsplit
    obtain ⟨_, _, h⟩ := bind_eq_ok.mp h
    split at h
    · obtain ⟨_, hnone, h⟩ := bind_eq_ok.mp h
      obtain ⟨authority, hauthority, h⟩ := bind_eq_ok.mp h
      cases h
      refine .inr ⟨Option.isNone_iff_eq_none.mp (ensure_eq_ok.mp hnone), authority, rfl, ?_⟩
      intro line' hline value' ⟨name', hsplit', _⟩
      rw [mem_singleton.mp hline, hsplit] at hsplit'
      cases hsplit'
      exact hauthority
    · rename_i hname
      cases h
      refine .inl ⟨rfl, fun value' ⟨name', hsplit', hname'⟩ => hname ?_⟩
      rw [hsplit] at hsplit'
      cases hsplit'
      exact hname'

theorem foldlM_scanHeaderLine_some {lines : List Text} {after : Option Text}
    (h : lines.foldlM (scanHeaderLine url) (some host) = .ok after) :
    after = some host ∧ OnlyHost url host lines := by
  induction lines with
  | nil =>
    cases h
    exact ⟨rfl, fun _ hline => (nomatch hline)⟩
  | cons line rest ih =>
    rw [foldlM_cons] at h
    obtain ⟨next, hnext, h⟩ := bind_eq_ok.mp h
    rcases scanHeaderLine_ok hnext with ⟨rfl, hnames⟩ | ⟨hnone, _⟩
    · obtain ⟨hafter, hrest⟩ := ih h
      refine ⟨hafter, fun line' hline value hvalue => ?_⟩
      rcases mem_cons.mp hline with rfl | hline
      · exact absurd hvalue (hnames value)
      · exact hrest line' hline value hvalue
    · cases hnone

theorem foldlM_scanHeaderLine {lines : List Text}
    (h : lines.foldlM (scanHeaderLine url) none = .ok (some host)) : OnlyHost url host lines := by
  induction lines with
  | nil => cases h
  | cons line rest ih =>
    rw [foldlM_cons] at h
    obtain ⟨next, hnext, h⟩ := bind_eq_ok.mp h
    rcases scanHeaderLine_ok hnext with ⟨rfl, hnames⟩ | ⟨_, first, rfl, hfirst⟩
    · intro line' hline value hvalue
      rcases mem_cons.mp hline with rfl | hline
      · exact absurd hvalue (hnames value)
      · exact ih h line' hline value hvalue
    · obtain ⟨hafter, hrest⟩ := foldlM_scanHeaderLine_some h
      cases hafter
      exact onlyHost_append.mpr ⟨hfirst, hrest⟩

theorem scanned_of_httpRequestHost {buf : Bytes} {headEnd : Nat} {head : Text}
    (hend : headerEnd buf = some headEnd) (htext : fromUtf8 (buf.take headEnd) = some head)
    (h : httpRequestHost url buf = .ok (some host)) : OnlyHost url host (splitCrlf head).tail := by
  unfold httpRequestHost at h
  rw [hend] at h
  simp only [htext] at h
  obtain ⟨found, hfound, h⟩ := bind_eq_ok.mp h
  obtain ⟨_, _, h⟩ := bind_eq_ok.mp h
  cases h
  exact foldlM_scanHeaderLine hfound

/-- The lines of pieces that are scanned, apart from those with a line feed inside. -/
theorem onlyHost_flatMap_iff {pieces : List Text} (hscanned : OnlyHost url host pieces) :
    OnlyHost url host (pieces.flatMap lines) ↔
      OnlyHost url host ((pieces.filter (fun piece => piece.contains '\n')).flatMap lines) := by
  induction pieces with
  | nil => exact Iff.rfl
  | cons piece rest ih =>
    obtain ⟨hpiece, hrest⟩ := onlyHost_append.mp (show OnlyHost url host ([piece] ++ rest) from
      hscanned)
    rw [flatMap_cons, onlyHost_append, ih hrest]
    by_cases hfeed : piece.contains '\n' = true
    · rw [filter_cons, if_pos hfeed, flatMap_cons, onlyHost_append]
    · have hline : lines piece = [piece] := lines_line (fun hmem =>
        hfeed (contains_iff_mem.mpr hmem))
      rw [filter_cons, if_neg hfeed, hline]
      exact and_iff_right hpiece

end Scanning

/-- **When the host of a request is not ambiguous.**  The header lines of an accepted head
name one host exactly if the lines that are hidden from `http_request_host` do. -/
theorem host_unambiguous_iff {url : UrlParser} {buf : Bytes} {host head : Text} {headEnd : Nat}
    (hhost : httpRequestHost url buf = .ok (some host)) (hend : headerEnd buf = some headEnd)
    (hhead : fromUtf8 (buf.take headEnd) = some head) :
    OnlyHost url host (headerLines head) ↔ OnlyHost url host (hiddenLines head) := by
  obtain ⟨first, rest, hpieces⟩ := exists_cons_of_ne_nil (splitCrlf_ne_nil head)
  obtain ⟨line, others, hlines⟩ := exists_cons_of_ne_nil (lines_ne_nil first)
  have hscanned := scanned_of_httpRequestHost hend hhead hhost
  rw [headerLines, hiddenLines, lines_eq_flatMap, hpieces, flatMap_cons, headD_cons,
    tail_cons, hlines, cons_append, tail_cons, tail_cons, onlyHost_append,
    onlyHost_append]
  rw [hpieces, tail_cons] at hscanned
  exact and_congr_right (fun _ => onlyHost_flatMap_iff hscanned)

/-- A URL parser that knows two hosts. -/
def twoHostsUrl : UrlParser where
  parse text :=
    if text = "http://a/".toList then
      some ⟨"http".toList, some "a".toList, none, "/".toList, none, text⟩
    else if text = "http://b/".toList then
      some ⟨"http".toList, some "b".toList, none, "/".toList, none, text⟩
    else none
  host_not_absolute := by
    intro text host u hparse hhost
    split at hparse
    · cases hparse
      cases hhost
      decide
    · split at hparse <;> cases hparse
      cases hhost
      decide

/-- The line of another header ends with a line feed alone, and a second host follows. -/
def twoHosts : Text := "GET / HTTP/1.1\r\nHost: a\r\nX: y\nHost: b".toList

/-- A head whose hidden line names another host. -/
theorem two_hosts :
    httpRequestHost twoHostsUrl (toUtf8 twoHosts ++ crlfcrlf) = .ok (some "a".toList) ∧
      httpRequestPath twoHostsUrl (toUtf8 twoHosts ++ crlfcrlf) = some "/".toList ∧
      "Host: b".toList ∈ headerLines twoHosts ∧ NamesHost "Host: b".toList " b".toList ∧
      normalizeHttpAuthority twoHostsUrl (trim " b".toList) = .ok "b".toList := by
  refine ⟨by decide +kernel, by decide +kernel, by decide,
    ⟨"Host".toList, by decide, by decide⟩, ?_⟩
  rfl

/-- A line feed alone that hides no host. -/
theorem host_unambiguous_iff_one :
    OnlyHost twoHostsUrl "a".toList
      (headerLines "GET / HTTP/1.1\r\nHost: a\r\nX: y\nZ: b".toList) := by
  have hhost : httpRequestHost twoHostsUrl
      (toUtf8 "GET / HTTP/1.1\r\nHost: a\r\nX: y\nZ: b\r\n\r\n".toList) =
      .ok (some "a".toList) := by decide +kernel
  have hend : headerEnd (toUtf8 "GET / HTTP/1.1\r\nHost: a\r\nX: y\nZ: b\r\n\r\n".toList) =
      some 34 := by decide +kernel
  have hhead : fromUtf8 ((toUtf8
      "GET / HTTP/1.1\r\nHost: a\r\nX: y\nZ: b\r\n\r\n".toList).take 34) =
      some "GET / HTTP/1.1\r\nHost: a\r\nX: y\nZ: b".toList := by decide +kernel
  refine (host_unambiguous_iff hhost hend hhead).mpr (fun line hline value hvalue => ?_)
  obtain ⟨name, hsplit, hname⟩ := hvalue
  have hhidden : hiddenLines "GET / HTTP/1.1\r\nHost: a\r\nX: y\nZ: b".toList =
      ["X: y".toList, "Z: b".toList] := by decide
  rw [hhidden] at hline
  rcases mem_cons.mp hline with rfl | hline
  · cases hsplit
    cases hname
  · rw [mem_singleton.mp hline] at hsplit
    cases hsplit
    cases hname

end FerrumProxy
