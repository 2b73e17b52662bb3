import FerrumProxy.ConfigLoad
import FerrumProxy.IpBlockList
import FerrumProxy.TextSearch
import FerrumProxy.Utf8Texts

/-!
# Candidates in signaling answers

`advertise_candidates` rewrites the session description of a signaling answer: for each media
section that has a UDP host candidate and does not have the public endpoint yet, it adds a candidate
line for that endpoint.  The place for the new line is looked up in the text that was written so
far: the last `m=` of it is taken for the start of the section, and the line goes before the first
`a=end-of-candidates` and line end from there on, or to the end.
-/

namespace FerrumProxy

open Wire Str

/-- Addresses are written as one word. -/
structure AddressWords extends AddressSyntax where
  isWord : ∀ ip, IsWord (toString ip)

def IpAddr.isIpv4 : IpAddr → Bool
  | .v4 _ => true
  | .v6 _ => false

/-- The errors of signaling: `invalid`, and the end of the stream in the middle of an exact
read. -/
inductive SignalingError where
  | invalid (message : String)
  | unexpectedEof
  deriving DecidableEq

namespace Sdp

def mediaStart : Text := "m=".toList

def candidateStart : Text := "a=candidate:".toList

def endOfCandidates : Text := "a=end-of-candidates".toList

/-- The line starts a media section. -/
def IsMedia (l : Text) : Prop := mediaStart <+: l

instance (l : Text) : Decidable (IsMedia l) := inferInstanceAs (Decidable (_ <+: _))

/-- The fields of a candidate line that are read. -/
structure UdpCandidate where
  address : Text
  port : Text
  typ : Text
  kind : Text
  deriving DecidableEq

/-- A candidate line for the first component over UDP. -/
def udpCandidate (l : Text) : Option UdpCandidate :=
  if candidateStart <+: l then
    match splitWhitespace l with
    | _ :: component :: transport :: _ :: address :: port :: typ :: kind :: _ =>
      if component = "1".toList ∧ eqIgnoreAsciiCase transport "udp".toList = true then
        some { address, port, typ, kind }
      else none
    | _ => none
  else none

section Rewriting

variable (addresses : AddressSyntax) (ip : IpAddr) (port : UInt16)

/-- The endpoint is the candidate's. -/
def isEndpoint (candidate : UdpCandidate) : Bool :=
  candidate.address == addresses.toString ip && candidate.port == Nat.toDigits 10 port.toNat

/-- The address and port of a host candidate of the endpoint's family. -/
def hostOf (candidate : UdpCandidate) : Option (Text × Text) :=
  if candidate.typ = "typ".toList ∧ candidate.kind = "host".toList ∧
      (addresses.fromStr candidate.address).any (fun a => a.isIpv4 == ip.isIpv4) = true then
    some (candidate.address, candidate.port)
  else none

/-- The line that is added, without its line end. -/
def candidateLine (related : Text × Text) : Text :=
  "a=candidate:80000000 1 UDP 1694498815 ".toList ++ addresses.toString ip ++ " ".toList ++
    Nat.toDigits 10 port.toNat ++ " typ srflx raddr ".toList ++ related.1 ++ " rport ".toList ++
    related.2

/-- The place is looked up in what was written so far. -/
def insertCandidate (added out : Text) : Text :=
  let start := (rfind mediaStart out).getD 0
  match find (endOfCandidates ++ crlf) (out.drop start) with
  | some pos => insertStr (start + pos) (added ++ crlf) out
  | none => out ++ (added ++ crlf)

def append (out : Text) (candidate : Option (Text × Text)) (present : Bool) : Text :=
  if present then out
  else
    match candidate with
    | some related => insertCandidate (candidateLine addresses ip port related) out
    | none => out

/-- What the loop over the lines knows. -/
structure State where
  output : Text := []
  media : Bool := false
  candidate : Option (Text × Text) := none
  /-- `exists`: the section has the endpoint. -/
  present : Bool := false

/-- A line that starts a section ends the one before. -/
def State.startSection (s : State) (l : Text) : State :=
  if IsMedia l then
    { output :=
        if s.media then append addresses ip port s.output s.candidate s.present else s.output
      media := true
      candidate := none
      present := false }
  else s

def State.scan (s : State) (l : Text) : State :=
  match if s.media then udpCandidate l else none with
  | some found =>
    { s with
      present := s.present || isEndpoint addresses ip port found
      candidate := s.candidate.or (hostOf addresses ip found) }
  | none => s

def State.push (s : State) (l : Text) : State := { s with output := s.output ++ l ++ crlf }

def State.line (s : State) (l : Text) : State :=
  ((s.startSection addresses ip port l).scan addresses ip port l).push l

def State.finish (s : State) : Text :=
  if s.media then append addresses ip port s.output s.candidate s.present else s.output

/-- The rewriting of a session description. -/
def advertise (sdp : Text) : Text :=
  ((strLines sdp).foldl (State.line addresses ip port) {}).finish addresses ip port

end Rewriting

end Sdp

/-- The endpoint can be advertised. -/
def ValidEndpoint (endpoint : IpAddr × UInt16) : Prop :=
  endpoint.2 ≠ 0 ∧ endpoint.1.isUnspecified = false ∧ endpoint.1.isMulticast = false

instance (endpoint : IpAddr × UInt16) : Decidable (ValidEndpoint endpoint) :=
  inferInstanceAs (Decidable (_ ∧ _ ∧ _))

def advertiseCandidates (addresses : AddressSyntax) (body : Bytes) (endpoint : IpAddr × UInt16) :
    Except SignalingError Bytes :=
  if endpoint.2 = 0 ∨ endpoint.1.isUnspecified = true ∨ endpoint.1.isMulticast = true then
    .error (.invalid "invalid advertised NetherNet endpoint")
  else
    match fromUtf8 body with
    | some sdp => .ok (toUtf8 (Sdp.advertise addresses endpoint.1 endpoint.2 sdp))
    | none => .error (.invalid "invalid SDP UTF-8")

open List

namespace Sdp

/-! ## The place of the new line -/

/-- From a line on: the new line goes before the first `a=end-of-candidates` that ends a line,
and cuts it off. -/
def insertBeforeEnd (added : Text) : List Text → List Text
  | [] => [added]
  | l :: rest =>
    if endOfCandidates <:+ l then
      (l.take (l.length - endOfCandidates.length) ++ added) :: endOfCandidates :: rest
    else l :: insertBeforeEnd added rest

def HasMedia (l : Text) : Prop := mediaStart <:+: l

instance (l : Text) : Decidable (HasMedia l) := inferInstanceAs (Decidable (_ <:+: _))

/-- The lines of a section with the new line: the search begins in the last line that has
an `m=`. -/
def placeCandidate (added : Text) : List Text → List Text
  | [] => [added]
  | l :: rest =>
    if rest.any (fun other => decide (HasMedia other)) then l :: placeCandidate added rest
    else insertBeforeEnd added (l :: rest)

variable {added : Text}

/-- The search for the place, from the start of a text. -/
def insertFrom (added text : Text) : Text :=
  match find (endOfCandidates ++ crlf) text with
  | some pos => insertStr pos (added ++ crlf) text
  | none => text ++ (added ++ crlf)

variable {place : Nat} {w : Text} {ls rest : List Text}

theorem insertCandidate_eq {out : Text} (h : rfind mediaStart out = some place) :
    insertCandidate added out = out.take place ++ insertFrom added (out.drop place) := by
  have hle := (prefix_drop_of_rfind h).2
  unfold insertCandidate insertFrom
  rw [h]
  simp only [Option.getD_some]
  cases find (endOfCandidates ++ crlf) (out.drop place) with
  | none =>
    dsimp only
    rw [← append_assoc (out.take place), take_append_drop]
  | some pos =>
    simp only [insertStr]
    rw [take_add, drop_drop, Nat.add_comm place]
    simp only [append_assoc]

/-- The text before the section stays. -/
theorem insertCandidate_append {v : Text} (h : rfind mediaStart v = some place) (u : Text) :
    insertCandidate added (u ++ v) = u ++ insertCandidate added v := by
  rw [insertCandidate_eq (rfind_append_of_some h), insertCandidate_eq h,
    take_length_add_append, drop_length_add_append, append_assoc]

theorem take_front {front stop : Text} (h : front ++ stop = w) :
    w.take (w.length - stop.length) = front := by
  rw [← h, length_append, Nat.add_sub_cancel, take_left]

theorem lineFeed_notMem_endOfCandidates : '\n' ∉ endOfCandidates := by decide

theorem insertFrom_line (hw : '\n' ∉ w) (rest : Text) :
    insertFrom added (w ++ crlf ++ rest) =
      if endOfCandidates <:+ w then
        w.take (w.length - endOfCandidates.length) ++ added ++ crlf ++ endOfCandidates ++ crlf ++
          rest
      else w ++ crlf ++ insertFrom added rest := by
  unfold insertFrom
  rw [find_line lineFeed_notMem_endOfCandidates hw]
  by_cases hends : endOfCandidates <:+ w
  · rw [if_pos hends, if_pos hends]
    obtain ⟨front, hfront⟩ := hends
    have hlength : w.length - endOfCandidates.length = front.length := by
      rw [← hfront, length_append, Nat.add_sub_cancel]
    rw [take_front hfront, hlength, ← hfront]
    simp only [insertStr]
    simp
  · rw [if_neg hends, if_neg hends]
    cases find (endOfCandidates ++ crlf) rest with
    | none => simp
    | some pos =>
      simp only [Option.map_some, insertStr]
      rw [Nat.add_comm pos, take_length_add_append, drop_length_add_append]
      simp only [append_assoc]

theorem insertFrom_crlfLines (h : Unbroken ls) :
    insertFrom added (crlfLines ls) = crlfLines (insertBeforeEnd added ls) := by
  induction ls with
  | nil =>
    have hnone : find (endOfCandidates ++ crlf) [] = none := by decide
    change insertFrom added [] = added ++ crlf ++ []
    rw [insertFrom, hnone, append_nil]
    rfl
  | cons l ls ih =>
    obtain ⟨hl, hrest⟩ := forall_mem_cons.mp h
    rw [crlfLines_cons, insertFrom_line hl, insertBeforeEnd]
    by_cases hends : endOfCandidates <:+ l
    · rw [if_pos hends, if_pos hends, crlfLines_cons, crlfLines_cons]
      simp only [append_assoc]
    · rw [if_neg hends, if_neg hends, crlfLines_cons, ih hrest]

/-- An `m=` stands before an `a=end-of-candidates` at the end of its line. -/
theorem suffix_drop_iff {l : Text} (h : mediaStart <+: l.drop place) :
    endOfCandidates <:+ l.drop place ↔ endOfCandidates <:+ l := by
  constructor
  · exact fun hends => hends.trans (drop_suffix place l)
  · intro ⟨front, hfront⟩
    by_cases hbefore : place ≤ front.length
    · rw [← hfront, drop_append_of_le_length hbefore]
      exact suffix_append _ _
    · have hinside : mediaStart <:+: endOfCandidates := by
        rw [← hfront, drop_append, drop_of_length_le (by omega), nil_append] at h
        exact h.isInfix.trans (drop_suffix _ _).isInfix
      exact absurd hinside (by decide)

/-- The last line with an `m=`. -/
theorem insertCandidate_last {l : Text} (hl : HasMedia l) (hline : '\n' ∉ l)
    (hunbroken : Unbroken rest) (hrest : ∀ other ∈ rest, ¬ HasMedia other) :
    insertCandidate added (crlfLines (l :: rest)) =
      crlfLines (insertBeforeEnd added (l :: rest)) := by
  have hjoin : crlfLines (l :: rest) = l ++ (crlf ++ crlfLines rest) := by
    rw [crlfLines_cons, append_assoc]
  have hnone : ¬ mediaStart <:+: crlf ++ crlfLines rest := by
    intro hin
    rcases @infix_of_infix_append mediaStart ['\r'] _ '\n' (by decide) hin with hcr | hlater
    · exact absurd hcr (by decide)
    · obtain ⟨other, hmem, hother⟩ := infix_crlfLines (by decide) (by decide) (by decide) hlater
      exact hrest other hmem hother
  obtain ⟨place, hplace⟩ := exists_rfind hl
  obtain ⟨hstart, hle⟩ := prefix_drop_of_rfind hplace
  have hfind : rfind mediaStart (l ++ (crlf ++ crlfLines rest)) = some place := by
    rw [rfind_append_of_none _ _ (by decide), hplace]
    · exact fun w hw hin => hnone (hin.isInfix.trans hw.isInfix)
    · exact fun w _ _ hin => @prefix_of_prefix_append mediaStart w _ '\r' (by decide) hin
  rw [hjoin, insertCandidate_eq hfind, take_append_of_le_length hle,
    drop_append_of_le_length hle, ← append_assoc, insertFrom_line, insertBeforeEnd]
  · simp only [suffix_drop_iff hstart]
    by_cases hends : endOfCandidates <:+ l
    · rw [if_pos hends, if_pos hends, crlfLines_cons, crlfLines_cons]
      obtain ⟨front, hfront⟩ := (suffix_drop_iff hstart).mpr hends
      have hwhole : l.take place ++ front ++ endOfCandidates = l := by
        rw [append_assoc, hfront, take_append_drop]
      rw [take_front hfront, take_front hwhole]
      simp only [append_assoc]
    · rw [if_neg hends, if_neg hends, crlfLines_cons, insertFrom_crlfLines hunbroken]
      simp [← append_assoc]
  · exact fun hmem => hline ((drop_suffix place l).subset hmem)

/-- **The search, line by line.** -/
theorem insertCandidate_crlfLines (h : Unbroken ls) (hmedia : ∃ l ∈ ls, HasMedia l) :
    insertCandidate added (crlfLines ls) = crlfLines (placeCandidate added ls) := by
  induction ls with
  | nil =>
    obtain ⟨l, hmem, _⟩ := hmedia
    cases hmem
  | cons l rest ih =>
    obtain ⟨hl, hrest⟩ := forall_mem_cons.mp h
    rw [placeCandidate]
    by_cases hlater : rest.any (fun other => decide (HasMedia other)) = true
    · obtain ⟨other, hmem, hother⟩ := List.any_eq_true.mp hlater
      have hother : HasMedia other := of_decide_eq_true hother
      rw [if_pos hlater, crlfLines_cons, crlfLines_cons, ← ih hrest ⟨other, hmem, hother⟩]
      obtain ⟨place, hplace⟩ := exists_rfind (hother.trans (mem_infix_crlfLines hmem))
      exact insertCandidate_append hplace _
    · rw [if_neg hlater]
      have hnone : ∀ other ∈ rest, ¬ HasMedia other := by
        intro other hmem hother
        exact hlater (List.any_eq_true.mpr ⟨other, hmem, decide_eq_true hother⟩)
      obtain ⟨found, hmem, hfound⟩ := hmedia
      rcases mem_cons.mp hmem with rfl | hin
      · exact insertCandidate_last hfound hl hrest hnone
      · exact absurd hfound (hnone found hin)

/-! ## Sections -/

/-- The lines before the first section, and the sections. -/
def cutSections : List Text → List Text × List (List Text)
  | [] => ([], [])
  | l :: rest =>
    if IsMedia l then ([], (l :: (cutSections rest).1) :: (cutSections rest).2)
    else (l :: (cutSections rest).1, (cutSections rest).2)

theorem cutSections_flatten (ls : List Text) :
    (cutSections ls).1 ++ (cutSections ls).2.flatten = ls := by
  induction ls with
  | nil => rfl
  | cons l rest ih =>
    rw [cutSections]
    split
    · rw [nil_append, flatten_cons, cons_append, ih]
    · rw [cons_append, ih]

/-- A section starts with a media line and has no other. -/
structure IsSection (ls : List Text) : Prop where
  starts : ∃ l rest, ls = l :: rest ∧ IsMedia l ∧ ∀ other ∈ rest, ¬ IsMedia other

theorem cutSections_spec (ls : List Text) :
    (∀ l ∈ (cutSections ls).1, ¬ IsMedia l) ∧ ∀ part ∈ (cutSections ls).2, IsSection part := by
  induction ls with
  | nil => exact ⟨forall_mem_nil _, forall_mem_nil _⟩
  | cons l rest ih =>
    rw [cutSections]
    split
    · next hmedia =>
      exact ⟨forall_mem_nil _, forall_mem_cons.mpr ⟨⟨l, _, rfl, hmedia, ih.1⟩, ih.2⟩⟩
    · next hplain => exact ⟨forall_mem_cons.mpr ⟨hplain, ih.1⟩, ih.2⟩

/-- Lines that look like cut ones are cut so. -/
theorem cutSections_of_parts {opening : List Text} {parts : List (List Text)}
    (hopening : ∀ l ∈ opening, ¬ IsMedia l) (hparts : ∀ part ∈ parts, IsSection part) :
    cutSections (opening ++ parts.flatten) = (opening, parts) := by
  have hplain : ∀ {front rest : List Text}, (∀ l ∈ front, ¬ IsMedia l) →
      cutSections (front ++ rest) = (front ++ (cutSections rest).1, (cutSections rest).2) := by
    intro front rest hfront
    induction front with
    | nil => rfl
    | cons l front ih =>
      obtain ⟨hl, hfront⟩ := forall_mem_cons.mp hfront
      rw [cons_append, cutSections, if_neg hl, ih hfront, cons_append]
  rw [hplain hopening]
  have hcut : cutSections parts.flatten = ([], parts) := by
    induction parts with
    | nil => rfl
    | cons part parts ih =>
      obtain ⟨hpart, hlater⟩ := forall_mem_cons.mp hparts
      obtain ⟨l, rest, rfl, hl, hrest⟩ := hpart.starts
      rw [flatten_cons, cons_append, cutSections, if_pos hl, hplain hrest, ih hlater, append_nil]
  rw [hcut, append_nil]

/-! ## What is done to a section -/

section Rewriting

variable (addresses : AddressSyntax) (ip : IpAddr) (port : UInt16)

def hasEndpoint (l : Text) : Bool := (udpCandidate l).any (isEndpoint addresses ip port)

def hostAt (l : Text) : Option (Text × Text) := (udpCandidate l).bind (hostOf addresses ip)

/-- The line that a section gets. -/
def wanted (part : List Text) : Option Text :=
  if part.any (hasEndpoint addresses ip port) then none
  else (part.findSome? (hostAt addresses ip)).map (candidateLine addresses ip port)

def advertised (part : List Text) : List Text :=
  match wanted addresses ip port part with
  | some added => placeCandidate added part
  | none => part

/-- The state in the middle of a section. -/
structure State.Within (earlier current : List Text) (s : State) : Prop where
  output : s.output = crlfLines (earlier ++ current)
  media : s.media = true
  candidate : s.candidate = current.findSome? (hostAt addresses ip)
  present : s.present = current.any (hasEndpoint addresses ip port)
  unbroken : Unbroken current
  starts : ∃ l ∈ current, HasMedia l

variable {addresses ip port} {earlier current : List Text} {s : State} {l : Text}

/-- The end of a section. -/
theorem State.Within.append (h : s.Within addresses ip port earlier current) :
    Sdp.append addresses ip port s.output s.candidate s.present =
      crlfLines (earlier ++ advertised addresses ip port current) := by
  unfold Sdp.append advertised wanted
  rw [h.output, h.candidate, h.present]
  by_cases hpresent : current.any (hasEndpoint addresses ip port) = true
  · rw [if_pos hpresent, if_pos hpresent]
  · rw [if_neg hpresent, if_neg hpresent]
    cases current.findSome? (hostAt addresses ip) with
    | none => rfl
    | some related =>
      obtain ⟨l, hmem, hl⟩ := h.starts
      obtain ⟨place, hplace⟩ := exists_rfind (hl.trans (mem_infix_crlfLines hmem))
      rw [crlfLines_append, crlfLines_append]
      dsimp only [Option.map_some]
      rw [insertCandidate_append hplace, insertCandidate_crlfLines h.unbroken h.starts]

theorem udpCandidate_of_media (h : IsMedia l) : udpCandidate l = none := by
  have hnot : ¬ candidateStart <+: l := by
    intro hstart
    obtain ⟨rest, rfl⟩ := h
    exact absurd (cons_prefix_cons.mp hstart).1 (by decide)
  exact if_neg hnot

theorem State.Within.line (h : s.Within addresses ip port earlier current) (hl : ¬ IsMedia l)
    (hline : '\n' ∉ l) :
    (s.line addresses ip port l).Within addresses ip port earlier (current ++ [l]) := by
  have hopen : s.startSection addresses ip port l = s := if_neg hl
  unfold State.line
  rw [hopen]
  have hscan : (s.scan addresses ip port l).output = s.output ∧
      (s.scan addresses ip port l).media = true ∧
      (s.scan addresses ip port l).candidate = s.candidate.or (hostAt addresses ip l) ∧
      (s.scan addresses ip port l).present =
        (s.present || hasEndpoint addresses ip port l) := by
    unfold State.scan hostAt hasEndpoint
    rw [h.media, if_pos rfl]
    cases udpCandidate l with
    | none => simp [h.media]
    | some found => simp
  obtain ⟨houtput, hmedia, hcandidate, hpresent⟩ := hscan
  refine ⟨?_, hmedia, ?_, ?_,
    forall_mem_append.mpr ⟨h.unbroken, forall_mem_singleton.mpr hline⟩, ?_⟩
  · unfold State.push
    rw [houtput, h.output, ← append_assoc, crlfLines_append (earlier ++ current)]
    simp [crlfLines]
  · unfold State.push
    rw [hcandidate, h.candidate, List.findSome?_append]
    simp
  · unfold State.push
    rw [hpresent, h.present, any_append]
    simp
  · obtain ⟨other, hmem, hother⟩ := h.starts
    exact ⟨other, mem_append_left [l] hmem, hother⟩

theorem State.within_of_media (hmedia : IsMedia l) (hline : '\n' ∉ l)
    (houtput : (s.startSection addresses ip port l).output = crlfLines earlier) :
    (s.line addresses ip port l).Within addresses ip port earlier [l] := by
  have hopen : s.startSection addresses ip port l =
      { output := crlfLines earlier, media := true, candidate := none, present := false } := by
    rw [← houtput]
    unfold State.startSection
    rw [if_pos hmedia]
  unfold State.line
  rw [hopen]
  have hnone := udpCandidate_of_media hmedia
  unfold State.scan State.push
  simp only [hnone, if_true]
  refine ⟨?_, rfl, ?_, ?_, forall_mem_singleton.mpr hline,
    ⟨l, mem_singleton_self l, hmedia.isInfix⟩⟩
  · rw [crlfLines_append]
    simp [crlfLines]
  · simp [hostAt, hnone]
  · simp [hasEndpoint, hnone]

/-- **The lines from the middle of a section on.** -/
theorem State.Within.finish (h : s.Within addresses ip port earlier current)
    (hrest : Unbroken rest) :
    (rest.foldl (State.line addresses ip port) s).finish addresses ip port =
      crlfLines (earlier ++ advertised addresses ip port (current ++ (cutSections rest).1) ++
        (cutSections rest).2.flatMap (advertised addresses ip port)) := by
  induction rest generalizing s earlier current with
  | nil =>
    rw [foldl_nil, State.finish, h.media, if_pos rfl, h.append]
    simp [cutSections]
  | cons l rest ih =>
    obtain ⟨hline, hlater⟩ := forall_mem_cons.mp hrest
    rw [foldl_cons, cutSections]
    by_cases hmedia : IsMedia l
    · have houtput : (s.startSection addresses ip port l).output =
          crlfLines (earlier ++ advertised addresses ip port current) := by
        unfold State.startSection
        rw [if_pos hmedia, h.media, if_pos rfl, h.append]
      rw [if_pos hmedia, ih (State.within_of_media hmedia hline houtput) hlater]
      simp
    · rw [if_neg hmedia, ih (h.line hmedia hline) hlater]
      simp

/-- **The rewriting, section by section.** -/
theorem advertise_eq (addresses : AddressSyntax) (ip : IpAddr) (port : UInt16) (sdp : Text) :
    advertise addresses ip port sdp =
      crlfLines ((cutSections (strLines sdp)).1 ++
        (cutSections (strLines sdp)).2.flatMap (advertised addresses ip port)) := by
  have hall : ∀ {rest earlier : List Text} {s : State}, Unbroken rest → s.media = false →
      s.output = crlfLines earlier →
      (rest.foldl (State.line addresses ip port) s).finish addresses ip port =
        crlfLines (earlier ++ (cutSections rest).1 ++
          (cutSections rest).2.flatMap (advertised addresses ip port)) := by
    intro rest
    induction rest with
    | nil =>
      intro earlier s _ hmedia houtput
      rw [foldl_nil, State.finish, hmedia, if_neg nofun, houtput]
      simp [cutSections]
    | cons l rest ih =>
      intro earlier s hrest hmedia houtput
      obtain ⟨hline, hlater⟩ := forall_mem_cons.mp hrest
      rw [foldl_cons, cutSections]
      by_cases hstarts : IsMedia l
      · have hopen : (s.startSection addresses ip port l).output = crlfLines earlier := by
          unfold State.startSection
          rw [if_pos hstarts, hmedia, if_neg nofun, houtput]
        rw [if_pos hstarts, (State.within_of_media hstarts hline hopen).finish hlater]
        simp
      · have hopen : s.startSection addresses ip port l = s := if_neg hstarts
        have hscan : s.scan addresses ip port l = s := by
          unfold State.scan
          rw [hmedia, if_neg nofun]
        have hpush : (s.line addresses ip port l).output = crlfLines (earlier ++ [l]) := by
          unfold State.line State.push
          rw [hopen, hscan, houtput, crlfLines_append]
          simp [crlfLines]
        have hquiet : (s.line addresses ip port l).media = false := by
          unfold State.line State.push
          rw [hopen, hscan, hmedia]
        rw [if_neg hstarts, ih hlater hquiet hpush]
        simp
  have hstart := @hall (strLines sdp) [] {} (unbroken_strLines sdp) rfl rfl
  rw [nil_append] at hstart
  exact hstart

end Rewriting

end Sdp

end FerrumProxy
