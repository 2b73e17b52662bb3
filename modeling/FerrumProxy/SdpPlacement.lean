import FerrumProxy.SdpCandidates

/-!
# Where new candidates go

A section should keep its lines and get at most one more, before its first line
`a=end-of-candidates` or at its end.  The place is found by searching for texts and not for lines.
-/

namespace FerrumProxy

open Wire Str List

namespace Sdp

/-! ## One section -/

/-- A candidate line was added within the section, before its first line
`a=end-of-candidates` or at its end. -/
def GetsLine (part result : List Text) : Prop :=
  ∃ before line after, part = before ++ after ∧ result = before ++ line :: after ∧
    candidateStart <+: line ∧ before ≠ [] ∧ endOfCandidates ∉ before ∧
    (endOfCandidates ∉ part → after = [])

def OnlyAdds (part result : List Text) : Prop := result = part ∨ GetsLine part result

/-- The lines before the first `a=end-of-candidates`, and the others. -/
def beforeEnd (part : List Text) : List Text := part.takeWhile (fun l => l != endOfCandidates)

def fromEnd (part : List Text) : List Text := part.dropWhile (fun l => l != endOfCandidates)

/-- The lines from the last one that has an `m=` on. -/
def fromLastMedia : List Text → List Text
  | [] => []
  | l :: rest =>
    if rest.any (fun other => decide (HasMedia other)) then fromLastMedia rest else l :: rest

/-- The search for the place is not misled: no `m=` comes after the first line
`a=end-of-candidates`, and before that line nothing ends with that text, from the last `m=`
on. -/
structure Clear (part : List Text) : Prop where
  quiet : ∀ l ∈ fromEnd part, ¬ HasMedia l
  whole : ∀ l ∈ fromLastMedia (beforeEnd part), ¬ endOfCandidates <:+ l

theorem clear_iff (part : List Text) :
    Clear part ↔ (∀ l ∈ fromEnd part, ¬ HasMedia l) ∧
      ∀ l ∈ fromLastMedia (beforeEnd part), ¬ endOfCandidates <:+ l :=
  ⟨fun h => ⟨h.quiet, h.whole⟩, fun h => ⟨h.1, h.2⟩⟩

instance (part : List Text) : Decidable (Clear part) := decidable_of_iff' _ (clear_iff part)

variable {added l : Text} {part rest : List Text}

/-- A candidate line is not the end of the candidates. -/
theorem ne_endOfCandidates (h : candidateStart <+: l) : l ≠ endOfCandidates := by
  intro heq
  rw [heq] at h
  exact absurd h (by decide)

theorem not_hasMedia_endOfCandidates : ¬ HasMedia endOfCandidates := by decide

theorem beforeEnd_cons_of_ne (h : l ≠ endOfCandidates) :
    beforeEnd (l :: rest) = l :: beforeEnd rest ∧ fromEnd (l :: rest) = fromEnd rest := by
  unfold beforeEnd fromEnd
  have hl : (l != endOfCandidates) = true := bne_iff_ne.mpr h
  exact ⟨takeWhile_cons_of_pos hl, dropWhile_cons_of_pos hl⟩

theorem beforeEnd_cons_self :
    beforeEnd (endOfCandidates :: rest) = [] ∧
      fromEnd (endOfCandidates :: rest) = endOfCandidates :: rest := by
  unfold beforeEnd fromEnd
  have hl : ¬ (endOfCandidates != endOfCandidates) = true := by simp
  exact ⟨takeWhile_cons_of_neg hl, dropWhile_cons_of_neg hl⟩

/-- Where the search does the right thing from a line on. -/
theorem insertBeforeEnd_eq_iff (hadded : candidateStart <+: added) :
    insertBeforeEnd added part = beforeEnd part ++ added :: fromEnd part ↔
      ∀ l ∈ beforeEnd part, ¬ endOfCandidates <:+ l := by
  induction part with
  | nil => exact iff_of_true rfl (forall_mem_nil _)
  | cons l rest ih =>
    rw [insertBeforeEnd]
    by_cases hl : l = endOfCandidates
    · rw [hl, beforeEnd_cons_self.1, beforeEnd_cons_self.2, if_pos suffix_rfl, Nat.sub_self]
      exact iff_of_true rfl (forall_mem_nil _)
    · rw [(beforeEnd_cons_of_ne hl).1, (beforeEnd_cons_of_ne hl).2]
      by_cases hends : endOfCandidates <:+ l
      · rw [if_pos hends]
        refine iff_of_false (fun heq => ?_) (fun hnone => hnone l mem_cons_self hends)
        obtain ⟨front, hfront⟩ := hends
        have hhead := (cons.inj heq).1
        rw [take_front hfront, ← hfront] at hhead
        exact ne_endOfCandidates hadded (append_cancel_left hhead)
      · rw [if_neg hends, cons_append, cons.injEq, ih, forall_mem_cons]
        exact ⟨fun hrest => ⟨hends, hrest.2⟩, fun hrest => ⟨rfl, hrest.2⟩⟩

theorem mem_of_mem_beforeEnd (h : l ∈ beforeEnd part) : l ∈ part :=
  (List.takeWhile_prefix _).subset h

theorem mem_of_mem_fromEnd (h : l ∈ fromEnd part) : l ∈ part :=
  (dropWhile_suffix _).subset h

theorem beforeEnd_append_fromEnd (part : List Text) : beforeEnd part ++ fromEnd part = part :=
  takeWhile_append_dropWhile

/-- Lines with no `m=` after the first. -/
theorem fromLastMedia_of_none (h : ∀ other ∈ rest, ¬ HasMedia other) :
    fromLastMedia (l :: rest) = l :: rest := by
  rw [fromLastMedia, if_neg]
  intro hany
  obtain ⟨other, hmem, hother⟩ := any_eq_true.mp hany
  exact h other hmem (of_decide_eq_true hother)

variable {other front : Text} {result before after : List Text} {related : Text × Text}

theorem fromLastMedia_of_some (hmem : other ∈ rest) (h : HasMedia other) :
    fromLastMedia (l :: rest) = fromLastMedia rest := by
  rw [fromLastMedia, if_pos (any_eq_true.mpr ⟨other, hmem, decide_eq_true h⟩)]

/-- A line before another one with an `m=` does not matter. -/
theorem clear_cons_iff (hl : l ≠ endOfCandidates) (hmem : other ∈ rest) (hother : HasMedia other) :
    Clear (l :: rest) ↔ Clear rest := by
  obtain ⟨hbefore, hfrom⟩ := @beforeEnd_cons_of_ne l rest hl
  have hwhole : ∀ (_ : ∀ l ∈ fromEnd rest, ¬ HasMedia l),
      fromLastMedia (beforeEnd (l :: rest)) = fromLastMedia (beforeEnd rest) := by
    intro hquiet
    rw [hbefore]
    rw [← beforeEnd_append_fromEnd rest] at hmem
    rcases mem_append.mp hmem with hin | hin
    · exact fromLastMedia_of_some hin hother
    · exact absurd hother (hquiet other hin)
  constructor
  · intro h
    have hquiet : ∀ l ∈ fromEnd rest, ¬ HasMedia l := hfrom ▸ h.quiet
    exact ⟨hquiet, hwhole hquiet ▸ h.whole⟩
  · intro h
    exact ⟨hfrom.symm ▸ h.quiet, (hwhole h.quiet).symm ▸ h.whole⟩

/-- If only the first line has an `m=`, the search begins there. -/
theorem clear_iff_of_none (h : ∀ other ∈ rest, ¬ HasMedia other) :
    Clear (l :: rest) ↔ ∀ other ∈ beforeEnd (l :: rest), ¬ endOfCandidates <:+ other := by
  by_cases hl : l = endOfCandidates
  · subst hl
    rw [clear_iff, beforeEnd_cons_self.1, beforeEnd_cons_self.2]
    refine iff_of_true ⟨?_, forall_mem_nil _⟩ (forall_mem_nil _)
    exact forall_mem_cons.mpr ⟨not_hasMedia_endOfCandidates, h⟩
  · obtain ⟨hbefore, hfrom⟩ := @beforeEnd_cons_of_ne l rest hl
    have hlines : fromLastMedia (beforeEnd (l :: rest)) = beforeEnd (l :: rest) := by
      rw [hbefore]
      exact fromLastMedia_of_none (fun other hmem => h other (mem_of_mem_beforeEnd hmem))
    constructor
    · exact fun hclear => hlines ▸ hclear.whole
    · intro hwhole
      refine ⟨?_, hlines.symm ▸ hwhole⟩
      rw [hfrom]
      exact fun other hmem => h other (mem_of_mem_fromEnd hmem)

/-- **When the new line gets its place.** -/
theorem placeCandidate_eq_iff (hadded : candidateStart <+: added) :
    placeCandidate added part = beforeEnd part ++ added :: fromEnd part ↔ Clear part := by
  induction part with
  | nil => exact iff_of_true rfl ⟨fun _ hmem => (nomatch hmem), fun _ hmem => (nomatch hmem)⟩
  | cons l rest ih =>
    rw [placeCandidate]
    by_cases hlater : rest.any (fun other => decide (HasMedia other)) = true
    · rw [if_pos hlater]
      obtain ⟨other, hmem, hother⟩ := any_eq_true.mp hlater
      have hother : HasMedia other := of_decide_eq_true hother
      by_cases hl : l = endOfCandidates
      · subst hl
        rw [beforeEnd_cons_self.1, beforeEnd_cons_self.2]
        refine iff_of_false ?_ ?_
        · intro heq
          exact ne_endOfCandidates hadded (cons.inj heq).1.symm
        · intro hclear
          refine hclear.quiet other ?_ hother
          rw [beforeEnd_cons_self.2]
          exact mem_cons_of_mem _ hmem
      · rw [(beforeEnd_cons_of_ne hl).1, (beforeEnd_cons_of_ne hl).2, cons_append,
          cons.injEq, ih, clear_cons_iff hl hmem hother]
        exact ⟨fun h => h.2, fun h => ⟨rfl, h⟩⟩
    · have hnone : ∀ other ∈ rest, ¬ HasMedia other := by
        intro other hmem hother
        exact hlater (any_eq_true.mpr ⟨other, hmem, decide_eq_true hother⟩)
      rw [if_neg hlater, insertBeforeEnd_eq_iff hadded, clear_iff_of_none hnone]

/-! ## The shape of the result -/

/-- The new line ends the section, or cuts off an `a=end-of-candidates`. -/
inductive Placed (added : Text) (part : List Text) : List Text → Prop
  | last : Placed added part (part ++ [added])
  | cut (before after : List Text) (front : Text)
      (hpart : part = before ++ (front ++ endOfCandidates) :: after) :
      Placed added part (before ++ (front ++ added) :: endOfCandidates :: after)

theorem Placed.cons (h : Placed added rest result) : Placed added (l :: rest) (l :: result) := by
  cases h with
  | last => exact .last
  | cut before after front hpart => exact .cut (l :: before) after front (by rw [hpart]; rfl)

/-- The section gets one line more. -/
theorem Placed.length (h : Placed added part result) : result.length = part.length + 1 := by
  cases h with
  | last => simp
  | cut before after front hpart =>
    rw [hpart]
    simp
    omega

/-- The lines of the result are those of the section, the two new ones and the one cut off. -/
theorem Placed.forall {P : Text → Prop} (h : Placed added part result) (hpart : ∀ l ∈ part, P l)
    (hadded : P added) (hend : P endOfCandidates)
    (hcut : ∀ front, P (front ++ endOfCandidates) → P (front ++ added)) : ∀ l ∈ result, P l := by
  cases h with
  | last => exact forall_mem_append.mpr ⟨hpart, forall_mem_singleton.mpr hadded⟩
  | cut before after front heq =>
    rw [heq, forall_mem_append, forall_mem_cons] at hpart
    rw [forall_mem_append, forall_mem_cons, forall_mem_cons]
    exact ⟨hpart.1, hcut front hpart.2.1, hend, hpart.2.2⟩

theorem placed_insertBeforeEnd (added : Text) (part : List Text) :
    Placed added part (insertBeforeEnd added part) := by
  induction part with
  | nil => exact .last
  | cons l rest ih =>
    rw [insertBeforeEnd]
    split
    · rename_i hends
      obtain ⟨front, hfront⟩ := hends
      rw [take_front hfront]
      exact .cut [] rest front (by rw [hfront]; rfl)
    · exact ih.cons

/-- Wherever the search stops, the new line is placed. -/
theorem placed_placeCandidate (added : Text) (part : List Text) :
    Placed added part (placeCandidate added part) := by
  induction part with
  | nil => exact .last
  | cons l rest ih =>
    rw [placeCandidate]
    split
    · exact ih.cons
    · exact placed_insertBeforeEnd added (l :: rest)

/-- A list that is moved by one place repeats one entry. -/
theorem eq_of_shift {α : Type} {x y : α} {list : List α} (h : list ++ [y] = x :: list) :
    ∀ z ∈ list, z = x := by
  induction list generalizing x with
  | nil => exact fun _ hmem => nomatch hmem
  | cons a list ih =>
    rw [cons_append] at h
    obtain ⟨rfl, hrest⟩ := cons.inj h
    intro z hmem
    rcases mem_cons.mp hmem with rfl | hin
    · rfl
    · exact ih hrest z hin

theorem beforeEnd_of_notMem (h : endOfCandidates ∉ before) :
    beforeEnd (before ++ endOfCandidates :: after) = before ∧
      fromEnd (before ++ endOfCandidates :: after) = endOfCandidates :: after := by
  induction before with
  | nil => exact beforeEnd_cons_self
  | cons l before ih =>
    have hl : l ≠ endOfCandidates := fun heq => h (by rw [heq]; exact mem_cons_self)
    have hrest := ih (fun hmem => h (mem_cons_of_mem l hmem))
    rw [cons_append, (beforeEnd_cons_of_ne hl).1, (beforeEnd_cons_of_ne hl).2, hrest.1, hrest.2]
    exact ⟨rfl, rfl⟩

theorem beforeEnd_eq_self (h : endOfCandidates ∉ part) :
    beforeEnd part = part ∧ fromEnd part = [] := by
  have hall : ∀ l ∈ part, (l != endOfCandidates) = true := by
    intro l hmem
    exact bne_iff_ne.mpr (fun heq => h (heq ▸ hmem))
  exact ⟨takeWhile_eq_self_iff.mpr hall, dropWhile_eq_nil_iff.mpr hall⟩

/-- A line that was cut in two is no line that was kept. -/
theorem front_eq_nil_of_getsLine (hadded : candidateStart <+: added)
    (h : GetsLine (before ++ (front ++ endOfCandidates) :: after)
      (before ++ (front ++ added) :: endOfCandidates :: after)) :
    front = [] ∧ endOfCandidates ∉ before := by
  obtain ⟨first, line, second, hpart, hresult, hline, _, hfirst, _⟩ := h
  have hnotLine : endOfCandidates ≠ line := (ne_endOfCandidates hline).symm
  rcases append_eq_append_iff.mp hresult with ⟨t, rfl, ht⟩ | ⟨t, rfl, ht⟩
  · rw [append_assoc] at hpart
    have hrest := append_cancel_left hpart
    cases t with
    | nil =>
      rw [nil_append] at ht hrest
      obtain ⟨_, rfl⟩ := cons.inj ht
      have hfront := (cons.inj hrest).1
      rw [append_nil] at hfirst
      exact ⟨append_left_eq_self.mp hfront, hfirst⟩
    | cons head t =>
      rw [cons_append] at ht hrest
      have hsame : front ++ added = front ++ endOfCandidates :=
        (cons.inj ht).1.trans (cons.inj hrest).1.symm
      exact absurd (append_cancel_left hsame) (ne_endOfCandidates hadded)
  · rw [append_assoc] at hpart
    have hrest := append_cancel_left hpart
    cases t with
    | nil =>
      rw [nil_append] at ht hrest
      obtain ⟨_, rfl⟩ := cons.inj ht
      have hfront := (cons.inj hrest).1
      refine ⟨append_left_eq_self.mp hfront, ?_⟩
      rw [append_nil]
      exact hfirst
    | cons head t =>
      obtain ⟨rfl, rfl⟩ := cons.inj ht
      have hshift : (line :: t) ++ (front ++ endOfCandidates) :: after =
          (t ++ [front ++ added]) ++ endOfCandidates :: after := by
        rw [hrest]
        simp
      obtain ⟨hlines, hend⟩ := append_inj hshift (by simp)
      refine ⟨append_left_eq_self.mp (cons.inj hend).1, ?_⟩
      intro hmem
      rcases mem_append.mp hmem with hin | hin
      · exact hfirst hin
      · rcases mem_cons.mp hin with heq | hlater
        · exact hnotLine heq
        · exact hnotLine (eq_of_shift hlines.symm _ hlater)

/-- **A section keeps its lines exactly if it is clear.** -/
theorem onlyAdds_iff (hadded : candidateStart <+: added) (hpart : IsSection part) :
    OnlyAdds part (placeCandidate added part) ↔ Clear part := by
  rw [← placeCandidate_eq_iff hadded]
  constructor
  · intro honly
    have hplaced := placed_placeCandidate added part
    have hgets : GetsLine part (placeCandidate added part) := by
      rcases honly with hsame | hgets
      · have hlength := hplaced.length
        rw [hsame] at hlength
        omega
      · exact hgets
    generalize placeCandidate added part = result at hplaced hgets ⊢
    cases hplaced with
    | last =>
      obtain ⟨first, line, second, rfl, hresult, hline, _, hfirst, _⟩ := hgets
      rw [append_assoc] at hresult
      have hshift := append_cancel_left hresult
      have hnone : endOfCandidates ∉ first ++ second := by
        intro hmem
        rcases mem_append.mp hmem with hin | hin
        · exact hfirst hin
        · exact ne_endOfCandidates hline (eq_of_shift hshift _ hin).symm
      rw [(beforeEnd_eq_self hnone).1, (beforeEnd_eq_self hnone).2]
    | cut before after front hcut =>
      subst hcut
      obtain ⟨rfl, hbefore⟩ := front_eq_nil_of_getsLine hadded hgets
      simp only [nil_append]
      rw [(beforeEnd_of_notMem hbefore).1, (beforeEnd_of_notMem hbefore).2]
  · intro heq
    right
    rw [heq]
    refine ⟨beforeEnd part, added, fromEnd part, (beforeEnd_append_fromEnd part).symm, rfl, hadded,
      ?_, ?_, fun hnone => (beforeEnd_eq_self hnone).2⟩
    · obtain ⟨l, rest, rfl, hl, _⟩ := hpart.starts
      have hne : l ≠ endOfCandidates := by
        intro heq
        rw [heq] at hl
        exact absurd hl (by decide)
      rw [(beforeEnd_cons_of_ne hne).1]
      exact cons_ne_nil _ _
    · intro hmem
      have hne := mem_takeWhile_imp hmem
      simp at hne

/-! ## The line that is added -/

section Rewriting

variable {addresses : AddressWords} {ip : IpAddr} {port : UInt16}

theorem isWord_toDigits (n : Nat) : IsWord (Nat.toDigits 10 n) := by
  refine ⟨Nat.toDigits_ne_nil, fun c hc => ?_⟩
  have hdigit := Nat.isDigit_of_mem_toDigits (by decide) (by decide) hc
  exact isWhitespace_of_isAlphanum (by simp [Char.isAlphanum, hdigit])

/-- The words of the added line. -/
def candidateWords (addresses : AddressSyntax) (ip : IpAddr) (port : UInt16)
    (related : Text × Text) : List Text :=
  ["a=candidate:80000000".toList, "1".toList, "UDP".toList, "1694498815".toList,
    addresses.toString ip, Nat.toDigits 10 port.toNat, "typ".toList, "srflx".toList,
    "raddr".toList, related.1, "rport".toList, related.2]

/-- The added line is its words, joined by blanks. -/
theorem candidateLine_eq (addresses : AddressSyntax) (ip : IpAddr) (port : UInt16)
    (related : Text × Text) :
    candidateLine addresses ip port related =
      [' '].intercalate (candidateWords addresses ip port related) := by
  have hfirst : "a=candidate:80000000 1 UDP 1694498815 ".toList =
      "a=candidate:80000000".toList ++ [' '] ++ ("1".toList ++ [' '] ++ ("UDP".toList ++ [' '] ++
        ("1694498815".toList ++ [' ']))) := by decide
  have hsecond : " typ srflx raddr ".toList =
      [' '] ++ ("typ".toList ++ [' '] ++
        ("srflx".toList ++ [' '] ++ ("raddr".toList ++ [' ']))) := by decide
  have hthird : " rport ".toList = [' '] ++ ("rport".toList ++ [' ']) := by decide
  have hblank : " ".toList = [' '] := by decide
  unfold candidateLine candidateWords
  rw [hfirst, hsecond, hthird, hblank]
  simp only [intercalate_cons_cons, intercalate_singleton, append_assoc]

theorem isWord_candidateWords (hfirst : IsWord related.1) (hsecond : IsWord related.2) :
    ∀ w ∈ candidateWords addresses.toAddressSyntax ip port related, IsWord w := by
  have hip := addresses.isWord ip
  have hport := isWord_toDigits port.toNat
  simp only [candidateWords, forall_mem_cons]
  exact ⟨by decide, by decide, by decide, by decide, hip, hport, by decide, by decide, by decide,
    hfirst, by decide, hsecond, fun _ hmem => (nomatch hmem)⟩

/-- The related address and port are words of a line. -/
theorem hostAt_words {addresses : AddressSyntax} {l : Text}
    (h : hostAt addresses ip l = some related) : IsWord related.1 ∧ IsWord related.2 := by
  obtain ⟨found, hfound, hhost⟩ := Option.bind_eq_some_iff.mp h
  unfold hostOf at hhost
  split at hhost <;> cases hhost
  unfold udpCandidate at hfound
  (repeat' split at hfound) <;> cases hfound
  rename_i hwords _ _
  have hmem : ∀ {w : Text}, w ∈ splitWhitespace l → IsWord w := mem_splitWhitespace
  rw [hwords] at hmem
  exact ⟨hmem (by simp), hmem (by simp)⟩

/-- A line to be added: a candidate with the endpoint, and one line. -/
structure IsNewLine (addresses : AddressSyntax) (ip : IpAddr) (port : UInt16) (added : Text) :
    Prop where
  starts : candidateStart <+: added
  unbroken : '\n' ∉ added
  endpoint : hasEndpoint addresses ip port added = true

theorem isNewLine_candidateLine (hfirst : IsWord related.1) (hsecond : IsWord related.2) :
    IsNewLine addresses.toAddressSyntax ip port
      (candidateLine addresses.toAddressSyntax ip port related) := by
  have hwords := @isWord_candidateWords related addresses ip port hfirst hsecond
  have hstarts : candidateStart <+: candidateLine addresses.toAddressSyntax ip port related := by
    have hfirst : "a=candidate:80000000 1 UDP 1694498815 ".toList =
        candidateStart ++ "80000000 1 UDP 1694498815 ".toList := by decide
    unfold candidateLine
    rw [hfirst]
    simp only [append_assoc]
    exact prefix_append _ _
  refine ⟨hstarts, ?_, ?_⟩
  · rw [candidateLine_eq]
    intro hmem
    rcases mem_join hmem with hblank | ⟨w, hw, hin⟩
    · exact absurd hblank (by decide)
    · exact absurd ((hwords w hw).2 _ hin) (by decide)
  · unfold hasEndpoint udpCandidate
    rw [if_pos hstarts, candidateLine_eq, splitWhitespace_join hwords]
    dsimp only [candidateWords]
    rw [if_pos (by decide), Option.any_some, isEndpoint]
    simp only [beq_self_eq_true, Bool.and_self]

/-- What is added is a candidate line with the endpoint. -/
theorem isNewLine_of_wanted {part : List Text}
    (h : wanted addresses.toAddressSyntax ip port part = some added) :
    IsNewLine addresses.toAddressSyntax ip port added := by
  unfold wanted at h
  split at h
  · cases h
  · obtain ⟨related, hrelated, rfl⟩ := Option.map_eq_some_iff.mp h
    obtain ⟨l, _, hl⟩ := exists_of_findSome?_eq_some hrelated
    obtain ⟨hfirst, hsecond⟩ := hostAt_words hl
    exact isNewLine_candidateLine hfirst hsecond

/-! ## Sections stay sections -/

theorem isMedia_append_iff {c : Char} (hc : c ∉ mediaStart) (tail : Text) :
    IsMedia (front ++ c :: tail) ↔ IsMedia front :=
  ⟨prefix_of_prefix_append hc, fun h => h.trans (prefix_append front (c :: tail))⟩

theorem isMedia_cut_iff (hadded : candidateStart <+: added) (front : Text) :
    IsMedia (front ++ added) ↔ IsMedia (front ++ endOfCandidates) := by
  obtain ⟨tail, rfl⟩ := hadded
  have ha : 'a' ∉ mediaStart := by decide
  exact (isMedia_append_iff ha _).trans (isMedia_append_iff ha _).symm

theorem not_isMedia_of_candidate (h : candidateStart <+: l) : ¬ IsMedia l := by
  intro hmedia
  obtain ⟨tail, rfl⟩ := h
  exact absurd (cons_prefix_cons.mp hmedia).1 (by decide)

/-- A section with a candidate more is one section. -/
theorem IsSection.placed (hpart : IsSection part) (hadded : candidateStart <+: added)
    (h : Placed added part result) : IsSection result := by
  obtain ⟨first, rest, hfirst, hmedia, hrest⟩ := hpart.starts
  have htail : ∀ {result}, Placed added rest result → ∀ other ∈ result, ¬ IsMedia other :=
    fun h => h.forall hrest (not_isMedia_of_candidate hadded) (by decide)
      (fun front => mt (isMedia_cut_iff hadded front).mp)
  cases h with
  | last => exact ⟨first, rest ++ [added], by rw [hfirst]; rfl, hmedia, htail .last⟩
  | cut before after front hcut =>
    rw [hcut] at hfirst
    cases before with
    | nil =>
      obtain ⟨rfl, rfl⟩ := cons.inj hfirst
      refine ⟨front ++ added, _, rfl, (isMedia_cut_iff hadded front).mpr hmedia, ?_⟩
      exact forall_mem_cons.mpr ⟨by decide, hrest⟩
    | cons l before =>
      obtain ⟨rfl, rfl⟩ := cons.inj hfirst
      exact ⟨l, _, rfl, hmedia, htail (.cut before after front rfl)⟩

/-- No line gets a line feed. -/
theorem unbroken_placed (hpart : Unbroken part) (hadded : '\n' ∉ added)
    (h : Placed added part result) : Unbroken result := by
  refine h.forall hpart hadded lineFeed_notMem_endOfCandidates (fun front hwhole hfeed => ?_)
  rcases mem_append.mp hfeed with hfront | hline
  · exact hwhole (mem_append_left _ hfront)
  · exact hadded hline

theorem advertised_spec (addresses : AddressWords) (ip : IpAddr) (port : UInt16)
    (hpart : IsSection part) (hunbroken : Unbroken part) :
    IsSection (advertised addresses.toAddressSyntax ip port part) ∧
      Unbroken (advertised addresses.toAddressSyntax ip port part) := by
  unfold advertised
  split
  · rename_i added hwanted
    have hnew := isNewLine_of_wanted hwanted
    have hplaced := placed_placeCandidate added part
    exact ⟨hpart.placed hnew.starts hplaced, unbroken_placed hunbroken hnew.unbroken hplaced⟩
  · exact ⟨hpart, hunbroken⟩

end Rewriting

/-! ## Whole answers -/

/-- What rewriting should do: the lines before the first section stay, and each section keeps
its lines and gets at most one more. -/
structure KeepsLines (sdp out : Text) : Prop where
  written : out = crlfLines (strLines out)
  opening : (cutSections (strLines out)).1 = (cutSections (strLines sdp)).1
  parts : Forall₂ OnlyAdds (cutSections (strLines sdp)).2 (cutSections (strLines out)).2

theorem OnlyAdds.mem (h : OnlyAdds part result) (hl : l ∈ part) : l ∈ result := by
  rcases h with rfl | ⟨before, line, after, rfl, rfl, _⟩
  · exact hl
  · rcases mem_append.mp hl with hin | hin
    · exact mem_append_left _ hin
    · exact mem_append_right _ (mem_cons_of_mem _ hin)

theorem mem_flatten_of_onlyAdds {parts results : List (List Text)}
    (h : Forall₂ OnlyAdds parts results) (hl : l ∈ parts.flatten) : l ∈ results.flatten := by
  induction h with
  | nil => exact hl
  | cons honly _ ih =>
    rw [flatten_cons] at hl ⊢
    rcases mem_append.mp hl with hin | hin
    · exact mem_append_left _ (honly.mem hin)
    · exact mem_append_right _ (ih hin)

/-- No line is lost, whatever attribute it is. -/
theorem KeepsLines.mem {sdp out : Text} (h : KeepsLines sdp out) (hl : l ∈ strLines sdp) :
    l ∈ strLines out := by
  rw [← cutSections_flatten (strLines sdp)] at hl
  rw [← cutSections_flatten (strLines out), h.opening]
  rcases mem_append.mp hl with hin | hin
  · exact mem_append_left _ hin
  · exact mem_append_right _ (mem_flatten_of_onlyAdds h.parts hin)

section Answers

variable (addresses : AddressWords) (ip : IpAddr) (port : UInt16) (sdp : Text)

/-- **The sections of the answer.** -/
theorem cutSections_advertise :
    strLines (advertise addresses.toAddressSyntax ip port sdp) =
        (cutSections (strLines sdp)).1 ++ ((cutSections (strLines sdp)).2.map
          (advertised addresses.toAddressSyntax ip port)).flatten ∧
      cutSections (strLines (advertise addresses.toAddressSyntax ip port sdp)) =
        ((cutSections (strLines sdp)).1,
          (cutSections (strLines sdp)).2.map (advertised addresses.toAddressSyntax ip port)) := by
  obtain ⟨hopening, hparts⟩ := cutSections_spec (strLines sdp)
  have hflatten := cutSections_flatten (strLines sdp)
  have hunbroken := unbroken_strLines sdp
  rw [← hflatten] at hunbroken
  have hspec : ∀ part ∈ (cutSections (strLines sdp)).2,
      IsSection (advertised addresses.toAddressSyntax ip port part) ∧
        Unbroken (advertised addresses.toAddressSyntax ip port part) := by
    intro part hmem
    refine advertised_spec addresses ip port (hparts part hmem) (fun l hl => ?_)
    exact hunbroken l (mem_append_right _ (mem_flatten.mpr ⟨part, hmem, hl⟩))
  have hlines : strLines (advertise addresses.toAddressSyntax ip port sdp) =
      (cutSections (strLines sdp)).1 ++ ((cutSections (strLines sdp)).2.map
        (advertised addresses.toAddressSyntax ip port)).flatten := by
    rw [advertise_eq, flatMap_def]
    apply strLines_crlfLines
    intro l hmem
    rcases mem_append.mp hmem with hin | hin
    · exact hunbroken l (mem_append_left _ hin)
    · obtain ⟨result, hresult, hl⟩ := mem_flatten.mp hin
      obtain ⟨part, hpart, rfl⟩ := mem_map.mp hresult
      exact (hspec part hpart).2 l hl
  refine ⟨hlines, ?_⟩
  rw [hlines]
  apply cutSections_of_parts hopening
  intro result hresult
  obtain ⟨part, hpart, rfl⟩ := mem_map.mp hresult
  exact (hspec part hpart).1

variable {addresses ip port sdp}

/-- A section that gets a line keeps the others if it is clear. -/
theorem onlyAdds_advertised_iff (hpart : IsSection part) :
    OnlyAdds part (advertised addresses.toAddressSyntax ip port part) ↔
      ((wanted addresses.toAddressSyntax ip port part).isSome = true → Clear part) := by
  unfold advertised
  cases hwanted : wanted addresses.toAddressSyntax ip port part with
  | none => exact iff_of_true (.inl rfl) (fun hsome => nomatch hsome)
  | some added =>
    dsimp only
    rw [onlyAdds_iff (isNewLine_of_wanted hwanted).starts hpart]
    exact ⟨fun h _ => h, fun h => h rfl⟩

/-- Lines are kept if every section that gets one is clear. -/
theorem keepsLines_advertise_iff :
    KeepsLines sdp (advertise addresses.toAddressSyntax ip port sdp) ↔
      ∀ part ∈ (cutSections (strLines sdp)).2,
        (wanted addresses.toAddressSyntax ip port part).isSome = true → Clear part := by
  obtain ⟨hlines, hcut⟩ := cutSections_advertise addresses ip port sdp
  obtain ⟨_, hparts⟩ := cutSections_spec (strLines sdp)
  have hall : Forall₂ OnlyAdds (cutSections (strLines sdp)).2
      ((cutSections (strLines sdp)).2.map (advertised addresses.toAddressSyntax ip port)) ↔
      ∀ part ∈ (cutSections (strLines sdp)).2,
        OnlyAdds part (advertised addresses.toAddressSyntax ip port part) := by
    rw [forall₂_map_right_iff, forall₂_same]
  constructor
  · intro h part hmem
    have hforall := h.parts
    rw [hcut] at hforall
    exact (onlyAdds_advertised_iff (hparts part hmem)).mp (hall.mp hforall part hmem)
  · intro h
    refine ⟨?_, ?_, ?_⟩
    · rw [hlines, ← flatMap_def]
      exact advertise_eq addresses.toAddressSyntax ip port sdp
    · rw [hcut]
    · rw [hcut]
      apply hall.mpr
      intro part hmem
      exact (onlyAdds_advertised_iff (hparts part hmem)).mpr (h part hmem)

/-! ### A second time -/

/-- The new line is a line of its own if `a=end-of-candidates` is. -/
theorem mem_placed (h : Placed added part result)
    (hwhole : ∀ l ∈ part, endOfCandidates <:+: l → l = endOfCandidates) : added ∈ result := by
  cases h with
  | last => exact mem_append_right _ (mem_singleton_self added)
  | cut before after front hpart =>
    have hline : front ++ endOfCandidates = endOfCandidates := by
      apply hwhole
      · rw [hpart]
        exact mem_append_right _ mem_cons_self
      · exact (suffix_append front endOfCandidates).isInfix
    rw [append_left_eq_self.mp hline]
    exact mem_append_right _ mem_cons_self

/-- A rewritten section gets no second line. -/
theorem advertised_idem
    (hwhole : ∀ l ∈ part, endOfCandidates <:+: l → l = endOfCandidates) :
    advertised addresses.toAddressSyntax ip port
        (advertised addresses.toAddressSyntax ip port part) =
      advertised addresses.toAddressSyntax ip port part := by
  cases hwanted : wanted addresses.toAddressSyntax ip port part with
  | none =>
    have hsame : advertised addresses.toAddressSyntax ip port part = part := by
      rw [advertised, hwanted]
    rw [hsame, hsame]
  | some added =>
    have hresult : advertised addresses.toAddressSyntax ip port part =
        placeCandidate added part := by
      rw [advertised, hwanted]
    have hmem := mem_placed (placed_placeCandidate added part) hwhole
    have hpresent : (placeCandidate added part).any
        (hasEndpoint addresses.toAddressSyntax ip port) = true :=
      any_eq_true.mpr ⟨added, hmem, (isNewLine_of_wanted hwanted).endpoint⟩
    rw [hresult, advertised, wanted, if_pos hpresent]

/-- A rewritten answer is not changed again. -/
theorem advertise_idem
    (hwhole : ∀ l ∈ strLines sdp, endOfCandidates <:+: l → l = endOfCandidates) :
    advertise addresses.toAddressSyntax ip port
        (advertise addresses.toAddressSyntax ip port sdp) =
      advertise addresses.toAddressSyntax ip port sdp := by
  obtain ⟨hlines, hcut⟩ := cutSections_advertise addresses ip port sdp
  have hparts : ∀ part ∈ (cutSections (strLines sdp)).2,
      ∀ l ∈ part, endOfCandidates <:+: l → l = endOfCandidates := by
    intro part hmem l hl
    apply hwhole
    rw [← cutSections_flatten (strLines sdp)]
    exact mem_append_right _ (mem_flatten.mpr ⟨part, hmem, hl⟩)
  rw [advertise_eq, hcut, advertise_eq]
  congr 2
  rw [flatMap_def, flatMap_def, map_map]
  congr 1
  exact map_congr_left (fun part hmem => advertised_idem (hparts part hmem))

end Answers

end Sdp

/-! ## The function -/

open Sdp

/-- At a valid endpoint the rewritten text is returned. -/
theorem advertiseCandidates_eq (addresses : AddressSyntax) {endpoint : IpAddr × UInt16}
    (hvalid : ValidEndpoint endpoint) (sdp : Text) :
    advertiseCandidates addresses (toUtf8 sdp) endpoint =
      .ok (toUtf8 (advertise addresses endpoint.1 endpoint.2 sdp)) := by
  obtain ⟨hport, hunspecified, hmulticast⟩ := hvalid
  unfold advertiseCandidates
  rw [if_neg (by simp [hport, hunspecified, hmulticast]), fromUtf8_toUtf8]

theorem toUtf8_inj {first second : Text} (h : toUtf8 first = toUtf8 second) : first = second := by
  have hread := congrArg fromUtf8 h
  rw [fromUtf8_toUtf8, fromUtf8_toUtf8] at hread
  exact Option.some.inj hread

/-- **Rewriting only adds candidates, exactly if** every section that gets one is clear: no `m=`
comes after its first line `a=end-of-candidates`, and no other line before that ends with this
text, from the last `m=` on. -/
theorem advertise_only_adds_iff (addresses : AddressWords) (sdp : Text)
    {endpoint : IpAddr × UInt16} (hvalid : ValidEndpoint endpoint) :
    (∃ out, advertiseCandidates addresses.toAddressSyntax (toUtf8 sdp) endpoint =
        .ok (toUtf8 out) ∧ KeepsLines sdp out) ↔
      ∀ part ∈ (cutSections (strLines sdp)).2,
        (wanted addresses.toAddressSyntax endpoint.1 endpoint.2 part).isSome = true →
          Clear part := by
  rw [← keepsLines_advertise_iff, advertiseCandidates_eq addresses.toAddressSyntax hvalid]
  constructor
  · intro ⟨out, hout, hkeeps⟩
    rw [toUtf8_inj (Except.ok.inj hout)]
    exact hkeeps
  · intro hkeeps
    exact ⟨_, rfl, hkeeps⟩

/-! ### An answer with one section -/

theorem isWord_dotted (b : UInt8) (rest : List UInt8) : IsWord (dotted (b :: rest)) := by
  have hoctet (b : UInt8) : IsWord (octetText b) := isWord_toDigits b.toNat
  induction rest generalizing b with
  | nil => exact hoctet b
  | cons next rest ih =>
    refine ⟨by simp [dotted], fun c hc => ?_⟩
    rw [dotted] at hc
    rcases mem_append.mp hc with hin | hin
    · exact (hoctet b).2 c hin
    · rcases mem_cons.mp hin with rfl | hin
      · decide
      · exact (ih next).2 c hin

def dottedWords : AddressWords where
  toAddressSyntax := dottedSyntax
  isWord ip := by
    cases hoctets : ip.octets with
    | nil =>
      have hempty := ofOctets_octets ip
      rw [hoctets] at hempty
      cases hempty
    | cons b rest =>
      change IsWord (dotted ip.octets)
      rw [hoctets]
      exact isWord_dotted b rest

def publicEndpoint : IpAddr × UInt16 := (.v4 ⟨[132, 145, 118, 98], rfl⟩, 19132)

/-- The lines of an answer with the attribute lines given. -/
def answerWith (attributes : List Text) : Text :=
  crlfLines (["v=0".toList, "m=application 5001 UDP/DTLS/SCTP webrtc-datachannel".toList] ++
    attributes ++
    ["a=candidate:1 1 UDP 2114977535 100.83.127.8 5001 typ host".toList, endOfCandidates])

/-- An answer with a clear section. -/
theorem advertise_only_adds_keep :
    ValidEndpoint publicEndpoint ∧
      ∃ out, advertiseCandidates dottedWords.toAddressSyntax
          (toUtf8 (answerWith ["a=identity:KEEP".toList])) publicEndpoint = .ok (toUtf8 out) ∧
        KeepsLines (answerWith ["a=identity:KEEP".toList]) out := by
  have hvalid : ValidEndpoint publicEndpoint := by decide
  refine ⟨hvalid, (advertise_only_adds_iff dottedWords _ hvalid).mpr ?_⟩
  decide +kernel

/-- An attribute that ends with `a=end-of-candidates`. -/
def trickyIdentity : Text := "a=identity:a=end-of-candidates".toList

/-- An identity line is cut in two. -/
theorem identity_line_broken :
    ValidEndpoint publicEndpoint ∧ trickyIdentity ∈ strLines (answerWith [trickyIdentity]) ∧
      ∃ out, advertiseCandidates dottedWords.toAddressSyntax
          (toUtf8 (answerWith [trickyIdentity])) publicEndpoint = .ok (toUtf8 out) ∧
        trickyIdentity ∉ strLines out ∧ ¬ KeepsLines (answerWith [trickyIdentity]) out := by
  have hvalid : ValidEndpoint publicEndpoint := by decide
  have hbefore : trickyIdentity ∈ strLines (answerWith [trickyIdentity]) := by decide +kernel
  have hafter : trickyIdentity ∉ strLines (advertise dottedWords.toAddressSyntax publicEndpoint.1
      publicEndpoint.2 (answerWith [trickyIdentity])) := by decide +kernel
  refine ⟨hvalid, hbefore, _, advertiseCandidates_eq _ hvalid _, hafter, ?_⟩
  exact fun hkeeps => hafter (hkeeps.mem hbefore)

/-- **Rewriting twice is rewriting once**, if `a=end-of-candidates` occurs only as a line. -/
theorem advertise_idempotent (addresses : AddressWords) (sdp : Text)
    {endpoint : IpAddr × UInt16} (hvalid : ValidEndpoint endpoint)
    (hwhole : ∀ l ∈ strLines sdp, endOfCandidates <:+: l → l = endOfCandidates) :
    ∃ out, advertiseCandidates addresses.toAddressSyntax (toUtf8 sdp) endpoint = .ok out ∧
      advertiseCandidates addresses.toAddressSyntax out endpoint = .ok out := by
  refine ⟨_, advertiseCandidates_eq addresses.toAddressSyntax hvalid sdp, ?_⟩
  rw [advertiseCandidates_eq addresses.toAddressSyntax hvalid, advertise_idem hwhole]

/-- The same answer, rewritten twice. -/
theorem advertise_idempotent_keep :
    ∃ out, advertiseCandidates dottedWords.toAddressSyntax
        (toUtf8 (answerWith ["a=identity:KEEP".toList])) publicEndpoint = .ok out ∧
      advertiseCandidates dottedWords.toAddressSyntax out publicEndpoint = .ok out :=
  advertise_idempotent dottedWords _ (by decide) (by decide +kernel)

end FerrumProxy
