import Mathlib

/-!
# Streams that arrive in segments

A stream reaches its reader as a list of non-empty segments, and one read returns at most a
buffer's worth of the first one.  What the reading loops return may depend on the segments; the
lemmas say what does not.
-/

namespace Wire

variable {α ε : Type}

/-- A way of splitting a stream into successive segments. -/
structure IsSplit (stream : List α) (segments : List (List α)) : Prop where
  flatten : segments.flatten = stream
  nonempty : ∀ s ∈ segments, s ≠ []

/-- One read into a buffer of `cap` entries; nothing is returned only at the
end of the stream. -/

def readSegment (cap : Nat) : List (List α) → List α × List (List α)
  | [] => ([], [])
  | s :: rest => (s.take cap, if s.length ≤ cap then rest else s.drop cap :: rest)

/-- Read until `complete` holds of what was read, at most `limit` entries.
`atEnd` is the error raised when the stream ends before that, if any. -/
def readUntil (complete : List α → Bool) (limit cap : Nat) (tooLarge : ε) (atEnd : Option ε) :
    Nat → List α → List (List α) → Except ε (List α × List (List α))
  | 0, buf, segments => .ok (buf, segments)
  | rounds + 1, buf, segments =>
    if complete buf then .ok (buf, segments)
    else if limit ≤ buf.length then .error tooLarge
    else
      match readSegment cap segments with
      | ([], rest) =>
        match atEnd with
        | some e => .error e
        | none => .ok (buf, rest)
      | (s, rest) => readUntil complete limit cap tooLarge atEnd rounds (buf ++ s) rest

/-- Read to the end of the stream. -/
def drain (cap : Nat) : Nat → List (List α) → List α
  | 0, _ => []
  | rounds + 1, segments =>
    match readSegment cap segments with
    | ([], _) => []
    | (s, rest) => s ++ drain cap rounds rest

/-- The successive reads up to the end of the stream. -/
def reads (cap : Nat) : Nat → List (List α) → List (List α)
  | 0, _ => []
  | rounds + 1, segments =>
    match readSegment cap segments with
    | ([], _) => []
    | (s, rest) => s :: reads cap rounds rest

/-! ### One read -/

open List

theorem readSegment_flatten (cap : Nat) (segments : List (List α)) :
    (readSegment cap segments).1 ++ (readSegment cap segments).2.flatten = segments.flatten := by
  cases segments with
  | nil => rfl
  | cons s rest =>
    unfold readSegment
    by_cases hshort : s.length ≤ cap
    · simp [hshort, take_of_length_le hshort]
    · simp [hshort, ← append_assoc]

theorem readSegment_length_le (cap : Nat) (segments : List (List α)) :
    (readSegment cap segments).1.length ≤ cap := by
  cases segments with
  | nil => exact Nat.zero_le cap
  | cons s rest => exact length_take_le cap s

variable {segments : List (List α)} {rounds : Nat} {buf : List α}

/-- What is left to read after one read is the old segments, but for a shorter
first one. -/
theorem mem_readSegment {cap : Nat} {s : List α} (h : s ∈ (readSegment cap segments).2) :
    ∃ t ∈ segments, s <:+ t ∧ (t ≠ [] → s ≠ []) := by
  cases segments with
  | nil => cases h
  | cons t rest =>
    unfold readSegment at h
    dsimp only at h
    by_cases hshort : t.length ≤ cap
    · rw [if_pos hshort] at h
      exact ⟨s, mem_cons_of_mem t h, suffix_rfl, id⟩
    · rw [if_neg hshort] at h
      rcases mem_cons.mp h with rfl | hrest
      · refine ⟨t, mem_cons_self, drop_suffix cap t, fun _ hnil => ?_⟩
        rw [drop_eq_nil_iff] at hnil
        exact hshort hnil
      · exact ⟨s, mem_cons_of_mem t hrest, suffix_rfl, id⟩

theorem readSegment_nonempty {cap : Nat} (h : ∀ s ∈ segments, s ≠ []) :
    ∀ s ∈ (readSegment cap segments).2, s ≠ [] := by
  intro s hs
  obtain ⟨t, ht, _, hne⟩ := mem_readSegment hs
  exact hne (h t ht)

theorem readSegment_bounded (cap : Nat) {c : Nat} (h : ∀ s ∈ segments, s.length ≤ c) :
    (∀ s ∈ (readSegment cap segments).2, s.length ≤ c) ∧
      (readSegment cap segments).1.length ≤ c := by
  constructor
  · intro s hs
    obtain ⟨t, ht, hsuffix, _⟩ := mem_readSegment hs
    exact hsuffix.length_le.trans (h t ht)
  · cases segments with
    | nil => exact Nat.zero_le c
    | cons s rest => exact (length_take_le' cap s).trans (h s mem_cons_self)

/-- A read returns at most `chunk` entries when the buffer or the segments have
no more, and the same holds of the next read. -/
theorem readSegment_chunk {cap chunk : Nat} (h : cap ≤ chunk ∨ ∀ s ∈ segments, s.length ≤ chunk) :
    (readSegment cap segments).1.length ≤ chunk ∧
      (cap ≤ chunk ∨ ∀ s ∈ (readSegment cap segments).2, s.length ≤ chunk) := by
  rcases h with hle | hle
  · exact ⟨(readSegment_length_le cap segments).trans hle, Or.inl hle⟩
  · exact ⟨(readSegment_bounded cap hle).2, Or.inr (readSegment_bounded cap hle).1⟩

/-- A read returns nothing only at the end of the stream. -/
theorem readSegment_eq_nil {cap : Nat} (hcap : 0 < cap) (hne : ∀ s ∈ segments, s ≠ [])
    (h : (readSegment cap segments).1 = []) : segments = [] := by
  cases segments with
  | nil => rfl
  | cons s rest =>
    have hs := hne s mem_cons_self
    unfold readSegment at h
    rw [take_eq_nil_iff] at h
    rcases h with hzero | hnil
    · omega
    · exact absurd hnil hs

/-! ### Reading until complete -/

section

variable {complete : List α → Bool} {limit cap : Nat} {tooLarge : ε} {atEnd : Option ε}

theorem readUntil_succ (hgo : complete buf = false) (hroom : buf.length < limit)
    (hread : (readSegment cap segments).1 ≠ []) :
    readUntil complete limit cap tooLarge atEnd (rounds + 1) buf segments =
      readUntil complete limit cap tooLarge atEnd rounds (buf ++ (readSegment cap segments).1)
        (readSegment cap segments).2 := by
  rw [readUntil, hgo, if_neg Bool.false_ne_true, if_neg (by omega)]
  split
  · rename_i heq
    exact absurd (congrArg Prod.fst heq) hread
  · rename_i heq
    rw [heq]

theorem readUntil_end (hgo : complete buf = false) (hroom : buf.length < limit) :
    readUntil complete limit cap tooLarge atEnd (rounds + 1) buf [] =
      match atEnd with
      | some e => .error e
      | none => .ok (buf, []) := by
  rw [readUntil, hgo, if_neg Bool.false_ne_true, if_neg (by omega)]
  rfl

/-- A read that returns something leaves less to read. -/
theorem readSegment_shorter (hread : (readSegment cap segments).1 ≠ [])
    (hrounds : segments.flatten.length < rounds + 1) :
    (readSegment cap segments).2.flatten.length < rounds := by
  have hlen := congrArg length (readSegment_flatten cap segments)
  rw [length_append] at hlen
  have hpos := length_pos_of_ne_nil hread
  omega

/-- Why a round ends well: the buffer is complete, the stream is at its end, or the
loop ends well after one more read. -/
theorem readUntil_succ_ok (hcap : 0 < cap) {buf' : List α} {rest : List (List α)}
    (hne : ∀ s ∈ segments, s ≠ [])
    (hok : readUntil complete limit cap tooLarge atEnd (rounds + 1) buf segments = .ok (buf', rest)) :
    (complete buf = true ∧ buf' = buf ∧ rest = segments) ∨
      (segments = [] ∧ atEnd = none ∧ buf' = buf ∧ rest = []) ∨
      ((readSegment cap segments).1 ≠ [] ∧ buf.length < limit ∧
        readUntil complete limit cap tooLarge atEnd rounds (buf ++ (readSegment cap segments).1)
          (readSegment cap segments).2 = .ok (buf', rest)) := by
  by_cases hdone : complete buf = true
  · rw [readUntil, if_pos hdone] at hok
    cases hok
    exact .inl ⟨hdone, rfl, rfl⟩
  rw [Bool.not_eq_true] at hdone
  by_cases hroom : limit ≤ buf.length
  · rw [readUntil, hdone, if_neg Bool.false_ne_true, if_pos hroom] at hok
    cases hok
  rw [Nat.not_le] at hroom
  by_cases hread : (readSegment cap segments).1 = []
  · have hnil := readSegment_eq_nil hcap hne hread
    rw [hnil, readUntil_end hdone hroom] at hok
    cases hend : atEnd with
    | some e =>
      rw [hend] at hok
      cases hok
    | none =>
      rw [hend] at hok
      cases hok
      exact .inr (.inl ⟨hnil, rfl, rfl, rfl⟩)
  · rw [readUntil_succ hdone hroom hread] at hok
    exact .inr (.inr ⟨hread, hroom, hok⟩)

section

variable (hcap : 0 < cap) (hrounds : segments.flatten.length < rounds)
  (hne : ∀ s ∈ segments, s ≠ [])

include hcap hrounds hne

/-- **Nothing is lost.**  A loop that ends well has split the stream into what
it read and what is still to come; it stopped because the first is complete or
because nothing is left. -/
theorem readUntil_ok {buf' : List α} {rest : List (List α)}
    (hok : readUntil complete limit cap tooLarge atEnd rounds buf segments = .ok (buf', rest)) :
    buf' ++ rest.flatten = buf ++ segments.flatten ∧ buf.length ≤ buf'.length ∧
      (∀ s ∈ rest, s ≠ []) ∧ (complete buf' = true ∨ atEnd = none ∧ rest = []) := by
  induction rounds generalizing buf segments with
  | zero => omega
  | succ rounds ih =>
    rcases readUntil_succ_ok hcap hne hok with
      ⟨hdone, rfl, rfl⟩ | ⟨rfl, hend, rfl, rfl⟩ | ⟨hread, -, hok⟩
    · exact ⟨rfl, Nat.le_refl _, hne, Or.inl hdone⟩
    · exact ⟨rfl, Nat.le_refl _, hne, Or.inr ⟨hend, rfl⟩⟩
    · obtain ⟨hflat, hlen, hrest, hwhy⟩ :=
        ih (readSegment_shorter hread hrounds) (readSegment_nonempty hne) hok
      refine ⟨?_, ?_, hrest, hwhy⟩
      · rw [hflat, append_assoc, readSegment_flatten]
      · rw [length_append] at hlen
        omega

/-- How much a loop that ends well has read, when its reads return at most
`chunk` entries; and what is left is in no larger pieces. -/
theorem readUntil_bounded {buf' : List α} {rest : List (List α)} {bound chunk : Nat}
    (hreach : limit + chunk ≤ bound + 1) (hchunk : cap ≤ chunk ∨ ∀ s ∈ segments, s.length ≤ chunk)
    (hbuf : buf.length ≤ bound)
    (hok : readUntil complete limit cap tooLarge atEnd rounds buf segments = .ok (buf', rest)) :
    buf'.length ≤ bound ∧ (cap ≤ chunk ∨ ∀ s ∈ rest, s.length ≤ chunk) := by
  induction rounds generalizing buf segments with
  | zero => omega
  | succ rounds ih =>
    rcases readUntil_succ_ok hcap hne hok with
      ⟨-, rfl, rfl⟩ | ⟨rfl, -, rfl, rfl⟩ | ⟨hread, hroom, hok⟩
    · exact ⟨hbuf, hchunk⟩
    · exact ⟨hbuf, hchunk⟩
    · obtain ⟨hsize, hnext⟩ := readSegment_chunk hchunk
      refine ih (readSegment_shorter hread hrounds) (readSegment_nonempty hne) hnext ?_ hok
      rw [length_append]
      omega

variable {stream : List α} (hstream : buf ++ segments.flatten = stream)

include hstream

/-- **The loop ends well on every split** when every prefix of the stream that
reaches the limit is complete, and so is the stream itself if its end would be
an error. -/
theorem readUntil_succeeds (hlong : ∀ p, p <+: stream → limit ≤ p.length → complete p = true)
    (hend : atEnd = none ∨ complete stream = true) :
    ∃ r, readUntil complete limit cap tooLarge atEnd rounds buf segments = .ok r := by
  induction rounds generalizing buf segments with
  | zero => omega
  | succ rounds ih =>
    by_cases hdone : complete buf = true
    · exact ⟨_, by rw [readUntil, if_pos hdone]⟩
    have hroom : buf.length < limit := by
      by_contra hfull
      exact hdone (hlong buf ⟨_, hstream⟩ (by omega))
    rw [Bool.not_eq_true] at hdone
    by_cases hread : (readSegment cap segments).1 = []
    · have hnil := readSegment_eq_nil hcap hne hread
      rw [hnil, flatten_nil, append_nil] at hstream
      rw [hnil, readUntil_end hdone hroom]
      rcases hend with hnone | hcomplete
      · rw [hnone]
        exact ⟨_, rfl⟩
      · rw [← hstream, hdone] at hcomplete
        cases hcomplete
    · rw [readUntil_succ hdone hroom hread]
      refine ih (readSegment_shorter hread hrounds) (readSegment_nonempty hne) ?_
      rw [append_assoc, readSegment_flatten, hstream]

/-- **The loop fails** when no prefix of the stream up to length `bound` is
complete and no read can carry it from below the limit past that length. -/
theorem readUntil_fails {bound chunk : Nat}
    (hnone : ∀ p, p <+: stream → p.length ≤ bound → complete p = false)
    (hreach : limit + chunk ≤ bound + 1) (hend : atEnd ≠ none ∨ limit ≤ stream.length)
    (hchunk : cap ≤ chunk ∨ ∀ s ∈ segments, s.length ≤ chunk) (hbuf : buf.length ≤ bound) :
    ∃ e, readUntil complete limit cap tooLarge atEnd rounds buf segments = .error e := by
  induction rounds generalizing buf segments with
  | zero => omega
  | succ rounds ih =>
    have hdone := hnone buf ⟨_, hstream⟩ hbuf
    by_cases hroom : limit ≤ buf.length
    · exact ⟨_, by rw [readUntil, hdone, if_neg Bool.false_ne_true, if_pos hroom]⟩
    by_cases hread : (readSegment cap segments).1 = []
    · have hnil := readSegment_eq_nil hcap hne hread
      rw [hnil, flatten_nil, append_nil] at hstream
      rw [hnil, readUntil_end hdone (by omega)]
      rcases hend with hsome | hshort
      · obtain ⟨e, he⟩ := Option.ne_none_iff_exists'.mp hsome
        rw [he]
        exact ⟨e, rfl⟩
      · rw [← hstream] at hshort
        omega
    · obtain ⟨hsize, hchunk'⟩ := readSegment_chunk hchunk
      rw [readUntil_succ hdone (by omega) hread]
      refine ih (readSegment_shorter hread hrounds) (readSegment_nonempty hne) ?_ hchunk' ?_
      · rw [append_assoc, readSegment_flatten, hstream]
      · rw [length_append]
        omega

end

end

/-- Reading to the end returns the whole stream. -/
theorem drain_eq {cap : Nat} (hcap : 0 < cap) (hrounds : segments.flatten.length < rounds)
    (hne : ∀ s ∈ segments, s ≠ []) : drain cap rounds segments = segments.flatten := by
  induction rounds generalizing segments with
  | zero => omega
  | succ rounds ih =>
    by_cases hread : (readSegment cap segments).1 = []
    · rw [readSegment_eq_nil hcap hne hread]
      rfl
    · have hrest := ih (readSegment_shorter hread hrounds) (readSegment_nonempty hne)
      rw [drain]
      split
      · next heq => exact absurd (congrArg Prod.fst heq) hread
      · next heq => rw [← readSegment_flatten cap segments, ← hrest, heq]

end Wire
