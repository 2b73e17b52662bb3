import FerrumProxy.PongRewrites

/-!
# A second normalisation of a pong

Normalisation removes one pair of quotation marks from a line, and removes it before it replaces
control characters.  What is left of the line may be quoted again, and a second pass then changes
the packet once more.
-/

namespace FerrumProxy

open Str Wire List ParsedPong

variable {line inner : Text}

/-! ### Quotation marks -/

theorem stripQuotes_eq_some :
    stripQuotes line = some inner ↔ line = '"' :: (inner ++ ['"']) := by
  constructor
  · intro h
    unfold stripQuotes at h
    split at h
    · obtain ⟨hlast, hinner⟩ := Option.ite_none_right_eq_some.mp h
      cases hinner
      rw [dropLast_append_getLast? _ hlast]
    · cases h
  · intro h
    simp [h, stripQuotes]

/-! ### A second pass -/

theorem sanitize_of_isTidy (h : IsTidy line) :
    sanitizeMotdField line = [' '].intercalate (splitWhitespace ((stripQuotes line).getD line)) := by
  have hcontrol : ∀ c ∈ (stripQuotes line).getD line, isControl c = false := by
    cases hstrip : stripQuotes line with
    | none => exact h.control
    | some inner => exact fun c hc => h.control c (mem_of_mem_stripQuotes hstrip hc)
  simp only [sanitizeMotdField, trim_of_isTidy h, map_control_of_forall hcontrol]

theorem byteLen_stripQuotes (h : stripQuotes line = some inner) :
    byteLen line = byteLen inner + 2 := by
  rw [stripQuotes_eq_some.mp h, ← singleton_append, byteLen_append, byteLen_append, Nat.add_comm,
    Nat.add_assoc]
  rfl

/-- Cleaning what was cleaned changes it exactly if it is still quoted. -/
theorem sanitize_sanitize_iff (line : Text) :
    sanitizeMotdField (sanitizeMotdField line) = sanitizeMotdField line ↔
      stripQuotes (sanitizeMotdField line) = none := by
  rw [sanitize_of_isTidy (sanitize_isTidy line)]
  cases hstrip : stripQuotes (sanitizeMotdField line) with
  | none =>
    obtain ⟨words, hline, hwords⟩ := sanitize_words line
    rw [Option.getD_none, hline, splitWhitespace_join (fun word hword => (hwords word hword).1)]
    exact iff_of_true rfl rfl
  | some inner =>
    refine iff_of_false (fun hsame => ?_) (by simp)
    have hle := byteLen_join_splitWhitespace inner
    rw [Option.getD_some] at hsame
    rw [hsame, byteLen_stripQuotes hstrip] at hle
    omega

theorem byteLen_sanitize_le (line : Text) :
    byteLen (sanitizeMotdField (sanitizeMotdField line)) ≤ byteLen (sanitizeMotdField line) := by
  rw [sanitize_of_isTidy (sanitize_isTidy line)]
  refine (byteLen_join_splitWhitespace _).trans ?_
  cases hstrip : stripQuotes (sanitizeMotdField line) with
  | none => exact le_rfl
  | some inner =>
    rw [byteLen_stripQuotes hstrip]
    exact Nat.le_add_right _ _

theorem normalizeMotdLines_of_fixed {primary secondary : Text}
    (hprimary : sanitizeMotdField primary = primary)
    (hsecondary : sanitizeMotdField secondary = secondary) (hboth : primary = [] ↔ secondary = []) :
    normalizeMotdLines primary secondary = (primary, secondary) := by
  unfold normalizeMotdLines
  rw [hprimary, hsecondary]
  cases primary with
  | nil => rw [hboth.mp rfl]; rfl
  | cons c rest =>
    cases secondary with
    | nil => exact nomatch hboth.mpr rfl
    | cons d more => rfl

/-- A second pass leaves the lines exactly if neither of them is quoted. -/
theorem normalizeMotdLines_twice_iff (primary secondary : Text) :
    let lines := normalizeMotdLines primary secondary
    normalizeMotdLines lines.1 lines.2 = lines ↔
      stripQuotes lines.1 = none ∧ stripQuotes lines.2 = none := by
  obtain ⟨first, second, _, hlines, hboth⟩ := normalizeMotdLines_cases primary secondary
  dsimp only
  rw [hlines]
  have hfirst := sanitize_sanitize_iff first
  have hsecond := sanitize_sanitize_iff second
  generalize sanitizeMotdField first = x at hfirst hboth ⊢
  generalize sanitizeMotdField second = y at hsecond hboth ⊢
  rw [← hfirst, ← hsecond]
  constructor
  · intro hsame
    obtain ⟨u, v, hcases, hagain, _⟩ := normalizeMotdLines_cases x y
    rw [hagain] at hsame
    obtain ⟨hx, hy⟩ := Prod.mk.inj hsame
    rcases hcases with ⟨rfl, rfl⟩ | ⟨rfl, hline⟩
    · exact ⟨hx, hy⟩
    · -- one line stands for both, so that they are equal
      have heq : x = y := hx.symm.trans hy
      rw [← heq, or_self] at hline
      rw [hline] at hx
      exact ⟨hx, heq ▸ hx⟩
  · intro hfixed
    exact normalizeMotdLines_of_fixed hfixed.1 hfixed.2 hboth

/-! ### Lines that show the other one -/

/-- What two passes leave of a line. -/
def cleanedTwice (line : Text) : Text := sanitizeMotdField (sanitizeMotdField line)

/-- What is left of a line that is cleaned is quotation marks around blanks. -/
def Hollow (line : Text) : Prop := sanitizeMotdField line ≠ [] ∧ cleanedTwice line = []

/-- One line is hollow, and the other one is too long to stand in its place as well. -/
def ParsedPong.CopyTooLong (parsed : ParsedPong) : Prop :=
  ∃ hollow shown, (hollow = 1 ∧ shown = 7 ∨ hollow = 7 ∧ shown = 1) ∧
    Hollow (parsed.line hollow) ∧ cleanedTwice (parsed.line shown) ≠ [] ∧
    65535 < byteLen ([';'].intercalate ((parsed.fields.set 1 (cleanedTwice (parsed.line shown))).set
      7 (cleanedTwice (parsed.line shown))))

/-- The lines of a second pass are no longer than those of the first one, unless a hollow line
shows the other one. -/
theorem second_pass (primary secondary : Text) :
    let lines := normalizeMotdLines primary secondary
    let again := normalizeMotdLines lines.1 lines.2
    (byteLen again.1 ≤ byteLen lines.1 ∧ byteLen again.2 ≤ byteLen lines.2 ∧
      ¬ (Hollow primary ∧ cleanedTwice secondary ≠ []) ∧
      ¬ (Hollow secondary ∧ cleanedTwice primary ≠ [])) ∨
    (Hollow primary ∧ cleanedTwice secondary ≠ [] ∧
      again = (cleanedTwice secondary, cleanedTwice secondary)) ∨
    (Hollow secondary ∧ cleanedTwice primary ≠ [] ∧
      again = (cleanedTwice primary, cleanedTwice primary)) := by
  have hfirst := byteLen_sanitize_le primary
  have hsecond := byteLen_sanitize_le secondary
  simp only [Hollow, cleanedTwice, normalizeMotdLines]
  by_cases hp : sanitizeMotdField primary = [] <;>
    by_cases hs : sanitizeMotdField secondary = []
  · left
    simp [hp, hs, show sanitizeMotdField [] = [] from rfl]
  · left
    simp [hp, hs, show sanitizeMotdField [] = [] from rfl, hsecond]
  · left
    simp [hp, hs, show sanitizeMotdField [] = [] from rfl, hfirst]
  · by_cases hip : sanitizeMotdField (sanitizeMotdField primary) = [] <;>
      by_cases his : sanitizeMotdField (sanitizeMotdField secondary) = []
    · left
      simp [hp, hs, hip, his, show byteLen [] = 0 from rfl]
    · right; left
      simp [hp, hs, hip, his]
    · right; right
      simp [hp, hs, hip, his]
    · left
      simp [hp, hs, hip, his, hfirst, hsecond]

/-! ### The packet -/

variable {payload out : Bytes} {parsed normalized : ParsedPong}

theorem forall₂_set {α : Type} {R : α → α → Prop} {first second : List α} {x y : α}
    (h : Forall₂ R first second) (hxy : R x y) (i : Nat) :
    Forall₂ R (first.set i x) (second.set i y) := by
  induction h generalizing i with
  | nil => exact .nil
  | cons hhead htail ih =>
    cases i with
    | zero => exact .cons hxy htail
    | succ i => exact .cons hhead (ih i)

theorem byteLen_join_le {parts others : List Text} (sep : Char)
    (h : Forall₂ (fun s t => byteLen s ≤ byteLen t) parts others) :
    byteLen ([sep].intercalate parts) ≤ byteLen ([sep].intercalate others) := by
  induction h with
  | nil => exact le_rfl
  | cons hhead htail ih =>
    cases htail with
    | nil =>
      rw [intercalate_singleton, intercalate_singleton]
      exact hhead
    | cons hnext hrest =>
      rw [intercalate_cons_cons, intercalate_cons_cons]
      simp only [byteLen_append]
      omega

theorem byteLen_lines_le (fields : List Text) {x y a b : Text} (hx : byteLen x ≤ byteLen a)
    (hy : byteLen y ≤ byteLen b) :
    byteLen ([';'].intercalate ((fields.set 1 x).set 7 y)) ≤
      byteLen ([';'].intercalate ((fields.set 1 a).set 7 b)) :=
  byteLen_join_le ';' (forall₂_set (forall₂_set (forall₂_refl fields) hx 1) hy 7)

/-- The text of a second pass is too long only if a line does not fit twice. -/
theorem second_text_long_iff
    (hrewritten : Rewritten payload out parsed normalized (fun i => i = 1 ∨ i = 7))
    (hlines : (normalized.line 1, normalized.line 7) =
      normalizeMotdLines (parsed.line 1) (parsed.line 7)) :
    65535 < (toUtf8 ([';'].intercalate normalized.normalizedFields)).length ↔
      parsed.CopyTooLong := by
  have hfields : ∀ x y : Text, (normalized.fields.set 1 x).set 7 y =
      (parsed.fields.set 1 x).set 7 y := by
    intro x y
    apply List.ext_getElem?
    intro i
    have hother := hrewritten.others i
    have hcount := hrewritten.count
    grind
  have hfits : byteLen ([';'].intercalate normalized.fields) ≤ 65535 := by
    rw [ParsedPong.fields, split_eq_splitOn, List.intercalate_splitOn, ← length_toUtf8,
      ← hrewritten.size]
    exact Nat.le_of_lt_succ (UInt16.toNat_lt _)
  have hown : (normalized.fields.set 1 (normalized.line 1)).set 7 (normalized.line 7) =
      normalized.fields := by
    apply List.ext_getElem?
    intro i
    simp only [List.getElem?_set, line, List.getD_eq_getElem?_getD]
    grind
  have hpass := second_pass (parsed.line 1) (parsed.line 7)
  rw [← hlines] at hpass
  dsimp only at hpass
  rw [length_toUtf8, show normalized.normalizedFields = (normalized.fields.set 1
    (normalizeMotdLines (normalized.line 1) (normalized.line 7)).1).set 7
      (normalizeMotdLines (normalized.line 1) (normalized.line 7)).2 from rfl]
  rcases hpass with ⟨hfirst, hsecond, hnot, hnot'⟩ | ⟨hhollow, hshown, hagain⟩ |
    ⟨hhollow, hshown, hagain⟩
  · refine iff_of_false (fun hlong => ?_) (fun hcopy => ?_)
    · have hle := byteLen_lines_le normalized.fields hfirst hsecond
      rw [hown] at hle
      omega
    · obtain ⟨_, _, ⟨rfl, rfl⟩ | ⟨rfl, rfl⟩, hhollow, hshown, _⟩ := hcopy
      · exact hnot ⟨hhollow, hshown⟩
      · exact hnot' ⟨hhollow, hshown⟩
  · simp only [hagain, hfields]
    refine ⟨fun hlong => ⟨1, 7, .inl ⟨rfl, rfl⟩, hhollow, hshown, hlong⟩, fun hcopy => ?_⟩
    obtain ⟨_, _, ⟨rfl, rfl⟩ | ⟨rfl, rfl⟩, hother, _, hlong⟩ := hcopy
    · exact hlong
    · exact absurd hother.2 hshown
  · simp only [hagain, hfields]
    refine ⟨fun hlong => ⟨7, 1, .inr ⟨rfl, rfl⟩, hhollow, hshown, hlong⟩, fun hcopy => ?_⟩
    obtain ⟨_, _, ⟨rfl, rfl⟩ | ⟨rfl, rfl⟩, hother, _, hlong⟩ := hcopy
    · exact absurd hother.2 hshown
    · exact hlong

theorem stripQuotes_lines (primary secondary : Text) :
    (stripQuotes (normalizeMotdLines primary secondary).1 = none ∧
      stripQuotes (normalizeMotdLines primary secondary).2 = none) ↔
    stripQuotes (sanitizeMotdField primary) = none ∧
      stripQuotes (sanitizeMotdField secondary) = none := by
  rw [normalizeMotdLines]
  generalize sanitizeMotdField primary = first
  generalize sanitizeMotdField secondary = second
  cases first with
  | nil => cases second <;> simp [stripQuotes]
  | cons c first => cases second <;> simp [show stripQuotes [] = none from rfl]

/-- **When a normalised pong stays as it is** in a second pass: exactly if neither line of the first
pong is still quoted when it has been cleaned, or if a hollow line cannot show the other one. -/
theorem normalize_stable_iff (hout : normalizeUnconnectedPongMotd payload = some out) :
    ∃ parsed, parseUnconnectedPong payload = some parsed ∧
      (normalizeUnconnectedPongMotd out = none ↔
        (stripQuotes (sanitizeMotdField (parsed.line 1)) = none ∧
          stripQuotes (sanitizeMotdField (parsed.line 7)) = none) ∨ parsed.CopyTooLong) := by
  obtain ⟨parsed, normalized, hparse, hmany, hrewritten, hlines⟩ := motd_rewritten hout
  refine ⟨parsed, hparse, ?_⟩
  have htwice := normalizeMotdLines_twice_iff (parsed.line 1) (parsed.line 7)
  dsimp only at htwice
  rw [stripQuotes_lines, ← hlines] at htwice
  rw [normalizeMotd_eq hrewritten.pong (hrewritten.count ▸ hmany), ← htwice,
    ← second_text_long_iff hrewritten hlines]
  split
  · next hsame => exact ⟨fun _ => .inl hsame, fun _ => rfl⟩
  · next hother =>
    rw [rebuildUnconnectedPong]
    split
    · next hlong => exact ⟨fun _ => .inr hlong, fun _ => rfl⟩
    · next hfits => exact iff_of_false (by simp) (not_or.mpr ⟨hother, hfits⟩)

/-- A pong with the given lines. -/
def pongWithLines (primary secondary : String) : Bytes :=
  let motd := toUtf8 ("MCPE;" ++ primary ++ ";800;1.21;0;10;7;" ++ secondary).toList
  0x1c :: List.replicate 16 0 ++ raknetOfflineMessageId ++
    u16ToBE (UInt16.ofNat motd.length) ++ motd

/-- Blanks and one pair of quotation marks. -/
theorem normalize_stable_for_blanks :
    normalizeUnconnectedPongMotd (pongWithLines " a  b" "\"c\"") = some (pongWithLines "a b" "c") ∧
      normalizeUnconnectedPongMotd (pongWithLines "a b" "c") = none := by
  have hfirst : normalizeUnconnectedPongMotd (pongWithLines " a  b" "\"c\"") =
      some (pongWithLines "a b" "c") := by decide +kernel
  refine ⟨hfirst, ?_⟩
  obtain ⟨parsed, hparse, hiff⟩ := normalize_stable_iff hfirst
  refine hiff.mpr (.inl ?_)
  have hread : parseUnconnectedPong (pongWithLines " a  b" "\"c\"") =
      some ⟨"MCPE; a  b;800;1.21;0;10;7;\"c\"".toList, 65⟩ := rfl
  cases hparse.symm.trans hread
  decide

/-- Of two pairs of quotation marks each pass removes one. -/
theorem quotes_removed_twice :
    normalizeUnconnectedPongMotd (pongWithLines "\"\"a\"\"" "b") =
        some (pongWithLines "\"a\"" "b") ∧
      normalizeUnconnectedPongMotd (pongWithLines "\"a\"" "b") = some (pongWithLines "a" "b") := by
  decide +kernel

end FerrumProxy
