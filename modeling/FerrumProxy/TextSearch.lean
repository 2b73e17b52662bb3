import FerrumProxy.TextLines

/-!
# Searching and writing lines

`find` and `rfind` look for a needle in a text, `crlfLines` writes lines one after another and
`strLines` reads them back.
-/

namespace Str

/-! ### The first and the last place -/

/-- `str::find`. -/
def find (needle : Text) : Text → Option Nat
  | [] => if needle = [] then some 0 else none
  | c :: rest => if needle <+: c :: rest then some 0 else (find needle rest).map (· + 1)

/-- `str::rfind`. -/
def rfind (needle : Text) : Text → Option Nat
  | [] => if needle = [] then some 0 else none
  | c :: rest =>
    match rfind needle rest with
    | some place => some (place + 1)
    | none => if needle <+: c :: rest then some 0 else none

/-- `String::insert_str`. -/
def insertStr (place : Nat) (added s : Text) : Text := s.take place ++ added ++ s.drop place

variable {needle u v s : Text}

open List

theorem find_prefix (h : needle <+: s) : find needle s = some 0 := by
  cases s with
  | nil => rw [find, if_pos (prefix_nil.mp h)]
  | cons c rest => rw [find, if_pos h]

/-- A part in which the needle does not begin. -/
theorem find_skip (h : ∀ w, w <:+ u → w ≠ [] → ¬ needle <+: w ++ v) :
    find needle (u ++ v) = (find needle v).map (· + u.length) := by
  induction u with
  | nil => simp
  | cons c u ih =>
    have hhere := h (c :: u) suffix_rfl (cons_ne_nil c u)
    rw [cons_append] at hhere
    rw [cons_append, find, if_neg hhere,
      ih (fun w hw => h w (hw.trans (suffix_cons c u))), Option.map_map]
    congr 1

theorem rfind_eq_none_iff : rfind needle s = none ↔ ¬ needle <:+: s := by
  induction s with
  | nil =>
    rw [rfind, infix_nil]
    by_cases h : needle = []
    · simp [h]
    · simp [h]
  | cons c rest ih =>
    rw [rfind, infix_cons_iff]
    cases hrest : rfind needle rest with
    | none =>
      have hnot := ih.mp hrest
      by_cases h : needle <+: c :: rest
      · simp [h]
      · simp [h, hnot]
    | some place =>
      have hword : needle <:+: rest := by
        by_contra hnot
        rw [ih.mpr hnot] at hrest
        cases hrest
      simp [hword]

theorem exists_rfind (h : needle <:+: s) : ∃ place, rfind needle s = some place := by
  cases hfind : rfind needle s with
  | none => exact absurd h (rfind_eq_none_iff.mp hfind)
  | some place => exact ⟨place, rfl⟩

variable {place : Nat} {ls : List Text} {l w rest stop : Text} {c : Char}

theorem rfind_append_of_some (h : rfind needle v = some place) :
    rfind needle (u ++ v) = some (u.length + place) := by
  induction u with
  | nil => simpa using h
  | cons c u ih =>
    rw [cons_append, rfind, ih, length_cons]
    dsimp only
    congr 1
    omega

/-- The needle occurs where `rfind` says. -/
theorem prefix_drop_of_rfind (h : rfind needle s = some place) :
    needle <+: s.drop place ∧ place ≤ s.length := by
  induction s generalizing place with
  | nil =>
    rw [rfind] at h
    split at h <;> cases h
    next hnil => exact ⟨by rw [hnil]; exact nil_prefix, Nat.zero_le _⟩
  | cons c rest ih =>
    rw [rfind] at h
    split at h
    · rename_i later hlater
      cases h
      exact ⟨(ih hlater).1, Nat.succ_le_succ (ih hlater).2⟩
    · split at h <;> cases h
      exact ⟨‹_›, Nat.zero_le _⟩

/-- The last place is in the first part if the needle does not begin later. -/
theorem rfind_append_of_none (h : ∀ w, w <:+ v → ¬ needle <+: w)
    (hborder : ∀ w, w <:+ u → w ≠ [] → needle <+: w ++ v → needle <+: w) (hne : needle ≠ []) :
    rfind needle (u ++ v) = rfind needle u := by
  have hv : rfind needle v = none := by
    rw [rfind_eq_none_iff]
    intro ⟨before, behind, heq⟩
    exact h (needle ++ behind) ⟨before, by rw [← heq, append_assoc]⟩ (prefix_append needle behind)
  induction u with
  | nil =>
    rw [nil_append, hv, rfind, if_neg hne]
  | cons c u ih =>
    have hrest := ih (fun w hw => hborder w (hw.trans (suffix_cons c u)))
    have hhere : needle <+: c :: (u ++ v) ↔ needle <+: c :: u := by
      constructor
      · exact hborder (c :: u) suffix_rfl (cons_ne_nil c u)
      · exact fun hprefix => hprefix.trans (prefix_append (c :: u) v)
    rw [cons_append, rfind, rfind, hrest]
    simp only [hhere]

/-! ### Lines -/

def crlf : Text := ['\r', '\n']

/-- Lines written one after another. -/
def crlfLines (ls : List Text) : Text := ls.flatMap (· ++ crlf)

/-- `str::lines`. -/
def strLines (s : Text) : List Text :=
  if (lines s).getLast? = some [] then (lines s).dropLast else lines s

/-- No line end in the lines. -/
def Unbroken (ls : List Text) : Prop := ∀ l ∈ ls, '\n' ∉ l

theorem crlfLines_cons (l : Text) (ls : List Text) :
    crlfLines (l :: ls) = l ++ crlf ++ crlfLines ls := flatMap_cons

theorem crlfLines_append (first second : List Text) :
    crlfLines (first ++ second) = crlfLines first ++ crlfLines second := flatMap_append

/-- Joining with separators in between leaves out the last one. -/
theorem intercalate_append_self (sep : Text) (hne : ls ≠ []) :
    sep.intercalate ls ++ sep = ls.flatMap (· ++ sep) := by
  induction ls with
  | nil => exact absurd rfl hne
  | cons l ls ih =>
    cases ls with
    | nil => simp
    | cons next ls =>
      rw [intercalate_cons_cons, append_assoc, ih (cons_ne_nil _ _)]
      simp only [flatMap_cons]

theorem lines_append_crlf (h : '\n' ∉ l) (rest : Text) :
    lines (l ++ crlf ++ rest) = l :: lines rest := by
  induction l with
  | nil => rfl
  | cons c l ih =>
    have hl : '\n' ∉ l := fun hmem => h (mem_cons_of_mem c hmem)
    have hc : c ≠ '\n' := fun heq => h (by rw [heq]; exact mem_cons_self)
    refine lines_cons ?_ hc (ih hl)
    intro rest' _ heq
    cases l with
    | nil => cases heq
    | cons d l =>
      cases heq
      exact hl mem_cons_self

theorem lines_crlfLines (h : Unbroken ls) : lines (crlfLines ls) = ls ++ [[]] := by
  induction ls with
  | nil => rfl
  | cons l ls ih =>
    rw [crlfLines_cons, lines_append_crlf (h l mem_cons_self),
      ih (fun other hmem => h other (mem_cons_of_mem l hmem)), cons_append]

/-- **Lines are read back as they were written.** -/
theorem strLines_crlfLines (h : Unbroken ls) : strLines (crlfLines ls) = ls := by
  rw [strLines, lines_crlfLines h, List.getLast?_concat, if_pos rfl, dropLast_concat]

theorem unbroken_lines (s : Text) : Unbroken (lines s) := by
  induction s using lines.induct with
  | case1 =>
    intro l hmem
    cases mem_singleton.mp hmem
    exact not_mem_nil
  | case2 s ih | case3 s ih =>
    intro l hmem
    rcases mem_cons.mp hmem with rfl | hrest
    · exact not_mem_nil
    · exact ih l hrest
  | case4 c s hline hfeed hnil ih => exact absurd hnil (lines_ne_nil s)
  | case5 c s hline hfeed line others hlines ih =>
    intro l hmem
    rw [lines_cons hline hfeed hlines] at hmem
    rw [hlines] at ih
    rcases mem_cons.mp hmem with rfl | hrest
    · intro hin
      rcases mem_cons.mp hin with heq | hlater
      · exact hfeed heq.symm
      · exact ih line mem_cons_self hlater
    · exact ih l (mem_cons_of_mem line hrest)

theorem unbroken_strLines (s : Text) : Unbroken (strLines s) := by
  unfold strLines
  split
  · exact fun l hmem => unbroken_lines s l (mem_of_mem_dropLast hmem)
  · exact unbroken_lines s

/-! ### Needles in written lines -/

/-- A needle without the separator begins before it. -/
theorem prefix_of_prefix_append (hc : c ∉ needle) (h : needle <+: w ++ c :: rest) :
    needle <+: w := by
  induction w generalizing needle with
  | nil =>
    cases needle with
    | nil => exact nil_prefix
    | cons d needle =>
      rw [nil_append, cons_prefix_cons] at h
      exact absurd (by rw [h.1]; exact mem_cons_self) hc
  | cons d w ih =>
    cases needle with
    | nil => exact nil_prefix
    | cons e needle =>
      rw [cons_append, cons_prefix_cons] at h
      rw [cons_prefix_cons]
      exact ⟨h.1, ih (fun hmem => hc (mem_cons_of_mem e hmem)) h.2⟩

theorem infix_of_infix_append (hc : c ∉ needle) (h : needle <:+: w ++ c :: rest) :
    needle <:+: w ∨ needle <:+: rest := by
  induction w with
  | nil =>
    rcases infix_cons_iff.mp h with hprefix | hrest
    · have hnil := @prefix_of_prefix_append needle [] rest c hc hprefix
      exact .inl hnil.isInfix
    · exact .inr hrest
  | cons d w ih =>
    rcases infix_cons_iff.mp h with hprefix | hlater
    · exact .inl (@prefix_of_prefix_append needle (d :: w) rest c hc hprefix).isInfix
    · rcases ih hlater with hw | hrest
      · exact .inl (hw.trans (suffix_cons d w).isInfix)
      · exact .inr hrest

/-- A needle without the characters of a line end is in one of the lines. -/
theorem infix_crlfLines (hreturn : '\r' ∉ needle) (hfeed : '\n' ∉ needle) (hne : needle ≠ [])
    (h : needle <:+: crlfLines ls) : ∃ l ∈ ls, needle <:+: l := by
  induction ls with
  | nil => exact absurd (infix_nil.mp h) hne
  | cons l ls ih =>
    have hjoin : crlfLines (l :: ls) = l ++ '\r' :: ([] ++ '\n' :: crlfLines ls) := by
      rw [crlfLines_cons, append_assoc]
      rfl
    rw [hjoin] at h
    rcases infix_of_infix_append hreturn h with hhere | hlater
    · exact ⟨l, mem_cons_self, hhere⟩
    · rcases infix_of_infix_append hfeed hlater with hnil | hrest
      · exact absurd (infix_nil.mp hnil) hne
      · obtain ⟨other, hmem, hother⟩ := ih hrest
        exact ⟨other, mem_cons_of_mem l hmem, hother⟩

theorem mem_infix_crlfLines (h : l ∈ ls) : l <:+: crlfLines ls := by
  obtain ⟨before, after, rfl⟩ := append_of_mem h
  rw [crlfLines_append, crlfLines_cons]
  exact ⟨crlfLines before, crlf ++ crlfLines after, by simp only [append_assoc]⟩

/-- What stands before the first line end. -/
theorem eq_of_prefix_crlf (hstop : '\n' ∉ stop) (hw : '\n' ∉ w)
    (h : stop ++ crlf <+: w ++ crlf ++ rest) : stop = w := by
  obtain ⟨behind, heq⟩ := h
  have hcut : ∀ {line : Text}, '\n' ∉ line → '\n' ∉ line ++ ['\r'] := by
    intro line hline hmem
    rcases mem_append.mp hmem with hin | hin
    · exact hline hin
    · cases mem_singleton.mp hin
  have hone := splitOnce_append (hcut hstop) behind
  have htwo := splitOnce_append (hcut hw) rest
  rw [append_assoc] at hone htwo
  have hsame : stop ++ (['\r'] ++ '\n' :: behind) = w ++ (['\r'] ++ '\n' :: rest) := by
    simpa [crlf] using heq
  rw [hsame, htwo] at hone
  have hpieces := congrArg Prod.fst (Option.some.inj hone)
  exact (append_left_inj ['\r']).mp hpieces.symm

/-- A needle that ends with a line end begins in a line that ends with the rest of it, or
later. -/
theorem find_line (hstop : '\n' ∉ stop) (hw : '\n' ∉ w) (rest : Text) :
    find (stop ++ crlf) (w ++ crlf ++ rest) =
      if stop <:+ w then some (w.length - stop.length)
      else (find (stop ++ crlf) rest).map (· + (w ++ crlf).length) := by
  by_cases hends : stop <:+ w
  · rw [if_pos hends]
    obtain ⟨front, rfl⟩ := hends
    have hskip : ∀ y, y <:+ front → y ≠ [] → ¬ stop ++ crlf <+: y ++ (stop ++ crlf ++ rest) := by
      intro y hy hne hprefix
      rw [← append_assoc, ← append_assoc] at hprefix
      have hfree : '\n' ∉ y ++ stop := by
        intro hmem
        rcases mem_append.mp hmem with hin | hin
        · exact hw (mem_append_left stop (hy.subset hin))
        · exact hstop hin
      have hself := eq_of_prefix_crlf hstop hfree hprefix
      exact hne (append_left_eq_self.mp hself.symm)
    have hassoc : front ++ stop ++ crlf ++ rest = front ++ (stop ++ crlf ++ rest) := by
      simp only [append_assoc]
    rw [hassoc, find_skip hskip, find_prefix (prefix_append (stop ++ crlf) rest),
      Option.map_some, length_append]
    congr 1
    omega
  · rw [if_neg hends]
    apply find_skip
    intro y hy hne hprefix
    have hparts : w ++ crlf = w ++ ['\r'] ++ ['\n'] := by
      rw [append_assoc]
      rfl
    rw [hparts, suffix_concat_iff] at hy
    rcases hy with rfl | ⟨t, rfl, ht⟩
    · exact hne rfl
    · rcases suffix_concat_iff.mp ht with rfl | ⟨z, rfl, hz⟩
      · cases stop with
        | nil => cases (cons_prefix_cons.mp hprefix).1
        | cons d stop =>
          have hd := (cons_prefix_cons.mp hprefix).1
          exact hstop (by rw [hd]; exact mem_cons_self)
      · rw [append_assoc z] at hprefix
        have heq := eq_of_prefix_crlf hstop (fun hmem => hw (hz.subset hmem)) hprefix
        exact hends (heq ▸ hz)

end Str
