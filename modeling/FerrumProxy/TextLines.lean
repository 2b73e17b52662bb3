import FerrumProxy.TextStrings

/-!
# Words, fields and lines of texts

A text is cut into fields at each separator, and into lines at each line feed, with or without a
carriage return before it (`lines`), or at each carriage return that a line feed follows
(`splitCrlf`).
-/

namespace Str

/-! ### Fields -/

open List

theorem split_eq_splitOn (sep : Char) (s : Text) : split sep s = s.splitOn sep := by
  induction s with
  | nil => rfl
  | cons c rest ih =>
    rw [split, ih, splitOn, splitOn, splitOnP_cons_eq_if_modifyHead]
    cases hpieces : rest.splitOnP (· == sep) with
    | nil => exact absurd hpieces (splitOnP_ne_nil _ _)
    | cons piece pieces => rfl

variable {sep c : Char} {parts pieces : List Text} {s field w piece line : Text}

theorem split_join (hne : parts ≠ []) (hparts : ∀ part ∈ parts, sep ∉ part) :
    split sep ([sep].intercalate parts) = parts := by
  rw [split_eq_splitOn]
  exact splitOn_intercalate sep hparts hne

theorem mem_join (h : c ∈ [sep].intercalate parts) : c = sep ∨ ∃ part ∈ parts, c ∈ part := by
  induction parts with
  | nil => cases h
  | cons part rest ih =>
    cases rest with
    | nil => exact .inr ⟨part, mem_cons_self, by simpa [intercalate] using h⟩
    | cons next rest =>
      rw [intercalate_cons_cons, mem_append, mem_append] at h
      rcases h with (h | h) | h
      · exact .inr ⟨part, mem_cons_self, h⟩
      · exact .inl (mem_singleton.mp h)
      · rcases ih h with h | ⟨found, hfound, hc⟩
        · exact .inl h
        · exact .inr ⟨found, mem_cons_of_mem part hfound, hc⟩

theorem notMem_of_mem_split {part : Text} (h : part ∈ split sep s) : sep ∉ part := by
  induction s generalizing part with
  | nil =>
    rw [split, mem_singleton] at h
    rw [h]
    exact not_mem_nil
  | cons c rest ih =>
    obtain ⟨piece, pieces, hsplit⟩ := exists_cons_of_ne_nil (split_ne_nil sep rest)
    rw [hsplit] at ih
    rw [split, hsplit] at h
    by_cases hc : c = sep
    · rw [if_pos (beq_iff_eq.mpr hc)] at h
      rcases mem_cons.mp h with rfl | hmem
      · exact not_mem_nil
      · exact ih hmem
    · rw [if_neg (by simpa using hc)] at h
      rcases mem_cons.mp h with rfl | hmem
      · exact not_mem_cons_of_ne_of_not_mem (Ne.symm hc) (ih mem_cons_self)
      · exact ih (mem_cons_of_mem _ hmem)

/-! ### Fields behind a double separator -/

theorem eq_nil_of_double {more rest rest' : Text} (hne : field ≠ []) (hfield : sep ∉ field)
    (hmore : ¬ [sep, sep] <:+: more)
    (h : sep :: sep :: (field ++ rest) = more ++ sep :: sep :: rest') : more = [] := by
  match more with
  | [] => rfl
  | [c] =>
    -- the field would begin with the separator
    obtain ⟨head, tail, rfl⟩ := exists_cons_of_ne_nil hne
    have hhead : head = sep := by
      simp only [cons_append, nil_append, cons.injEq] at h
      exact h.2.2.1
    exact absurd (hhead ▸ mem_cons_self) hfield
  | c :: d :: tail =>
    simp only [cons_append, cons.injEq] at h
    obtain ⟨rfl, rfl, _⟩ := h
    exact absurd ⟨[], tail, rfl⟩ hmore

/-- Three texts can be told from their join with a double separator, if the first does not
contain it and the second is not empty and does not contain the single one. -/
theorem join_double_inj {first first' field' last last' : Text} (hfirst : ¬ [sep, sep] <:+: first)
    (hfirst' : ¬ [sep, sep] <:+: first') (hne : field ≠ []) (hfield : sep ∉ field)
    (hne' : field' ≠ []) (hfield' : sep ∉ field')
    (h : first ++ sep :: sep :: (field ++ sep :: sep :: last) =
      first' ++ sep :: sep :: (field' ++ sep :: sep :: last')) :
    first = first' ∧ field = field' ∧ last = last' := by
  have heq : first = first' := by
    rcases append_eq_append_iff.mp h with ⟨more, rfl, hrest⟩ | ⟨more, rfl, hrest⟩
    · have hmore : ¬ [sep, sep] <:+: more := fun hin =>
        hfirst' (hin.trans (suffix_append first more).isInfix)
      rw [eq_nil_of_double hne hfield hmore hrest, append_nil]
    · have hmore : ¬ [sep, sep] <:+: more := fun hin =>
        hfirst (hin.trans (suffix_append first' more).isInfix)
      rw [eq_nil_of_double hne' hfield' hmore hrest, append_nil]
  subst heq
  have hrest : field ++ sep :: sep :: last = field' ++ sep :: sep :: last' :=
    (cons.inj (cons.inj (append_cancel_left h)).2).2
  have hsplit := splitOnce_append hfield (sep :: last)
  rw [hrest, splitOnce_append hfield'] at hsplit
  cases hsplit
  exact ⟨rfl, rfl, rfl⟩

/-! ### Words -/

theorem splitWhitespaceAux_word (hw : ∀ c ∈ w, isWhitespace c = false) (rest word : Text) :
    splitWhitespaceAux (w ++ rest) word = splitWhitespaceAux rest (word ++ w) := by
  induction w generalizing word with
  | nil => rw [nil_append, append_nil]
  | cons c w ih =>
    have hc : isWhitespace c = false := hw c mem_cons_self
    rw [cons_append, splitWhitespaceAux, hc]
    simp only [Bool.false_eq_true, if_false]
    rw [ih (fun c hc => hw c (mem_cons_of_mem _ hc)), append_assoc]
    rfl

theorem isWord_iff : (!w.isEmpty && w.all (fun c => !isWhitespace c)) = true ↔ IsWord w := by
  simp [IsWord]

instance (w : Text) : Decidable (IsWord w) := decidable_of_iff _ isWord_iff

theorem splitWhitespace_word (hw : IsWord w) : splitWhitespace w = [w] := by
  have haux := splitWhitespaceAux_word hw.2 [] []
  rw [append_nil] at haux
  rw [splitWhitespace, haux, splitWhitespaceAux, nil_append, if_neg (by simp [hw.1])]

theorem splitWhitespace_cons (hw : IsWord w) (rest : Text) :
    splitWhitespace (w ++ ' ' :: rest) = w :: splitWhitespace rest := by
  rw [splitWhitespace, splitWhitespaceAux_word hw.2, splitWhitespaceAux,
    if_pos (show isWhitespace ' ' = true by decide), nil_append, if_neg (by simp [hw.1])]
  rfl

/-- Words joined by single blanks are cut into these words. -/
theorem splitWhitespace_join {words : List Text} (hwords : ∀ w ∈ words, IsWord w) :
    splitWhitespace ([' '].intercalate words) = words := by
  induction words with
  | nil => rfl
  | cons w rest ih =>
    have hw := hwords w mem_cons_self
    have hrest := ih (fun w hw => hwords w (mem_cons_of_mem _ hw))
    cases rest with
    | nil => rw [intercalate_singleton, splitWhitespace_word hw]
    | cons next rest =>
      rw [intercalate_cons_cons, append_assoc, singleton_append, splitWhitespace_cons hw, hrest]

theorem byteLen_append (s t : Text) : byteLen (s ++ t) = byteLen s + byteLen t := by
  rw [byteLen, map_append, sum_append, byteLen, byteLen]

theorem byteLen_join_splitWhitespaceAux (s word : Text) :
    byteLen ([' '].intercalate (splitWhitespaceAux s word)) ≤ byteLen word + byteLen s := by
  induction s generalizing word with
  | nil =>
    rw [splitWhitespaceAux]
    split
    · exact Nat.zero_le _
    · rw [intercalate_singleton]
      exact Nat.le_add_right _ _
  | cons c rest ih =>
    have hc := c.utf8Size_pos
    have hcons : byteLen (c :: rest) = c.utf8Size + byteLen rest := rfl
    rw [splitWhitespaceAux, hcons]
    split
    · have hrest : _ ≤ 0 + _ := ih []
      split
      · omega
      · cases hwords : splitWhitespaceAux rest [] with
        | nil =>
          rw [intercalate_singleton]
          omega
        | cons next words =>
          rw [hwords] at hrest
          rw [intercalate_cons_cons, byteLen_append, byteLen_append]
          have hblank : byteLen [' '] = 1 := rfl
          omega
    · have hrest := ih (word ++ [c])
      have hone : byteLen [c] = c.utf8Size := rfl
      rw [byteLen_append, hone] at hrest
      omega

/-- Collapsing blanks makes a text no longer. -/
theorem byteLen_join_splitWhitespace (s : Text) :
    byteLen ([' '].intercalate (splitWhitespace s)) ≤ byteLen s :=
  (byteLen_join_splitWhitespaceAux s []).trans (Nat.zero_add _).le

/-- A command of two words, with a line feed behind it. -/
theorem trim_command {command argument : Text} (hcommand : IsWord command)
    (hargument : IsWord argument) :
    trim (command ++ ' ' :: argument ++ ['\n']) = command ++ ' ' :: argument := by
  have hhead : (command ++ ' ' :: argument ++ ['\n']).dropWhile isWhitespace =
      command ++ ' ' :: argument ++ ['\n'] := by
    apply dropWhile_eq_self_of_head
    intro c hc
    rw [append_assoc, List.head?_append_of_ne_nil _ hcommand.1] at hc
    simp [hcommand.2 c (mem_of_mem_head? hc)]
  rw [trim, trimEnd, hhead, rdropWhile_concat_pos _ _ _ (by decide)]
  apply rdropWhile_eq_self_of_last
  intro c hc
  rw [List.getLast?_append_of_ne_nil _ (by simp), List.getLast?_cons] at hc
  have hlast : c ∈ argument := by
    obtain ⟨last, hlast⟩ := Option.ne_none_iff_exists'.mp
      (List.getLast?_eq_none_iff.not.mpr hargument.1)
    rw [hlast] at hc
    cases hc
    exact mem_of_getLast? hlast
  simp [hargument.2 c hlast]

/-! ### Numbers -/

/-- A port is read back from its digits. -/
theorem parseU16_toDigits (port : UInt16) : parseU16 (Nat.toDigits 10 port.toNat) = some port := by
  have hdigits : ∀ c ∈ Nat.toDigits 10 port.toNat, c.isDigit = true := fun c hc =>
    Nat.isDigit_of_mem_toDigits (by decide) (by decide) hc
  have hplus : (Nat.toDigits 10 port.toNat).head? ≠ some '+' := by
    intro hhead
    have hdigit := hdigits '+' (mem_of_mem_head? hhead)
    revert hdigit
    decide
  have hne : (Nat.toDigits 10 port.toNat).isEmpty = false :=
    isEmpty_eq_false_iff.mpr Nat.toDigits_ne_nil
  have hall : (Nat.toDigits 10 port.toNat).all Char.isDigit = true := List.all_eq_true.mpr hdigits
  have hvalue : (Nat.toDigits 10 port.toNat).foldl
      (fun n c => 10 * n + (c.toNat - '0'.toNat)) 0 = port.toNat := Nat.ofDigitChars_ten_toDigits
  simp only [parseU16, if_neg hplus, hne, hall, hvalue, port.toNat_lt, Bool.not_true, Bool.or_self,
    Bool.false_eq_true, if_false, if_true, UInt16.ofNat_toNat]

/-! ### Lines that end with a carriage return and a line feed -/

/-- No line end starts with the character. -/
def NoLineEnd (c : Char) (rest : Text) : Prop := ∀ rest', c = '\r' → rest = '\n' :: rest' → False

theorem splitCrlf_ne_nil (s : Text) : splitCrlf s ≠ [] := by
  induction s using splitCrlf.induct with
  | case1 | case2 => exact cons_ne_nil _ _
  | case3 c s hline hnil ih => exact absurd hnil ih
  | case4 c s hline piece pieces hpieces ih =>
    rw [splitCrlf.eq_3 c s hline, hpieces]
    exact cons_ne_nil _ _

theorem splitCrlf_cons (hline : NoLineEnd c s) (hpieces : splitCrlf s = piece :: pieces) :
    splitCrlf (c :: s) = (c :: piece) :: pieces := by
  rw [splitCrlf.eq_3 c s hline, hpieces]

theorem splitCrlf_append (s rest : Text) :
    splitCrlf (s ++ '\r' :: '\n' :: rest) = splitCrlf s ++ splitCrlf rest := by
  induction s using splitCrlf.induct with
  | case1 => rfl
  | case2 s ih => exact congrArg ([] :: ·) ih
  | case3 c s hline hnil ih => exact absurd hnil (splitCrlf_ne_nil s)
  | case4 c s hline piece pieces hpieces ih =>
    rw [hpieces, cons_append] at ih
    rw [splitCrlf_cons hline hpieces, cons_append]
    refine splitCrlf_cons (fun rest' hc heq => ?_) ih
    cases s with
    | nil => cases heq
    | cons d s => exact hline s hc (congrArg (· :: s) (List.cons.inj heq).1)

theorem splitCrlf_line (h : '\r' ∉ line) : splitCrlf line = [line] := by
  induction line with
  | nil => rfl
  | cons c line ih =>
    exact splitCrlf_cons (fun _ hc _ => h (hc ▸ mem_cons_self))
      (ih (fun hmem => h (mem_cons_of_mem _ hmem)))

/-! ### Lines that end with a line feed -/

/-- The lines of a text: `str::lines`, with the empty one behind a last line feed. -/
def lines : Text → List Text
  | [] => [[]]
  | '\r' :: '\n' :: rest => [] :: lines rest
  | '\n' :: rest => [] :: lines rest
  | c :: rest =>
    match lines rest with
    | [] => [[c]]
    | line :: others => (c :: line) :: others

theorem lines_ne_nil (s : Text) : lines s ≠ [] := by
  induction s using lines.induct with
  | case1 | case2 | case3 => exact cons_ne_nil _ _
  | case4 c s hline hfeed hnil ih => exact absurd hnil ih
  | case5 c s hline hfeed line others hlines ih =>
    rw [lines.eq_4 c s hline hfeed, hlines]
    exact cons_ne_nil _ _

theorem lines_cons (hline : NoLineEnd c s) (hfeed : c ≠ '\n') {others : List Text}
    (hlines : lines s = line :: others) : lines (c :: s) = (c :: line) :: others := by
  rw [lines.eq_4 c s hline hfeed, hlines]

theorem splitCrlf_first (hpieces : splitCrlf s = piece :: pieces) : piece <+: s := by
  induction s using splitCrlf.induct generalizing piece pieces with
  | case1 =>
    cases hpieces
    exact prefix_refl _
  | case2 s ih =>
    cases hpieces
    exact nil_prefix
  | case3 c s hline hnil ih => exact absurd hnil (splitCrlf_ne_nil s)
  | case4 c s hline first others hfirst ih =>
    rw [splitCrlf_cons hline hfirst] at hpieces
    cases hpieces
    exact prefix_cons_inj c |>.mpr (ih hfirst)

theorem noLineEnd_piece (hline : NoLineEnd c s) (hpieces : splitCrlf s = piece :: pieces) :
    NoLineEnd c piece := by
  intro rest hc heq
  obtain ⟨tail, htail⟩ := splitCrlf_first hpieces
  rw [heq] at htail
  exact hline (rest ++ tail) hc htail.symm

/-- Each piece between the long line ends has lines of its own. -/
theorem lines_eq_flatMap (s : Text) : lines s = (splitCrlf s).flatMap lines := by
  induction s using splitCrlf.induct with
  | case1 => rfl
  | case2 s ih =>
    rw [splitCrlf, flatMap_cons, ← ih]
    rfl
  | case3 c s hline hnil ih => exact absurd hnil (splitCrlf_ne_nil s)
  | case4 c s hline piece pieces hpieces ih =>
    rw [splitCrlf_cons hline hpieces, flatMap_cons]
    rw [hpieces, flatMap_cons] at ih
    by_cases hfeed : c = '\n'
    · subst hfeed
      rw [show lines ('\n' :: s) = [] :: lines s from rfl, ih]
      rfl
    · obtain ⟨line, others, hlines⟩ := exists_cons_of_ne_nil (lines_ne_nil piece)
      rw [hlines, cons_append] at ih
      rw [lines_cons hline hfeed ih, lines_cons (noLineEnd_piece hline hpieces) hfeed hlines,
        cons_append]

theorem lines_line (h : '\n' ∉ line) : lines line = [line] := by
  induction line with
  | nil => rfl
  | cons c line ih =>
    have hrest : '\n' ∉ line := fun hmem => h (mem_cons_of_mem _ hmem)
    have hline : NoLineEnd c line := fun rest _ heq => hrest (by simp [heq])
    exact lines_cons hline (fun hc => h (by simp [hc])) (ih hrest)

theorem firstLine_eq (s : Text) : firstLine s = (lines s).headD [] := by
  induction s using lines.induct with
  | case1 | case2 | case3 => rfl
  | case4 c s hline hfeed hnil ih => exact absurd hnil (lines_ne_nil s)
  | case5 c s hline hfeed line others hlines ih =>
    have hnext : (c == '\n') = false := beq_false_of_ne hfeed
    rw [lines_cons hline hfeed hlines]
    rw [hlines] at ih
    unfold firstLine at ih ⊢
    rw [splitOnce, hnext]
    cases hsplit : splitOnce '\n' s with
    | none =>
      rw [hsplit] at ih
      simpa using ih
    | some cut =>
      obtain ⟨before, behind⟩ := cut
      rw [hsplit] at ih
      simp only [Bool.false_eq_true, if_false, Option.map_some, headD_cons] at ih ⊢
      rw [← ih]
      cases before with
      | nil =>
        have hs : s = [] ++ '\n' :: behind := splitOnce_eq_some hsplit
        have hc : c ≠ '\r' := fun hc => hline behind hc hs
        simp [hc]
      | cons d before =>
        rw [List.getLast?_cons_cons, dropLast_cons_cons]
        split <;> rfl

end Str
