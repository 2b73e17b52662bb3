import Mathlib

/-!
# Text and its standard operations

A text is the sequence of its Unicode scalar values.  The operations are those of the source
language's string type.  Lengths in bytes go through the UTF-8 size of each character.
-/

namespace Str

abbrev Text := List Char

/-- The Unicode `White_Space` property. -/
def isWhitespace (c : Char) : Bool :=
  let n := c.toNat
  (decide (9 ≤ n) && decide (n ≤ 13)) || n == 0x20 || n == 0x85 || n == 0xa0 || n == 0x1680 ||
    (decide (0x2000 ≤ n) && decide (n ≤ 0x200a)) || n == 0x2028 || n == 0x2029 ||
    n == 0x202f || n == 0x205f || n == 0x3000

def trimEnd (s : Text) : Text := s.rdropWhile isWhitespace

def trim (s : Text) : Text := trimEnd (s.dropWhile isWhitespace)

def trimStartMatches (c : Char) (s : Text) : Text := s.dropWhile (· == c)

def trimEndMatches (c : Char) (s : Text) : Text := s.rdropWhile (· == c)

/-- `str::split` on one character: always at least one piece. -/
def split (sep : Char) : Text → List Text
  | [] => [[]]
  | c :: rest =>
    if c == sep then [] :: split sep rest
    else
      match split sep rest with
      | [] => [[c]]
      | piece :: pieces => (c :: piece) :: pieces

/-- `str::split_once` on one character. -/
def splitOnce (sep : Char) : Text → Option (Text × Text)
  | [] => none
  | c :: rest =>
    if c == sep then some ([], rest)
    else (splitOnce sep rest).map (fun p => (c :: p.1, p.2))

/-- `str::splitn` on one character: at most `n` pieces, the last one uncut. -/
def splitn (sep : Char) : Nat → Text → List Text
  | 0, _ => []
  | 1, s => [s]
  | n + 2, s =>
    match splitOnce sep s with
    | none => [s]
    | some (piece, rest) => piece :: splitn sep (n + 1) rest

/-- `str::parse::<u16>`: decimal digits after an optional plus sign. -/
def parseU16 (s : Text) : Option UInt16 :=
  let digits := if s.head? = some '+' then s.tail else s
  if digits.isEmpty || !digits.all Char.isDigit then none
  else
    let value := digits.foldl (fun n c => 10 * n + (c.toNat - '0'.toNat)) 0
    if value < 65536 then some (UInt16.ofNat value) else none

def toAsciiLowercase (s : Text) : Text := s.map Char.toLower

def eqIgnoreAsciiCase (a b : Text) : Bool := toAsciiLowercase a == toAsciiLowercase b

/-- `str::as_bytes`. -/
def toUtf8 (s : Text) : List UInt8 := s.flatMap String.utf8EncodeChar

/-- `str::len`: the number of UTF-8 bytes. -/
def byteLen (s : Text) : Nat := (s.map Char.utf8Size).sum

/-- Skip leading blanks and cut off the next word. -/
def splitWhitespaceAux : Text → Text → List Text
  | [], word => if word.isEmpty then [] else [word]
  | c :: rest, word =>
    if isWhitespace c then
      if word.isEmpty then splitWhitespaceAux rest []
      else word :: splitWhitespaceAux rest []
    else splitWhitespaceAux rest (word ++ [c])

/-- `str::split_whitespace`. -/
def splitWhitespace (s : Text) : List Text := splitWhitespaceAux s []

/-- The first item of `str::lines`: up to a line feed, without the carriage
return right before it. -/
def firstLine (s : Text) : Text :=
  match splitOnce '\n' s with
  | some (line, _) => if line.getLast? = some '\r' then line.dropLast else line
  | none => s

/-- `str::split` on a carriage return and a line feed. -/
def splitCrlf : Text → List Text
  | [] => [[]]
  | '\r' :: '\n' :: rest => [] :: splitCrlf rest
  | c :: rest =>
    match splitCrlf rest with
    | [] => [[c]]
    | piece :: pieces => (c :: piece) :: pieces

/-! ### Text from bytes -/

/-- For a first byte of a longer sequence: how many bytes follow the second, the
bits the first contributes, and the range of the second. -/
def utf8Lead (b : Nat) : Option (Nat × Nat × Nat × Nat) :=
  if 0xc2 ≤ b ∧ b ≤ 0xdf then some (0, b - 0xc0, 0x80, 0xbf)
  else if b = 0xe0 then some (1, 0, 0xa0, 0xbf)
  else if b = 0xed then some (1, 0xd, 0x80, 0x9f)
  else if 0xe1 ≤ b ∧ b ≤ 0xef then some (1, b - 0xe0, 0x80, 0xbf)
  else if b = 0xf0 then some (2, 0, 0x90, 0xbf)
  else if 0xf1 ≤ b ∧ b ≤ 0xf3 then some (2, b - 0xf0, 0x80, 0xbf)
  else if b = 0xf4 then some (2, 4, 0x80, 0x8f)
  else none

/-- The remaining bytes of a sequence; a byte that does not belong to it is left
in place. -/
def utf8Tail : Nat → Nat → List UInt8 → Option Char × List UInt8
  | 0, value, rest => (some (Char.ofNat value), rest)
  | more + 1, value, b :: rest =>
    if 0x80 ≤ b.toNat ∧ b.toNat ≤ 0xbf then utf8Tail more (value * 64 + (b.toNat - 0x80)) rest
    else (none, b :: rest)
  | _ + 1, _, [] => (none, [])

/-- The character or the ill-formed sequence at the start of the bytes. -/
def utf8Next (first : UInt8) (rest : List UInt8) : Option Char × List UInt8 :=
  if first.toNat < 0x80 then (some (Char.ofNat first.toNat), rest)
  else
    match utf8Lead first.toNat, rest with
    | some (more, bits, low, high), b :: rest' =>
      if low ≤ b.toNat ∧ b.toNat ≤ high then
        utf8Tail more (bits * 64 + (b.toNat - 0x80)) rest'
      else (none, rest)
    | _, _ => (none, rest)

/-- The characters of the bytes, with a gap for each ill-formed sequence. -/
def utf8Chunks : Nat → List UInt8 → List (Option Char)
  | rounds + 1, b :: rest =>
    let next := utf8Next b rest
    next.1 :: utf8Chunks rounds next.2
  | _, _ => []

/-- `String::from_utf8_lossy`. -/
def fromUtf8Lossy (bytes : List UInt8) : Text :=
  (utf8Chunks bytes.length bytes).map (fun c => c.getD (Char.ofNat 0xfffd))

/-- `str::from_utf8`. -/
def fromUtf8 (bytes : List UInt8) : Option Text :=
  (utf8Chunks bytes.length bytes).mapM id

/-! ### Trimming -/

variable {α : Type} {p : α → Bool} {s piece w : Text} {c sep : Char}

open List

/-- Trimming the end of a nonempty word that starts with a visible character
leaves that character. -/
theorem rdropWhile_cons_of_neg {a : α} (h : ¬ p a = true) (s : List α) :
    (a :: s).rdropWhile p = a :: s.rdropWhile p := by
  induction s using reverseRecOn with
  | nil => rw [rdropWhile_singleton, if_neg h, rdropWhile_nil]
  | append_singleton s x ih =>
    rw [← cons_append, rdropWhile_concat, rdropWhile_concat, ih]
    split <;> rfl

theorem dropWhile_eq_self_of_head {s : List α} (h : ∀ a ∈ s.head?, ¬ p a = true) :
    s.dropWhile p = s := by
  cases s with
  | nil => rfl
  | cons a s => exact dropWhile_cons_of_neg (h a (by simp))

theorem rdropWhile_eq_self_of_last {s : List α} (h : ∀ a ∈ s.getLast?, ¬ p a = true) :
    s.rdropWhile p = s := by
  apply rdropWhile_eq_self_iff.mpr
  intro hne
  exact h _ (List.getLast?_eq_getLast_of_ne_nil hne ▸ rfl)

/-- A word without blanks is not changed by trimming. -/
theorem trim_eq_self (h : ∀ c ∈ s, isWhitespace c = false) : trim s = s := by
  have hhead : s.dropWhile isWhitespace = s :=
    dropWhile_eq_self_of_head (fun a ha => by simp [h a (mem_of_mem_head? ha)])
  rw [trim, trimEnd, hhead]
  exact rdropWhile_eq_self_of_last (fun a ha => by simp [h a (mem_of_mem_getLast? ha)])

/-! ### Splitting -/

theorem split_ne_nil (sep : Char) (s : Text) : split sep s ≠ [] := by
  cases s with
  | nil => simp [split]
  | cons c rest =>
    simp only [split]
    split
    · simp
    · split <;> simp

/-- Every character of a text is the separator or stands in a piece. -/
theorem mem_split (sep : Char) (hc : c ∈ s) : c = sep ∨ ∃ piece ∈ split sep s, c ∈ piece := by
  induction s with
  | nil => cases hc
  | cons d rest ih =>
    simp only [split]
    by_cases hd : d = sep
    · rcases mem_cons.mp hc with rfl | hrest
      · exact Or.inl hd
      · rcases ih hrest with h | ⟨piece, hp, hcp⟩
        · exact Or.inl h
        · exact Or.inr ⟨piece, by simp [hd, hp], hcp⟩
    · obtain ⟨piece, pieces, hsplit⟩ := exists_cons_of_ne_nil (split_ne_nil sep rest)
      rw [if_neg (by simpa using hd), hsplit]
      rcases mem_cons.mp hc with rfl | hrest
      · exact Or.inr ⟨_, mem_cons_self, mem_cons_self⟩
      · rcases ih hrest with h | ⟨q, hq, hcq⟩
        · exact Or.inl h
        · rw [hsplit] at hq
          rcases mem_cons.mp hq with rfl | hq
          · exact Or.inr ⟨_, mem_cons_self, mem_cons_of_mem _ hcq⟩
          · exact Or.inr ⟨q, mem_cons_of_mem _ hq, hcq⟩

/-- A text that ends with the separator has an empty last piece. -/
theorem split_of_getLast (h : s.getLast? = some sep) :
    ∃ first pieces, split sep s = first :: (pieces ++ [[]]) := by
  induction s with
  | nil => simp at h
  | cons c rest ih =>
    cases rest with
    | nil =>
      have hc : c = sep := by simpa using h
      exact ⟨[], [], by simp [split, hc]⟩
    | cons d rest =>
      obtain ⟨first, pieces, hsplit⟩ := ih (by simpa using h)
      by_cases hc : c = sep
      · exact ⟨[], first :: pieces, by rw [split, if_pos (by simpa using hc), hsplit]; rfl⟩
      · exact ⟨c :: first, pieces, by rw [split, if_neg (by simpa using hc), hsplit]⟩

/-- A text without the separator is one piece. -/
theorem split_of_notMem (h : sep ∉ piece) : split sep piece = [piece] := by
  induction piece with
  | nil => rfl
  | cons c rest ih =>
    have hc : ¬ (c == sep) = true := fun heq =>
      ne_of_not_mem_cons h (eq_of_beq heq).symm
    have hrest : sep ∉ rest := fun hmem => h (mem_cons_of_mem c hmem)
    rw [split, if_neg hc, ih hrest]

theorem split_append (h : sep ∉ piece) (rest : Text) :
    split sep (piece ++ sep :: rest) = piece :: split sep rest := by
  induction piece with
  | nil => rw [nil_append, split, if_pos (beq_self_eq_true sep)]
  | cons c piece ih =>
    have hc : ¬ (c == sep) = true := fun heq =>
      ne_of_not_mem_cons h (eq_of_beq heq).symm
    have hpiece : sep ∉ piece := fun hmem => h (mem_cons_of_mem c hmem)
    rw [cons_append, split, if_neg hc, ih hpiece]

/-! ### Words -/

theorem mem_splitWhitespaceAux :
    ∀ {word w : Text}, (∀ c ∈ word, isWhitespace c = false) → w ∈ splitWhitespaceAux s word →
      w ≠ [] ∧ ∀ c ∈ w, isWhitespace c = false := by
  induction s with
  | nil =>
    intro word w hword hw
    by_cases hempty : word.isEmpty = true
    · simp [splitWhitespaceAux, hempty] at hw
    · rw [splitWhitespaceAux, if_neg hempty, mem_singleton] at hw
      rw [hw]
      exact ⟨fun hnil => hempty (by simp [hnil]), hword⟩
  | cons c rest ih =>
    intro word w hword hw
    rw [splitWhitespaceAux] at hw
    split at hw
    · split at hw
      · exact ih (by simp) hw
      · rename_i hempty
        rcases mem_cons.mp hw with rfl | hrest
        · exact ⟨fun hnil => hempty (by simp [hnil]), hword⟩
        · exact ih (by simp) hrest
    · rename_i hc
      refine ih (fun d hd => ?_) hw
      rcases mem_append.mp hd with hold | hnew
      · exact hword d hold
      · rw [mem_singleton.mp hnew]
        simpa using hc

/-- Words are not empty and contain no blanks. -/
theorem mem_splitWhitespace (h : w ∈ splitWhitespace s) :
    w ≠ [] ∧ ∀ c ∈ w, isWhitespace c = false :=
  mem_splitWhitespaceAux (by simp) h

/-- What `str::split_whitespace` yields. -/
def IsWord (w : Text) : Prop := w ≠ [] ∧ ∀ c ∈ w, isWhitespace c = false

theorem infix_of_mem_splitWhitespaceAux :
    ∀ {word w : Text}, w ∈ splitWhitespaceAux s word → w <:+: word ++ s := by
  induction s with
  | nil =>
    intro word w hw
    by_cases hempty : word.isEmpty = true
    · simp [splitWhitespaceAux, hempty] at hw
    · rw [splitWhitespaceAux, if_neg hempty, mem_singleton] at hw
      rw [hw, append_nil]
  | cons c rest ih =>
    intro word w hw
    have hrest : w ∈ splitWhitespaceAux rest [] → w <:+: word ++ c :: rest := by
      intro hmem
      have hsuffix : rest <:+ word ++ c :: rest := ⟨word ++ [c], by simp⟩
      exact (ih hmem).trans hsuffix.isInfix
    rw [splitWhitespaceAux] at hw
    split at hw
    · split at hw
      · exact hrest hw
      · rcases mem_cons.mp hw with rfl | hw
        · exact (prefix_append _ _).isInfix
        · exact hrest hw
    · simpa using ih hw

theorem infix_of_mem_splitWhitespace (h : w ∈ splitWhitespace s) : w <:+: s :=
  infix_of_mem_splitWhitespaceAux h

theorem splitOnce_eq_some {rest : Text} (h : splitOnce sep s = some (piece, rest)) :
    s = piece ++ sep :: rest := by
  induction s generalizing piece with
  | nil => cases h
  | cons c s ih =>
    rw [splitOnce] at h
    split at h
    · rename_i hsep
      cases h
      rw [beq_iff_eq.mp hsep]
      rfl
    · obtain ⟨⟨tail, after⟩, htail, heq⟩ := Option.map_eq_some_iff.mp h
      cases heq
      rw [ih htail]
      rfl

theorem splitOnce_of_notMem (h : sep ∉ s) : splitOnce sep s = none := by
  cases hsplit : splitOnce sep s with
  | none => rfl
  | some cut =>
    have happend := splitOnce_eq_some (show splitOnce sep s = some (cut.1, cut.2) from hsplit)
    exact absurd (happend ▸ by simp) h

theorem splitOnce_append (h : sep ∉ piece) (rest : Text) :
    splitOnce sep (piece ++ sep :: rest) = some (piece, rest) := by
  induction piece with
  | nil => simp [splitOnce]
  | cons c piece ih =>
    have hc : (c == sep) = false := beq_false_of_ne (fun heq => h (heq ▸ mem_cons_self))
    simp [splitOnce, hc, ih (fun hmem => h (mem_cons_of_mem c hmem))]

theorem infix_of_mem_splitn {n : Nat} (h : piece ∈ splitn sep n s) : piece <:+: s := by
  induction n using Nat.strong_induction_on generalizing s with
  | _ n ih =>
    match n with
    | 0 => cases h
    | 1 =>
      rw [mem_singleton.mp h]
    | n + 2 =>
      rw [splitn] at h
      split at h
      · rw [mem_singleton.mp h]
      · rename_i first rest hsplit
        rw [splitOnce_eq_some hsplit]
        rcases mem_cons.mp h with rfl | h
        · exact (prefix_append _ _).isInfix
        · have hsuffix : rest <:+ first ++ sep :: rest := ⟨first ++ [sep], by simp⟩
          exact (ih (n + 1) (Nat.lt_succ_self _) h).trans hsuffix.isInfix

theorem trim_isInfix (s : Text) : trim s <:+: s :=
  (List.rdropWhile_prefix _ _).isInfix.trans (dropWhile_suffix _).isInfix

/-- A visible character does not start like a carriage return. -/
theorem toUtf8_head (h : isWhitespace c = false) (s : Text) :
    (toUtf8 (c :: s)).head? ≠ some 0x0d := by
  have hne : c.val.toNat ≠ 13 := by
    intro heq
    have hblank : isWhitespace c = true := by simp [isWhitespace, Char.toNat, heq]
    rw [hblank] at h
    cases h
  have hhead : (String.utf8EncodeChar c).head? ≠ some 0x0d ∧ String.utf8EncodeChar c ≠ [] := by
    have hbyte : ∀ n < 256, n ≠ 13 → UInt8.ofNat n ≠ 0x0d := by
      intro n hn hne heq
      have hnat : n % 256 = 13 := congrArg UInt8.toNat heq
      omega
    unfold String.utf8EncodeChar
    dsimp only
    split
    · exact ⟨fun hb => hbyte _ (by omega) hne (Option.some.inj hb), cons_ne_nil _ _⟩
    · split
      · exact ⟨fun hb => hbyte _ (by omega) (by omega) (Option.some.inj hb), cons_ne_nil _ _⟩
      · split
        · exact ⟨fun hb => hbyte _ (by omega) (by omega) (Option.some.inj hb), cons_ne_nil _ _⟩
        · exact ⟨fun hb => hbyte _ (by omega) (by omega) (Option.some.inj hb), cons_ne_nil _ _⟩
  rw [toUtf8, flatMap_cons, List.head?_append_of_ne_nil _ hhead.2]
  exact hhead.1

/-! ### ASCII characters -/

/-- The code points of digits and letters. -/
theorem toNat_of_isAlphanum (h : c.isAlphanum = true) :
    (48 ≤ c.toNat ∧ c.toNat ≤ 57) ∨ (65 ≤ c.toNat ∧ c.toNat ≤ 90) ∨
      (97 ≤ c.toNat ∧ c.toNat ≤ 122) := by
  simp only [Char.isAlphanum, Char.isAlpha, Char.isUpper, Char.isLower, Char.isDigit,
    UInt32.le_iff_toNat_le, ge_iff_le, Bool.or_eq_true, Bool.and_eq_true,
    decide_eq_true_eq] at h
  have hA : 'A'.val.toNat = 65 := rfl
  have hZ : 'Z'.val.toNat = 90 := rfl
  have ha : 'a'.val.toNat = 97 := rfl
  have hz : 'z'.val.toNat = 122 := rfl
  have h0 : '0'.val.toNat = 48 := rfl
  have h9 : '9'.val.toNat = 57 := rfl
  simp only [Char.toNat]
  omega

theorem isWhitespace_of_isAlphanum (h : c.isAlphanum = true) : isWhitespace c = false := by
  have hrange := toNat_of_isAlphanum h
  simp only [isWhitespace, Bool.or_eq_false_iff, Bool.and_eq_false_iff,
    decide_eq_false_iff_not, beq_eq_false_iff_ne]
  omega

theorem toAsciiLowercase_idem (s : Text) :
    toAsciiLowercase (toAsciiLowercase s) = toAsciiLowercase s := by
  unfold toAsciiLowercase
  rw [List.map_map]
  exact map_congr_left (fun c _ => Char.toLower_toLower_eq_toLower c)

end Str
