import FerrumProxy.TextStrings

/-!
# Reading back what was written

Decoding the UTF-8 bytes of a text gives the text, and goes on with the bytes that follow it as if
they stood alone.
-/

namespace Str

/-! ### One character -/

open List

section Character

variable {a b c d : Nat} (rest : List UInt8)

theorem toNat_ofNat_byte {n : Nat} (h : n < 256) : (UInt8.ofNat n).toNat = n :=
  Nat.mod_eq_of_lt h

theorem utf8Next_one (ha : a ≤ 127) :
    utf8Next (UInt8.ofNat a) rest = (some (Char.ofNat a), rest) := by
  have hbyte : (UInt8.ofNat a).toNat = a := toNat_ofNat_byte (by omega)
  unfold utf8Next
  rw [hbyte, if_pos (by omega)]

theorem utf8Tail_byte (more value : Nat) (hb : b < 64) :
    utf8Tail (more + 1) value (UInt8.ofNat (b + 128) :: rest) =
      utf8Tail more (value * 64 + b) rest := by
  have hbyte : (UInt8.ofNat (b + 128)).toNat = b + 128 := toNat_ofNat_byte (by omega)
  rw [utf8Tail, hbyte, if_pos (by omega), Nat.add_sub_cancel]

/-- The first two bytes of a longer code, the second of which is in its range. -/
theorem utf8Next_lead {lead more low high : Nat} (hlead : 128 ≤ lead ∧ lead < 256)
    (hrange : utf8Lead lead = some (more, a, low, high)) (hb : b < 64)
    (hlow : low ≤ b + 128) (hhigh : b + 128 ≤ high) :
    utf8Next (UInt8.ofNat lead) (UInt8.ofNat (b + 128) :: rest) =
      utf8Tail more (a * 64 + b) rest := by
  have hbyte : (UInt8.ofNat (b + 128)).toNat = b + 128 := toNat_ofNat_byte (by omega)
  unfold utf8Next
  rw [toNat_ofNat_byte hlead.2, if_neg (by omega), hrange]
  simp only [hbyte]
  rw [if_pos ⟨hlow, hhigh⟩, Nat.add_sub_cancel]

theorem utf8Next_two (ha : 2 ≤ a ∧ a < 32) (hb : b < 64) :
    utf8Next (UInt8.ofNat (a + 192)) (UInt8.ofNat (b + 128) :: rest) =
      (some (Char.ofNat (a * 64 + b)), rest) := by
  have hrange : utf8Lead (a + 192) = some (0, a, 0x80, 0xbf) := by
    rw [utf8Lead, if_pos (by omega), Nat.add_sub_cancel]
  rw [utf8Next_lead rest (by omega) hrange hb (by omega) (by omega), utf8Tail]

theorem utf8Next_three (ha : a < 16) (hb : b < 64) (hc : c < 64) (hlong : 2048 ≤ a * 4096 + b * 64)
    (hvalid : a * 4096 + b * 64 + c < 0xd800 ∨ 0xdfff < a * 4096 + b * 64 + c) :
    utf8Next (UInt8.ofNat (a + 224)) (UInt8.ofNat (b + 128) :: UInt8.ofNat (c + 128) :: rest) =
      (some (Char.ofNat ((a * 64 + b) * 64 + c)), rest) := by
  have hrange : ∃ low high, utf8Lead (a + 224) = some (1, a, low, high) ∧
      low ≤ b + 128 ∧ b + 128 ≤ high := by
    unfold utf8Lead
    rw [if_neg (by omega)]
    by_cases hfirst : a = 0
    · exact ⟨_, _, by rw [hfirst]; rfl, by omega, by omega⟩
    · by_cases hsurrogate : a = 13
      · exact ⟨_, _, by rw [hsurrogate]; rfl, by omega, by omega⟩
      · refine ⟨0x80, 0xbf, ?_, by omega, by omega⟩
        rw [if_neg (by omega), if_neg (by omega), if_pos (by omega), Nat.add_sub_cancel]
  obtain ⟨low, high, hrange, hlow, hhigh⟩ := hrange
  rw [utf8Next_lead _ (by omega) hrange hb hlow hhigh, utf8Tail_byte rest 0 _ hc, utf8Tail]

theorem utf8Next_four (hb : b < 64) (hc : c < 64) (hd : d < 64)
    (hlong : 65536 ≤ a * 262144 + b * 4096) (hvalid : a * 262144 + b * 4096 < 0x110000) :
    utf8Next (UInt8.ofNat (a + 240))
        (UInt8.ofNat (b + 128) :: UInt8.ofNat (c + 128) :: UInt8.ofNat (d + 128) :: rest) =
      (some (Char.ofNat (((a * 64 + b) * 64 + c) * 64 + d)), rest) := by
  have hrange : ∃ low high, utf8Lead (a + 240) = some (2, a, low, high) ∧
      low ≤ b + 128 ∧ b + 128 ≤ high := by
    unfold utf8Lead
    rw [if_neg (by omega), if_neg (by omega), if_neg (by omega), if_neg (by omega)]
    by_cases hfirst : a = 0
    · exact ⟨_, _, by rw [hfirst]; rfl, by omega, by omega⟩
    · by_cases hlast : a = 4
      · exact ⟨_, _, by rw [hlast]; rfl, by omega, by omega⟩
      · refine ⟨0x80, 0xbf, ?_, by omega, by omega⟩
        rw [if_neg (by omega), if_pos (by omega), Nat.add_sub_cancel]
  obtain ⟨low, high, hrange, hlow, hhigh⟩ := hrange
  rw [utf8Next_lead _ (by omega) hrange hb hlow hhigh, utf8Tail_byte _ 1 _ hc,
    utf8Tail_byte _ 0 _ hd, utf8Tail]

theorem utf8Next_encode (char : Char) (rest : List UInt8) :
    ∃ first tail, String.utf8EncodeChar char = first :: tail ∧
      utf8Next first (tail ++ rest) = (some char, rest) := by
  have hchar : ∀ {n : Nat}, n = char.val.toNat → Char.ofNat n = char := by
    intro n hn
    rw [hn]
    exact char.ofNat_toNat
  have hvalid : char.val.toNat.isValidChar := char.valid
  unfold String.utf8EncodeChar
  dsimp only
  split
  · rename_i hone
    exact ⟨_, _, rfl, by rw [nil_append, utf8Next_one rest hone, hchar rfl]⟩
  · split
    · refine ⟨_, _, rfl, ?_⟩
      rw [cons_append, nil_append, utf8Next_two rest (by omega) (by omega), hchar (by omega)]
    · split
      · refine ⟨_, _, rfl, ?_⟩
        rw [cons_append, cons_append, nil_append,
          utf8Next_three rest (by omega) (by omega) (by omega) (by omega) (by omega),
          hchar (by omega)]
      · refine ⟨_, _, rfl, ?_⟩
        rw [cons_append, cons_append, cons_append, nil_append,
          utf8Next_four rest (by omega) (by omega) (by omega) (by omega) (by omega),
          hchar (by omega)]

end Character

/-! ### A text -/

/-- What is left after a character is the end of the bytes. -/
theorem utf8Tail_suffix (more value : Nat) (bytes : List UInt8) :
    (utf8Tail more value bytes).2 <:+ bytes := by
  induction more generalizing value bytes with
  | zero => exact suffix_refl _
  | succ more ih =>
    cases bytes with
    | nil => exact suffix_refl _
    | cons b rest =>
      unfold utf8Tail
      split
      · exact (ih (value * 64 + (b.toNat - 0x80)) rest).trans (suffix_cons b rest)
      · exact suffix_refl _

theorem utf8Next_suffix (first : UInt8) (rest : List UInt8) : (utf8Next first rest).2 <:+ rest := by
  unfold utf8Next
  (repeat' split) <;> try exact suffix_refl _
  exact (utf8Tail_suffix ..).trans (suffix_cons ..)

variable {bytes : List UInt8} {s : Text}

/-- Each round reads a character, so that enough rounds read all. -/
theorem utf8Chunks_rounds {rounds : Nat} (h : bytes.length ≤ rounds) :
    utf8Chunks rounds bytes = utf8Chunks bytes.length bytes := by
  induction rounds using Nat.strongRecOn generalizing bytes with
  | _ rounds ih =>
    cases bytes with
    | nil => cases rounds <;> rfl
    | cons b rest =>
      cases rounds with
      | zero => cases h
      | succ rounds =>
        have hnext := (utf8Next_suffix b rest).length_le
        simp only [length_cons] at h
        simp only [length_cons, utf8Chunks]
        rw [ih rounds (by omega) (by omega), ← ih rest.length (by omega) hnext]

theorem toUtf8_append (s t : Text) : toUtf8 (s ++ t) = toUtf8 s ++ toUtf8 t :=
  flatMap_append

/-- The ASCII bytes of a text are its ASCII characters. -/
theorem ofNat_mem_of_mem_toUtf8 {b : UInt8} (hb : b.toNat < 128) (h : b ∈ toUtf8 s) :
    Char.ofNat b.toNat ∈ s := by
  obtain ⟨c, hc, hbyte⟩ := mem_flatMap.mp h
  have hlarge : ∀ n, 128 ≤ n → n < 256 → b ≠ UInt8.ofNat n := by
    intro n hn hlt heq
    rw [heq, toNat_ofNat_byte hlt] at hb
    omega
  have hvalid : c.val.toNat.isValidChar := c.valid
  unfold String.utf8EncodeChar at hbyte
  dsimp only at hbyte
  split at hbyte
  · rename_i hone
    rw [mem_singleton.mp hbyte, toNat_ofNat_byte (by omega)]
    rwa [show Char.ofNat c.val.toNat = c from c.ofNat_toNat]
  -- all bytes of a longer code are from 128 on
  · exfalso
    (repeat' split at hbyte) <;> grind

theorem utf8Chunks_append (s : Text) (rest : List UInt8) :
    utf8Chunks (toUtf8 s ++ rest).length (toUtf8 s ++ rest) =
      s.map some ++ utf8Chunks rest.length rest := by
  induction s with
  | nil => rfl
  | cons c s ih =>
    obtain ⟨first, tail, hencode, hnext⟩ := utf8Next_encode c (toUtf8 s ++ rest)
    have hbytes : toUtf8 (c :: s) ++ rest = first :: (tail ++ (toUtf8 s ++ rest)) := by
      simp [toUtf8, hencode]
    rw [hbytes, length_cons, utf8Chunks]
    simp only [hnext, map_cons, cons_append]
    rw [utf8Chunks_rounds (by simp), ih]

/-- The bytes of a text are read as that text, whatever follows them. -/
theorem fromUtf8Lossy_append (s : Text) (rest : List UInt8) :
    fromUtf8Lossy (toUtf8 s ++ rest) = s ++ fromUtf8Lossy rest := by
  have hread : (fun c : Option Char => c.getD (Char.ofNat 0xfffd)) ∘ some = id := rfl
  rw [fromUtf8Lossy, utf8Chunks_append, map_append, List.map_map, hread, List.map_id, fromUtf8Lossy]

/-- A text takes as many bytes as its characters do. -/
theorem length_toUtf8 (s : Text) : (toUtf8 s).length = byteLen s := by
  rw [toUtf8, length_flatMap, byteLen]
  exact congrArg List.sum (map_congr_left (fun c _ => String.length_utf8EncodeChar c))

theorem fromUtf8Lossy_toUtf8 (s : Text) : fromUtf8Lossy (toUtf8 s) = s := by
  have happend := fromUtf8Lossy_append s []
  rwa [append_nil, show fromUtf8Lossy [] = [] from rfl, append_nil] at happend

theorem fromUtf8_toUtf8 (s : Text) : fromUtf8 (toUtf8 s) = some s := by
  have hchunks := utf8Chunks_append s []
  simp only [append_nil, length_nil, utf8Chunks] at hchunks
  have hread : ∀ s : Text, (s.map some).mapM id = some s := by
    intro s
    induction s with
    | nil => rfl
    | cons c s ih =>
      rw [map_cons, mapM_cons, ih]
      rfl
  rw [fromUtf8, hchunks, hread]

/-! ### ASCII bytes among any others -/

section Ascii

variable {b : UInt8} (hb : b.toNat < 128) (rest : List UInt8)

include hb

theorem utf8Tail_append (more value : Nat) (bytes : List UInt8) :
    utf8Tail more value (bytes ++ b :: rest) =
      ((utf8Tail more value bytes).1, (utf8Tail more value bytes).2 ++ b :: rest) := by
  induction more generalizing value bytes with
  | zero => rfl
  | succ more ih =>
    cases bytes with
    | nil =>
      simp only [nil_append, utf8Tail]
      exact if_neg (by omega)
    | cons first bytes =>
      simp only [cons_append, utf8Tail]
      split
      · exact ih _ _
      · rfl

theorem utf8Next_append (first : UInt8) (bytes : List UInt8) :
    utf8Next first (bytes ++ b :: rest) =
      ((utf8Next first bytes).1, (utf8Next first bytes).2 ++ b :: rest) := by
  by_cases hfirst : first.toNat < 128
  · simp only [utf8Next, if_pos hfirst]
  · simp only [utf8Next, if_neg hfirst]
    cases hlead : utf8Lead first.toNat with
    | none => cases bytes <;> rfl
    | some lead =>
      obtain ⟨more, bits, low, high⟩ := lead
      cases bytes with
      | nil =>
        have hlow : 128 ≤ low := by
          unfold utf8Lead at hlead
          split_ifs at hlead <;> simp only [Option.some.injEq, Prod.mk.injEq] at hlead <;> omega
        simp only [nil_append]
        exact if_neg (by omega)
      | cons second bytes =>
        simp only [cons_append]
        split
        · exact utf8Tail_append hb rest _ _ _
        · rfl

/-- Reading starts anew at an ASCII byte, whatever is before it. -/
theorem fromUtf8Lossy_append_ascii (bytes : List UInt8) :
    fromUtf8Lossy (bytes ++ b :: rest) = fromUtf8Lossy bytes ++ fromUtf8Lossy (b :: rest) := by
  have hchunks : utf8Chunks (bytes ++ b :: rest).length (bytes ++ b :: rest) =
      utf8Chunks bytes.length bytes ++ utf8Chunks (b :: rest).length (b :: rest) := by
    induction hlength : bytes.length using Nat.strongRecOn generalizing bytes with
    | _ n ih =>
      subst hlength
      cases bytes with
      | nil => rfl
      | cons first bytes =>
        have hnext := (utf8Next_suffix first bytes).length_le
        have hrest := ih _ (Nat.lt_succ_of_le hnext) (utf8Next first bytes).2 rfl
        rw [cons_append, length_cons, length_cons, utf8Chunks, utf8Chunks]
        simp only [utf8Next_append hb rest, cons_append]
        rw [utf8Chunks_rounds hnext, ← hrest, utf8Chunks_rounds (by simp; omega)]
  rw [fromUtf8Lossy, hchunks, map_append]
  rfl

end Ascii

/-- The bytes of a sequence after the second one only add bits below. -/
theorem utf8Tail_value {more value : Nat} {rest : List UInt8} {c : Char}
    (h : utf8Tail more value bytes = (some c, rest)) :
    ∃ n, c = Char.ofNat n ∧ value * 64 ^ more ≤ n ∧ n < (value + 1) * 64 ^ more := by
  induction more generalizing value bytes with
  | zero =>
    cases h
    exact ⟨value, rfl, by omega, by omega⟩
  | succ more ih =>
    cases bytes with
    | nil => cases h
    | cons b bytes =>
      simp only [utf8Tail] at h
      split at h
      · rename_i hrange
        obtain ⟨n, hc, hlow, hhigh⟩ := ih h
        refine ⟨n, hc, ?_, ?_⟩
        · calc
            value * 64 ^ (more + 1) = value * 64 * 64 ^ more := by
              rw [Nat.pow_succ', Nat.mul_assoc]
            _ ≤ (value * 64 + (b.toNat - 128)) * 64 ^ more := Nat.mul_le_mul_right _ (by omega)
            _ ≤ n := hlow
        · calc
            n < (value * 64 + (b.toNat - 128) + 1) * 64 ^ more := hhigh
            _ ≤ (value + 1) * 64 * 64 ^ more := Nat.mul_le_mul_right _ (by omega)
            _ = (value + 1) * 64 ^ (more + 1) := by rw [Nat.pow_succ', Nat.mul_assoc]
      · cases h

theorem toNat_ofNat_char {n : Nat} (h : n.isValidChar) : (Char.ofNat n).toNat = n := by
  rw [Char.ofNat, dif_pos h]
  rfl

theorem utf8Next_ascii {first : UInt8} {c : Char}
    (h : (utf8Next first bytes).1.getD (Char.ofNat 0xfffd) = c) (hc : c.toNat < 128) :
    first.toNat = c.toNat ∧ (utf8Next first bytes).2 = bytes := by
  have hgap : (Char.ofNat 0xfffd) ≠ c := by
    intro heq
    rw [← heq] at hc
    exact absurd hc (by decide)
  by_cases hfirst : first.toNat < 128
  · simp only [utf8Next, if_pos hfirst, Option.getD_some] at h
    refine ⟨?_, by simp only [utf8Next, if_pos hfirst]⟩
    rw [← h, toNat_ofNat_char (.inl (by omega))]
  · exfalso
    simp only [utf8Next, if_neg hfirst] at h
    split at h
    · rename_i more bits low high b bytes hlead
      split at h
      · rename_i hrange
        cases htail : utf8Tail more (bits * 64 + (b.toNat - 128)) bytes with
        | mk read rest =>
          rw [htail] at h
          cases read with
          | none => exact hgap h
          | some c' =>
            obtain ⟨n, hn, hlow, hhigh⟩ := utf8Tail_value htail
            simp only [Option.getD_some] at h
            have hlarge : n.isValidChar ∧ 128 ≤ n := by
              unfold utf8Lead at hlead
              split_ifs at hlead <;>
                simp only [Option.some.injEq, Prod.mk.injEq] at hlead <;>
                obtain ⟨rfl, rfl, rfl, rfl⟩ := hlead <;>
                simp only [Nat.isValidChar] <;> omega
            rw [← h, hn, toNat_ofNat_char hlarge.1] at hc
            omega
      · exact hgap h
    · exact hgap h

theorem fromUtf8Lossy_cons (b : UInt8) (rest : List UInt8) :
    fromUtf8Lossy (b :: rest) = (utf8Next b rest).1.getD (Char.ofNat 0xfffd) ::
      fromUtf8Lossy (utf8Next b rest).2 := by
  rw [fromUtf8Lossy, length_cons, utf8Chunks, map_cons,
    utf8Chunks_rounds (utf8Next_suffix b rest).length_le]
  rfl

/-- An ASCII character at the start of what is read is the first byte. -/
theorem fromUtf8Lossy_head {c : Char} (h : fromUtf8Lossy bytes = c :: s) (hc : c.toNat < 128) :
    ∃ b rest, bytes = b :: rest ∧ b.toNat = c.toNat := by
  cases bytes with
  | nil => cases h
  | cons b rest =>
    rw [fromUtf8Lossy_cons] at h
    exact ⟨b, rest, rfl, (utf8Next_ascii (List.cons.inj h).1 hc).1⟩

/-- A text is cut where its bytes have an ASCII byte. -/
theorem toUtf8_eq_append {b : UInt8} (hb : b.toNat < 128) {left right : List UInt8}
    (h : toUtf8 s = left ++ b :: right) : ∃ t u, left = toUtf8 t ∧ right = toUtf8 u := by
  induction s generalizing left with
  | nil => simp [toUtf8] at h
  | cons c s ih =>
    rw [toUtf8, flatMap_cons] at h
    rcases append_eq_append_iff.mp h with ⟨more, hleft, hmore⟩ | ⟨more, hcode, hmore⟩
    · obtain ⟨t, u, ht, hu⟩ := ih hmore
      exact ⟨c :: t, u, by rw [hleft, ht]; rfl, hu⟩
    · cases more with
      | nil =>
        have hrest : toUtf8 s = [] ++ b :: right := hmore.symm
        obtain ⟨_, u, _, hu⟩ := ih hrest
        exact ⟨[c], u, by rw [← append_nil left, ← hcode]; simp [toUtf8], hu⟩
      | cons b' more =>
        obtain ⟨rfl, hright⟩ := List.cons.inj hmore
        -- an ASCII byte is the whole of its character
        have hmem : b ∈ toUtf8 [c] := by simp [toUtf8, hcode]
        have hchar : Char.ofNat b.toNat = c := mem_singleton.mp (ofNat_mem_of_mem_toUtf8 hb hmem)
        obtain ⟨first, tail, hencode, hnext⟩ := utf8Next_encode c []
        have hascii : c.toNat < 128 := by
          rw [← hchar, toNat_ofNat_char (.inl (by omega))]
          exact hb
        obtain ⟨_, htail⟩ := utf8Next_ascii (by rw [hnext]; rfl) hascii
        rw [hnext, append_nil] at htail
        rw [hencode, ← htail] at hcode
        cases left with
        | nil =>
          cases hcode
          exact ⟨[], s, rfl, hright⟩
        | cons d left => simp at hcode

end Str
