import FerrumProxy.ByteStrings
import FerrumProxy.TextStrings

/-!
# The DER reader and writer of the certificate sync

`Der` reads tagged values from a byte array and `encode` writes them.  The `int`s of Java have 32
bits, so the sums that the reader compares with the length of the array can become negative.
-/

namespace FerrumProxy

open Str Wire List

/-- The `int` that a sum or a shift leaves. -/
@[irreducible]
def int32 (n : Int) : Int := (n + 2 ^ 31) % 2 ^ 32 - 2 ^ 31

/-- A read returns bytes or throws an `IOException`, with the position it leaves, or it accesses an
element that the array does not have. -/
inductive DerRead
  | value (bytes : Bytes) (position : Nat)
  | ioException (message : Text) (position : Nat)
  | outOfBounds

namespace Der

/-- The loop over the length bytes; the bits of a byte fill those that the shift left free. -/
def readSize : Nat → Bytes → Int → Option Int
  | 0, _, size => some size
  | _ + 1, [], _ => none
  | count + 1, b :: rest, size => readSize count rest (int32 (size * 256 + b.toNat))

/-- The last part of `content`, with the size read. -/
def take (bytes : Bytes) (size : Int) (position : Nat) : DerRead :=
  if size < 0 ∨ bytes.length - position < size then
    .ioException "Invalid DER size".toList position
  else .value ((bytes.drop position).take size.toNat) (position + size.toNat)

/-- The part of `content` behind the first byte of the length. -/
def sized (bytes : Bytes) (size : Nat) (position : Nat) : DerRead :=
  if size > 127 then
    let count := size % 128
    if count = 0 ∨ count > 4 ∨ int32 (position + count) > bytes.length then
      .ioException "Invalid DER length".toList position
    else
      match readSize count (bytes.drop position) 0 with
      | none => .outOfBounds
      | some size => take bytes size (position + count)
  else take bytes size position

def content (bytes : Bytes) (tag : Nat) (position : Nat) : DerRead :=
  if int32 (position + 2) > bytes.length then .ioException "Invalid DER key".toList position
  else
    match bytes.drop position with
    | [] => .outOfBounds
    | first :: rest =>
      if first.toNat ≠ tag then .ioException "Invalid DER key".toList (position + 1)
      else
        match rest with
        | [] => .outOfBounds
        | size :: _ => sized bytes size.toNat (position + 2)

/-- After a read that returns, the bytes from its start on. -/
def fromStart (bytes : Bytes) (start : Nat) : DerRead → DerRead
  | .value _ position => .value ((bytes.drop start).take (position - start)) position
  | other => other

def element (bytes : Bytes) (tag : Nat) (position : Nat) : DerRead :=
  fromStart bytes position (content bytes tag position)

/-- The positions that successful reads lead to. -/
inductive Reached (bytes : Bytes) : Nat → Prop
  | start : Reached bytes 0
  | next {position last : Nat} {tag : Nat} {value : Bytes} (before : Reached bytes position)
      (hread : content bytes tag position = .value value last) : Reached bytes last

end Der

/-- The number of bytes that the writer shifts out of the length. -/
def byteCount (length : Nat) : Nat := if length = 0 then 0 else byteCount (length / 256) + 1

def encode (tag : Nat) (data : Bytes) : Bytes :=
  UInt8.ofNat tag ::
    if data.length < 128 then UInt8.ofNat data.length :: data
    else
      let count := byteCount data.length
      UInt8.ofNat (128 + count) :: (beBytes count data.length ++ data)

/-- No element outside of the array was accessed, and the position is within it. -/
def DerRead.Safe (length : Nat) : DerRead → Prop
  | .value _ position | .ioException _ position => position ≤ length
  | .outOfBounds => False

namespace Der

variable {bytes data rest : Bytes} {n count position tag : Nat}

theorem int32_eq {n : Int} (hpos : 0 ≤ n) (h : n < 2 ^ 31) : int32 n = n := by
  unfold int32
  omega

theorem byteCount_le_iff : byteCount n ≤ count ↔ n < 256 ^ count := by
  induction count generalizing n with
  | zero =>
    unfold byteCount
    split <;> omega
  | succ count ih =>
    unfold byteCount
    split
    · next hzero => exact iff_of_true (Nat.zero_le _) (hzero ▸ Nat.pow_pos (by omega))
    · rw [Nat.add_le_add_iff_right, ih, Nat.pow_succ, Nat.div_lt_iff_lt_mul (by omega)]

/-- Length bytes that were written are read as the length. -/
theorem readSize_beBytes (h : n < 256 ^ count) (hint : n < 2 ^ 31) (more : Nat) (rest : Bytes) :
    readSize (count + more) (beBytes count n ++ rest) 0 = readSize more rest n := by
  induction count generalizing n more rest with
  | zero =>
    obtain rfl : n = 0 := by omega
    simp [beBytes]
  | succ count ih =>
    have hhigh : n / 256 < 256 ^ count := Nat.div_lt_of_lt_mul (by rwa [← Nat.pow_succ'])
    rw [beBytes, append_assoc, Nat.add_assoc, Nat.add_comm 1, ih hhigh (by omega), singleton_append,
      readSize, UInt8.toNat_ofNat', int32_eq (by omega) (by omega)]
    congr 1
    omega

theorem readSize_isSome (h : count ≤ rest.length) (size : Int) :
    ∃ read, readSize count rest size = some read := by
  induction count generalizing rest size with
  | zero => exact ⟨size, rfl⟩
  | succ count ih =>
    cases rest with
    | nil => cases h
    | cons b rest => exact ih (Nat.le_of_succ_le_succ h) _

theorem take_data (hdrop : bytes.drop position = data ++ rest) (h : position ≤ bytes.length) :
    take bytes data.length position = .value data (position + data.length) := by
  have hlength := congrArg List.length hdrop
  rw [length_drop, length_append] at hlength
  unfold take
  rw [if_neg (by omega), Int.toNat_natCast, hdrop, take_left']
  rfl

theorem take_safe (size : Int) (h : position ≤ bytes.length) :
    (take bytes size position).Safe bytes.length := by
  unfold take
  split
  · exact h
  · simp only [DerRead.Safe]
    omega

/-- Two bytes are left: the tag is compared, and the size is read from the second byte on. -/
theorem content_eq {first size : UInt8} (hdrop : bytes.drop position = first :: size :: rest)
    (hint : position + 2 < 2 ^ 31) (tag : Nat) :
    content bytes tag position =
      if first.toNat ≠ tag then .ioException "Invalid DER key".toList (position + 1)
      else sized bytes size.toNat (position + 2) := by
  have hlength := congrArg List.length hdrop
  rw [length_drop, length_cons, length_cons] at hlength
  have hle : ¬ int32 (position + 2) > bytes.length := by rw [int32_eq] <;> omega
  unfold content
  split
  · next hgt => exact absurd hgt hle
  · simp only [hdrop]

theorem content_safe (hlength : bytes.length + 4 < 2 ^ 31) (h : position ≤ bytes.length)
    (tag : Nat) : (content bytes tag position).Safe bytes.length := by
  rcases Nat.lt_or_ge bytes.length (position + 2) with hone | htwo
  · unfold content
    rw [if_pos (by rw [int32_eq] <;> omega)]
    exact h
  · have hleft : 2 ≤ (bytes.drop position).length := by
      rw [length_drop]
      omega
    rcases hdrop : bytes.drop position with _ | ⟨first, _ | ⟨size, rest⟩⟩
    · simp [hdrop] at hleft
    · simp [hdrop] at hleft
    rw [content_eq hdrop (by omega)]
    split
    · exact (by omega : position + 1 ≤ bytes.length)
    unfold sized
    split
    · dsimp only
      split
      · exact htwo
      · next hcount =>
        rw [not_or, not_or, int32_eq (by omega) (by omega)] at hcount
        obtain ⟨read, hread⟩ := @readSize_isSome (bytes.drop (position + 2)) (size.toNat % 128)
          (by rw [length_drop]; omega) 0
        rw [hread]
        exact take_safe read (by omega)
    · exact take_safe _ htwo

/-- The long form of a length. -/
theorem sized_beBytes (hpos : 0 < count) (hle : count ≤ 4) (hfits : data.length < 256 ^ count)
    (hdrop : bytes.drop position = beBytes count data.length ++ (data ++ rest))
    (hlength : bytes.length < 2 ^ 31) (h : position ≤ bytes.length) :
    sized bytes (128 + count) position = .value data (position + count + data.length) := by
  have hrest := congrArg List.length hdrop
  rw [length_drop, length_append, length_append, beBytes_length] at hrest
  have hread := readSize_beBytes hfits (by omega) 0 (data ++ rest)
  rw [Nat.add_zero, readSize, ← hdrop] at hread
  have hdata : bytes.drop (position + count) = data ++ rest := by
    rw [← drop_drop, hdrop, drop_left' (beBytes_length _ _)]
  unfold sized
  rw [if_pos (by omega)]
  rw [Nat.add_mod_left, Nat.mod_eq_of_lt (by omega), if_neg, hread]
  · exact take_data hdata (by omega)
  · rw [int32_eq (by omega) (by omega)]
    omega

section

variable (htag : tag < 256) (hlength : (encode tag data ++ rest).length < 2 ^ 31)

include htag hlength

/-- **Reading what was written.** -/
theorem content_encode :
    content (encode tag data ++ rest) tag 0 = .value data (encode tag data).length := by
  have htagByte : (UInt8.ofNat tag).toNat = tag := by simpa using htag
  have hbyte : ∀ n < 256, (UInt8.ofNat n).toNat = n := by simp
  unfold encode at hlength ⊢
  split at hlength
  · next hshort =>
    rw [if_pos hshort, content_eq rfl (by omega), if_neg (not_not.mpr htagByte),
      hbyte _ (by omega), sized, if_neg (by omega), take_data rfl (by simp)]
    exact congrArg _ (by simp only [length_cons]; omega)
  · next hshort =>
    have hdata : data.length < 2 ^ 31 := by
      simp only [length_append, length_cons] at hlength
      omega
    have hfits := byteCount_le_iff.mp (Nat.le_refl (byteCount data.length))
    have hle : byteCount data.length ≤ 4 := byteCount_le_iff.mpr (by omega)
    have hpos : 0 < byteCount data.length := by
      by_contra hzero
      have := byteCount_le_iff.mp (Nat.le_of_not_lt hzero)
      omega
    rw [if_neg hshort, content_eq rfl (by omega), if_neg (not_not.mpr htagByte),
      hbyte _ (by omega), sized_beBytes hpos hle hfits (append_assoc _ _ _) hlength (by simp)]
    exact congrArg _ (by simp only [length_cons, length_append, beBytes_length]; omega)

theorem element_encode :
    element (encode tag data ++ rest) tag 0 =
      .value (encode tag data) (encode tag data).length := by
  unfold element
  rw [content_encode htag hlength]
  simp [fromStart]

end

theorem safe_fromStart {read : DerRead} (h : read.Safe n) (bytes : Bytes) (start : Nat) :
    (fromStart bytes start read).Safe n := by
  cases read <;> exact h

theorem Reached.le (hlength : bytes.length + 4 < 2 ^ 31) (h : Reached bytes position) :
    position ≤ bytes.length := by
  induction h with
  | start => exact Nat.zero_le _
  | @next _ _ tag _ _ hread ih =>
    have hsafe := content_safe hlength ih tag
    rwa [hread] at hsafe

/-- Two bytes at the end of an array that is so long that the sum with the number of length bytes
is negative. -/
theorem content_outOfBounds {front : Bytes} (hlength : front.length + 2 < 2 ^ 31)
    (hlong : 2 ^ 31 ≤ front.length + 6) :
    content (front ++ [48, 132]) 48 front.length = .outOfBounds := by
  have hnegative : int32 ((front.length + 2 : Nat) + (132 % 128 : Nat)) < 0 := by
    unfold int32
    omega
  have hend : (front ++ [48, 132]).drop (front.length + 2) = [] :=
    drop_eq_nil_of_le (by simp)
  rw [content_eq drop_left hlength, if_neg (by decide)]
  show sized _ 132 _ = _
  rw [sized, if_pos (by decide)]
  rw [if_neg (by simp only [not_or]; omega), hend]
  rfl

/-- An array of each such length, with one value before its last two bytes. -/
theorem exists_outOfBounds {length : Nat} (hlength : length < 2 ^ 31)
    (hlong : 2 ^ 31 ≤ length + 4) :
    ∃ bytes position, List.length bytes = length ∧ Reached bytes position ∧
      content bytes 48 position = .outOfBounds := by
  have hcount : byteCount (length - 8) = 4 :=
    Nat.le_antisymm (byteCount_le_iff.mpr (by omega))
      (Nat.lt_of_not_le (fun h => absurd (byteCount_le_iff.mp h) (by omega)))
  have hencode : (encode 48 (replicate (length - 8) 0)).length = length - 2 := by
    simp only [encode, length_replicate, hcount]
    rw [if_neg (by omega)]
    simp
    omega
  have htotal : (encode 48 (replicate (length - 8) 0) ++ [48, 132]).length = length := by
    rw [length_append, hencode, length_cons, length_cons, length_nil]
    omega
  exact ⟨_, _, htotal, .next .start (content_encode (by omega) (by omega)),
    content_outOfBounds (by omega) (by omega)⟩

end Der

open Der in
/-- **The DER code.**  In every array, what was written is read back, and for arrays of a length
all reads are safe exactly if four more than the length is an `int`. -/
theorem der_codec_iff (length : Nat) (hlength : length < 2 ^ 31) :
    (∀ tag data rest, tag < 256 → (encode tag data ++ rest).length = length →
      content (encode tag data ++ rest) tag 0 = .value data (encode tag data).length ∧
      element (encode tag data ++ rest) tag 0 =
        .value (encode tag data) (encode tag data).length) ∧
    ((∀ bytes position tag, List.length bytes = length → Reached bytes position →
      (content bytes tag position).Safe length ∧ (element bytes tag position).Safe length) ↔
      length + 4 < 2 ^ 31) := by
  refine ⟨fun tag data rest htag heq => ?_, fun hsafe => ?_, fun hshort => ?_⟩
  · subst heq
    exact ⟨content_encode htag hlength, element_encode htag hlength⟩
  · by_contra hlong
    obtain ⟨bytes, position, hbytes, hreached, hout⟩ := exists_outOfBounds hlength (by omega)
    have hcontent := (hsafe bytes position 48 hbytes hreached).1
    rw [hout] at hcontent
    exact hcontent
  · intro bytes position tag heq hreached
    subst heq
    have hcontent := content_safe hshort (hreached.le hshort) tag
    exact ⟨hcontent, safe_fromStart hcontent bytes position⟩

open Der in
/-- The encoding of three bytes in an array of five. -/
theorem der_codec_iff_five :
    content (encode 4 [1, 2, 3] ++ []) 4 0 = .value [1, 2, 3] (encode 4 [1, 2, 3]).length :=
  ((der_codec_iff 5 (by decide)).1 4 [1, 2, 3] [] (by decide) (by decide)).1

/-- The longest array that the virtual machine makes, and its last two bytes. -/
theorem read_outOfBounds_of_longest :
    ∃ bytes position, List.length bytes = 2147483645 ∧ Der.Reached bytes position ∧
      Der.content bytes 48 position = .outOfBounds :=
  Der.exists_outOfBounds (by decide) (by decide)

end FerrumProxy
