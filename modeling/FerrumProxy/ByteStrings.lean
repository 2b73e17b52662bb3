import Mathlib

/-!
# Byte strings with checked access

Indexing and slicing a byte buffer fail explicitly when they leave the buffer, so that a parser
written with them shows every access it makes.
-/

namespace Wire

abbrev Bytes := List UInt8

/-- Why a byte-level routine stopped. -/
inductive Fault where
  | bail (message : String)
  | outOfBounds
  deriving DecidableEq, Repr

/-- A computation in sequence succeeds when both of its parts do. -/
theorem bind_eq_ok {ε α β : Type} {x : Except ε α} {f : α → Except ε β} {r : β} :
    x >>= f = .ok r ↔ ∃ a, x = .ok a ∧ f a = .ok r := by
  cases x <;> simp [bind, Except.bind]

theorem ok_bind {ε α β : Type} (a : α) (f : α → Except ε β) : (Except.ok a >>= f) = f a := rfl

/-- `buf[i]`. -/
def byteAt (buf : Bytes) (i : Nat) : Except Fault UInt8 :=
  match buf[i]? with
  | some b => .ok b
  | none => .error .outOfBounds

/-- `&buf[first..last]`. -/
def slice (buf : Bytes) (first last : Nat) : Except Fault Bytes :=
  if first ≤ last ∧ last ≤ buf.length then
    .ok ((buf.drop first).take (last - first))
  else
    .error .outOfBounds

/-- The two octets of a 16-bit value, most significant first. -/
def u16ToBE (x : UInt16) : Bytes :=
  [UInt8.ofNat (x.toNat / 256), UInt8.ofNat (x.toNat % 256)]

/-- The 16-bit value of two octets, most significant first. -/
def u16FromBE (hi lo : UInt8) : UInt16 :=
  UInt16.ofNat (hi.toNat * 256 + lo.toNat)

@[simp] theorem u16ToBE_length (x : UInt16) : (u16ToBE x).length = 2 := rfl

/-- Reading back the two octets of a value gives the value. -/
theorem u16FromBE_toBE (x : UInt16) :
    u16FromBE (UInt8.ofNat (x.toNat / 256)) (UInt8.ofNat (x.toNat % 256)) = x := by
  have hx := x.toNat_lt
  apply UInt16.toNat_inj.mp
  simp only [u16FromBE, UInt16.toNat_ofNat', UInt8.toNat_ofNat']
  omega

/-- The value of two octets is their base-256 number; nothing is truncated. -/
theorem u16FromBE_toNat (hi lo : UInt8) : (u16FromBE hi lo).toNat = hi.toNat * 256 + lo.toNat := by
  have hhi := hi.toNat_lt
  have hlo := lo.toNat_lt
  simp only [u16FromBE, UInt16.toNat_ofNat']
  omega

/-- Two octets are those of the value they are read as. -/
theorem u16ToBE_fromBE (hi lo : UInt8) : u16ToBE (u16FromBE hi lo) = [hi, lo] := by
  have hlo := lo.toNat_lt
  have hvalue := u16FromBE_toNat hi lo
  have hhigh : (u16FromBE hi lo).toNat / 256 = hi.toNat := by omega
  have hlow : (u16FromBE hi lo).toNat % 256 = lo.toNat := by omega
  simp only [u16ToBE, hhigh, hlow, UInt8.ofNat_toNat]

/-- The low `width` bytes of a number, most significant first. -/
def beBytes : Nat → Nat → Bytes
  | 0, _ => []
  | width + 1, n => beBytes width (n / 256) ++ [UInt8.ofNat n]

/-- The number that bytes are, most significant first. -/
def beValue (bytes : Bytes) : Nat := bytes.foldl (fun value b => 256 * value + b.toNat) 0

@[simp] theorem beBytes_length (width n : Nat) : (beBytes width n).length = width := by
  induction width generalizing n with
  | zero => rfl
  | succ width ih => simp [beBytes, ih]

theorem beValue_beBytes (width n : Nat) : beValue (beBytes width n) = n % 256 ^ width := by
  induction width generalizing n with
  | zero => simp [beBytes, beValue, Nat.mod_one]
  | succ width ih =>
    have hprevious := ih (n / 256)
    unfold beValue at hprevious ⊢
    rw [beBytes, List.foldl_append, hprevious, Nat.pow_succ', Nat.mod_mul]
    simp only [List.foldl_cons, List.foldl_nil, UInt8.toNat_ofNat']
    omega

theorem byteAt_ok {buf : Bytes} {i : Nat} (h : i < buf.length) :
    byteAt buf i = .ok buf[i] := by
  simp [byteAt, List.getElem?_eq_getElem h]

theorem slice_ok {buf : Bytes} {first last : Nat}
    (hle : first ≤ last) (hlast : last ≤ buf.length) :
    slice buf first last = .ok ((buf.drop first).take (last - first)) := by
  simp [slice, hle, hlast]

/-- An access inside the right part of a concatenation does not see the left
part. -/
theorem byteAt_append_right (pre buf : Bytes) (i : Nat) :
    byteAt (pre ++ buf) (pre.length + i) = byteAt buf i := by
  have hget : (pre ++ buf)[pre.length + i]? = buf[i]? := by
    rw [List.getElem?_append_right (Nat.le_add_right _ _), Nat.add_sub_cancel_left]
  simp only [byteAt, hget]

theorem slice_append_right (pre buf : Bytes) (first last : Nat) :
    slice (pre ++ buf) (pre.length + first) (pre.length + last) =
      slice buf first last := by
  have hsub : pre.length + last - (pre.length + first) = last - first := by omega
  simp only [slice, List.length_append, Nat.add_le_add_iff_left, List.drop_append,
    List.drop_eq_nil_of_le (Nat.le_add_right _ _), Nat.add_sub_cancel_left,
    List.nil_append, hsub]

end Wire
