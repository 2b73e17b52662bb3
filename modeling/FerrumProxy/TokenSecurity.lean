import FerrumProxy.ByteStrings
import FerrumProxy.TextStrings

/-!
# Hashed tokens

Tokens are stored as the hexadecimal SHA-256 of the token and a salt, and hashes are compared by
their own SHA-256, byte by byte without an early exit.
-/

namespace FerrumProxy

open Str Wire

/-- SHA-256. -/
structure Sha256 where
  digest : Bytes → Bytes
  length_digest : ∀ bytes, (digest bytes).length = 32

/-- Two lower-case hexadecimal digits for each byte. -/
def lowerHex (bytes : Bytes) : Text :=
  bytes.flatMap (fun b => [Nat.digitChar (b.toNat / 16), Nat.digitChar (b.toNat % 16)])

def Sha256.hashToken (sha : Sha256) (token serverSalt : Text) : Text :=
  lowerHex (sha.digest (toUtf8 token ++ toUtf8 serverSalt))

/-- The bits in which two byte strings differ anywhere. -/
def differences (left right : Bytes) : UInt8 :=
  (left.zip right).foldl (fun diff pair => diff ||| (pair.1 ^^^ pair.2)) 0

def Sha256.tokensEqual (sha : Sha256) (left right : Text) : Bool :=
  differences (sha.digest (toUtf8 left)) (sha.digest (toUtf8 right)) == 0

/-! ### Comparing hashes -/

theorem foldl_or_xor_eq_zero (pairs : List (UInt8 × UInt8)) (diff : UInt8) :
    pairs.foldl (fun diff pair => diff ||| (pair.1 ^^^ pair.2)) diff = 0 ↔
      diff = 0 ∧ ∀ pair ∈ pairs, pair.1 = pair.2 := by
  induction pairs generalizing diff with
  | nil => simp
  | cons pair rest ih =>
    rw [List.foldl_cons, ih, UInt8.or_eq_zero_iff, UInt8.xor_eq_zero_iff, and_assoc,
      List.forall_mem_cons]

theorem differences_eq_zero {left right : Bytes} (hlength : left.length = right.length) :
    differences left right = 0 ↔ left = right := by
  have hzip : (∀ pair ∈ left.zip right, pair.1 = pair.2) ↔ List.Forall₂ (· = ·) left right := by
    rw [List.forall₂_iff_zip]
    exact ⟨fun hall => ⟨hlength, fun hmem => hall _ hmem⟩, fun hall _ hmem => hall.2 hmem⟩
  rw [differences, foldl_or_xor_eq_zero, hzip, List.forall₂_eq_eq_eq]
  exact and_iff_right rfl

theorem Sha256.tokensEqual_iff (sha : Sha256) {left right : Text} :
    sha.tokensEqual left right = true ↔ sha.digest (toUtf8 left) = sha.digest (toUtf8 right) := by
  have hlength : (sha.digest (toUtf8 left)).length = (sha.digest (toUtf8 right)).length := by
    rw [sha.length_digest, sha.length_digest]
  rw [Sha256.tokensEqual, beq_iff_eq, differences_eq_zero hlength]

theorem digitChar_inj : ∀ a < 16, ∀ b < 16, Nat.digitChar a = Nat.digitChar b → a = b := by
  decide

theorem lowerHex_byte {a b : UInt8}
    (hhigh : Nat.digitChar (a.toNat / 16) = Nat.digitChar (b.toNat / 16))
    (hlow : Nat.digitChar (a.toNat % 16) = Nat.digitChar (b.toNat % 16)) : a = b := by
  have ha := a.toNat_lt
  have hb := b.toNat_lt
  have hdiv := digitChar_inj _ (by omega) _ (by omega) hhigh
  have hmod := digitChar_inj _ (by omega) _ (by omega) hlow
  apply UInt8.toNat_inj.mp
  omega

theorem lowerHex_injective : Function.Injective lowerHex := by
  intro left
  induction left with
  | nil =>
    intro right h
    cases right with
    | nil => rfl
    | cons b rest => cases h
  | cons a rest ih =>
    intro right h
    cases right with
    | nil => cases h
    | cons b others =>
      obtain ⟨hhigh, hlow, hrest⟩ :
          Nat.digitChar (a.toNat / 16) = Nat.digitChar (b.toNat / 16) ∧
          Nat.digitChar (a.toNat % 16) = Nat.digitChar (b.toNat % 16) ∧
          lowerHex rest = lowerHex others := by
        simpa [lowerHex] using h
      have hsame : a = b := lowerHex_byte hhigh hlow
      rw [hsame, ih hrest]

theorem toUtf8_injective : Function.Injective toUtf8 := by
  intro left right h
  have hbytes : left.utf8Encode = right.utf8Encode := congrArg List.toByteArray h
  exact String.ofList_inj.mp (String.toByteArray_inj.mp hbytes)

/-! ### Tokens that occur -/

/-- What is hashed when these tokens are stored with these salts and compared. -/
def Sha256.hashed (sha : Sha256) (tokens salts : Set Text) : Set Bytes :=
  {bytes | ∃ token ∈ tokens, ∃ salt ∈ salts,
    bytes = toUtf8 token ++ toUtf8 salt ∨ bytes = toUtf8 (sha.hashToken token salt)}

/-- SHA-256 together with the tokens that are generated or presented and the salts
that are generated, on which it has no collision. -/
structure TokenSecurity extends Sha256 where
  tokens : Set Text
  salts : Set Text
  salts_ne : [] ∉ salts
  digest_injOn : Set.InjOn digest (toSha256.hashed tokens salts)

namespace TokenSecurity

variable (security : TokenSecurity) {token other salt : Text}

/-- **A stored hash names one token.** -/
theorem token_unique (htoken : token ∈ security.tokens) (hother : other ∈ security.tokens)
    (hsalt : salt ∈ security.salts)
    (hequal : security.tokensEqual (security.hashToken token salt)
      (security.hashToken other salt) = true) :
    token = other := by
  have hhash : security.hashToken token salt = security.hashToken other salt :=
    toUtf8_injective (security.digest_injOn ⟨token, htoken, salt, hsalt, .inr rfl⟩
      ⟨other, hother, salt, hsalt, .inr rfl⟩ (security.tokensEqual_iff.mp hequal))
  have hsalted : toUtf8 token ++ toUtf8 salt = toUtf8 other ++ toUtf8 salt :=
    security.digest_injOn ⟨token, htoken, salt, hsalt, .inl rfl⟩
      ⟨other, hother, salt, hsalt, .inl rfl⟩ (lowerHex_injective hhash)
  exact toUtf8_injective (List.append_cancel_right hsalted)

end TokenSecurity

/-- A stand-in for SHA-256 that keeps the first 32 bytes. -/
def firstBytes : Sha256 where
  digest bytes := (bytes ++ List.replicate 32 0).take 32
  length_digest bytes := by simp

/-- One token and one salt, which it does not confuse. -/
def oneToken : TokenSecurity where
  toSha256 := firstBytes
  tokens := {"fpc_1".toList}
  salts := {"salt".toList}
  salts_ne h := absurd (Set.mem_singleton_iff.mp h) (by decide)
  digest_injOn := by
    intro left hleft right hright hdigest
    simp only [Sha256.hashed, Set.mem_singleton_iff, exists_eq_left, Set.mem_ofPred_eq]
      at hleft hright
    rcases hleft with rfl | rfl <;> rcases hright with rfl | rfl
    · rfl
    · exact absurd hdigest (by decide +kernel)
    · exact absurd hdigest (by decide +kernel)
    · rfl

end FerrumProxy
