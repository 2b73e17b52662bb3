import FerrumProxy.ProxyChain

/-!
# The grammar of PROXY chains

The decoder never leaves the buffer, and what it accepts is a sequence of blocks followed by bytes
that are no block.  The length of the body stands before it, so there is only one way to cut a
string into blocks.
-/

namespace FerrumProxy

open Wire

/-! ### Reading in bounds -/

theorem parseBody_inBounds (family : UInt8) (body : Bytes) :
    parseBody family body ≠ .error .outOfBounds := by
  unfold parseBody
  split
  · by_cases hlong : 12 ≤ body.length
    · rw [parseIpv4_ok hlong]
      simp
    · rw [parseIpv4, if_pos (by omega)]
      intro hfault
      cases hfault
  · split
    · by_cases hlong : 36 ≤ body.length
      · rw [parseIpv6_ok hlong]
        simp
      · rw [parseIpv6, if_pos (by omega)]
        intro hfault
        cases hfault
    · simp

/-- With sixteen bytes left, a round reads the fixed part of a header, and the body only
after its length has been checked. -/
theorem parseHeaderAt_inBounds {buf : Bytes} {offset : Nat} (hleft : 16 ≤ buf.length - offset) :
    parseHeaderAt buf offset ≠ .error .outOfBounds := by
  unfold parseHeaderAt
  simp (disch := omega) only [byteAt_ok, bind, Except.bind]
  split
  · nofun
  · split
    · nofun
    · rename_i hfits
      rw [slice_ok (by omega) (by omega)]
      dsimp only
      intro hfault
      split at hfault <;> cases hfault
      next hbody => exact parseBody_inBounds _ _ hbody

theorem parseChainFrom_inBounds (buf : Bytes) :
    ∀ (rounds offset : Nat) (headers : List ProxyHeader),
      parseChainFrom rounds buf offset headers ≠ .error .outOfBounds := by
  intro rounds
  induction rounds with
  | zero => simp [parseChainFrom]
  | succ rounds ih =>
    intro offset headers
    rw [parseChainFrom]
    split
    · rename_i hsignature
      have hleft : 16 ≤ buf.length - offset :=
        of_decide_eq_true (Bool.and_eq_true_iff.mp hsignature).1
      cases hround : parseHeaderAt buf offset with
      | error fault =>
        intro hfault
        cases hfault
        exact parseHeaderAt_inBounds hleft hround
      | ok r => exact ih r.2 (headers ++ [r.1])
    · simp

/-- The decoder never leaves the buffer. -/
theorem parseProxyChain_inBounds (buf : Bytes) : parseProxyChain buf ≠ .error .outOfBounds :=
  parseChainFrom_inBounds buf _ 0 []

/-! ### One way to cut a string into blocks -/

open List

theorem ProxyBlock.preamble_inj {a b : ProxyBlock} (h : a.preamble = b.preamble) :
    a.family = b.family ∧ a.body.length = b.body.length := by
  obtain ⟨hfamily, hhi, hlo⟩ : a.family = b.family ∧
      UInt8.ofNat ((UInt16.ofNat a.body.length).toNat / 256) =
        UInt8.ofNat ((UInt16.ofNat b.body.length).toNat / 256) ∧
      UInt8.ofNat ((UInt16.ofNat a.body.length).toNat % 256) =
        UInt8.ofNat ((UInt16.ofNat b.body.length).toNat % 256) := by
    simpa only [preamble, u16ToBE, append_assoc, append_cancel_left_eq,
      cons_append, nil_append, cons.injEq, and_true, true_and] using h
  refine ⟨hfamily, ?_⟩
  rw [← a.declaredLength, ← b.declaredLength, hhi, hlo]

/-- A block is determined by any string that starts with it. -/
theorem ProxyBlock.wire_append_inj {a b : ProxyBlock} {rest others : Bytes}
    (h : a.wire ++ rest = b.wire ++ others) : a = b ∧ rest = others := by
  rw [wire, wire, append_assoc, append_assoc] at h
  obtain ⟨hpreamble, htail⟩ := append_inj h rfl
  obtain ⟨hfamily, hlength⟩ := preamble_inj hpreamble
  obtain ⟨hbody, hrest⟩ := append_inj htail hlength
  refine ⟨?_, hrest⟩
  obtain ⟨_, _, _, _⟩ := a
  obtain ⟨_, _, _, _⟩ := b
  cases hfamily
  cases hbody
  rfl

theorem ProxyBlock.not_isPayload (b : ProxyBlock) (rest : Bytes) : ¬ IsPayload (b.wire ++ rest) := by
  rw [← atSignature_eq_false_iff, atSignature_wire]
  nofun

/-- The string is these blocks and a rest that does not start with one. -/
structure CutsInto (buf : Bytes) (blocks : List ProxyBlock) (rest : Bytes) : Prop where
  eq_append : buf = blocks.flatMap ProxyBlock.wire ++ rest
  payload : IsPayload rest

/-- **The blocks are unique.** -/
theorem blocks_unique {blocks others : List ProxyBlock} :
    ∀ {buf rest tail : Bytes}, CutsInto buf blocks rest → CutsInto buf others tail →
      blocks = others ∧ rest = tail := by
  induction blocks generalizing others with
  | nil =>
    intro buf rest tail hfirst hsecond
    obtain ⟨rfl, hrest⟩ := hfirst
    cases others with
    | nil => exact ⟨rfl, hsecond.eq_append⟩
    | cons b others =>
      have heq := hsecond.eq_append
      rw [flatMap_cons, append_assoc] at heq
      exact absurd (heq ▸ hrest) (b.not_isPayload _)
  | cons a blocks ih =>
    intro buf rest tail hfirst hsecond
    obtain ⟨rfl, hrest⟩ := hfirst
    obtain ⟨heq, htail⟩ := hsecond
    rw [flatMap_cons, append_assoc] at heq
    cases others with
    | nil =>
      rw [flatMap_nil, nil_append] at heq
      exact absurd (heq ▸ htail) (a.not_isPayload _)
    | cons b others =>
      rw [flatMap_cons, append_assoc] at heq
      obtain ⟨rfl, hmore⟩ := ProxyBlock.wire_append_inj heq
      obtain ⟨rfl, rfl⟩ := ih ⟨rfl, hrest⟩ ⟨hmore, htail⟩
      exact ⟨rfl, rfl⟩

/-- **The decoder accepts exactly its grammar.**  On every byte string the loop ends
after fewer rounds than there are bytes, plus one, and no access leaves the string.  It
succeeds exactly on the strings that are blocks followed by a rest that is no block; the
headers are then those of the blocks, the payload starts where the blocks end, and there
is no other way to cut the string. -/
theorem parseProxyChain_grammar (buf : Bytes) :
    (∀ rounds, buf.length < rounds → parseChainFrom rounds buf 0 [] = parseProxyChain buf) ∧
    parseProxyChain buf ≠ .error .outOfBounds ∧
    (∀ offset, 16 ≤ buf.length - offset → slice buf offset (offset + 12) ≠ .error .outOfBounds) ∧
    ((∃ c, parseProxyChain buf = .ok c) ↔ ∃ blocks rest, CutsInto buf blocks rest) ∧
    ∀ blocks rest, CutsInto buf blocks rest →
      parseProxyChain buf =
        .ok ⟨blocks.map ProxyBlock.header, (blocks.flatMap ProxyBlock.wire).length⟩ ∧
      ∀ others tail, CutsInto buf others tail → others = blocks ∧ tail = rest := by
  refine ⟨fun rounds hrounds => ?_, parseProxyChain_inBounds buf, fun offset hleft => ?_, ?_,
    fun blocks rest hchain => ⟨?_, fun others tail hother => blocks_unique hother hchain⟩⟩
  · exact parseChainFrom_fuel buf rounds (buf.length + 1) 0 [] (by omega) (by omega)
  · rw [slice_ok (by omega) (by omega)]
    nofun
  · rw [parseProxyChain_ok_iff]
    constructor <;> intro h <;> obtain ⟨blocks, rest, heq, hrest⟩ := h
    all_goals exact ⟨blocks, rest, heq, hrest⟩
  · obtain ⟨rfl, hrest⟩ := hchain
    rw [parseProxyChain_blocks, parseProxyChain_payload hrest]
    simp [ParsedProxyChain.after, Functor.map, Except.map]

end FerrumProxy
