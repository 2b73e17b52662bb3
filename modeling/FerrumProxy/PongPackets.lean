import FerrumProxy.BedrockPackets
import FerrumProxy.TextLines
import FerrumProxy.Utf8Texts

/-!
# What the rewriters keep of a pong

The rewriters of unconnected pongs cut a packet into bytes and put it together again.  Here they are
described by what a reader of the packet finds in it.
-/

namespace FerrumProxy

open Str Wire List

/-! ### The layout of a pong -/

/-- The part of a pong in front of the length of its text. -/
structure IsPongHead (head : Bytes) : Prop where
  size : head.length = 33
  opcode : head.head? = some 0x1c
  magic : head.drop 17 = raknetOfflineMessageId

open List

theorem parse_layout {head text : Bytes} (hhead : IsPongHead head) (htext : text.length ≤ 65535)
    (rest : Bytes) :
    parseUnconnectedPong (head ++ u16ToBE (UInt16.ofNat text.length) ++ text ++ rest) =
      (fromUtf8 text).map (fun motd => ⟨motd, unconnectedPongStringOffset + text.length⟩) := by
  have hlength : (UInt16.ofNat text.length).toNat = text.length :=
    UInt16.toNat_ofNat_of_lt (by simpa using Nat.lt_succ_of_le htext)
  have hvalue := u16FromBE_toBE (UInt16.ofNat text.length)
  unfold u16ToBE
  generalize UInt16.ofNat text.length = size at hlength hvalue ⊢
  generalize UInt8.ofNat (size.toNat / 256) = hi at hvalue ⊢
  generalize UInt8.ofNat (size.toNat % 256) = lo at hvalue ⊢
  have hpacket : head ++ [hi, lo] ++ text ++ rest = head ++ hi :: lo :: (text ++ rest) := by simp
  rw [hpacket]
  generalize hq : head ++ hi :: lo :: (text ++ rest) = packet
  have hlong : packet.length = 35 + (text.length + rest.length) := by
    rw [← hq]
    simp only [length_append, length_cons, hhead.size]
    omega
  have hopcode : packet.head? = some 0x1c := by
    rw [← hq, head?_append, hhead.opcode, Option.some_or]
  have hmagic : (packet.drop 17).take 16 = raknetOfflineMessageId := by
    rw [← hq, drop_append_of_le_length (by rw [hhead.size]; decide), hhead.magic]
    exact take_left' rfl
  have hsize : u16FromBE (packet.getD 33 0) (packet.getD 34 0) = size := by
    rw [← hq, getD_append_right _ _ _ _ (by rw [hhead.size]),
      getD_append_right _ _ _ _ (by rw [hhead.size]; decide), hhead.size]
    exact hvalue
  have htail : packet.drop 35 = text ++ rest := by
    rw [← hq, show 35 = head.length + 2 by rw [hhead.size], drop_length_add_append]
    rfl
  unfold parseUnconnectedPong unconnectedPongStringOffset
  rw [hopcode, hmagic, hsize, hlength, hlong, htail]
  dsimp only
  rw [take_left' rfl, if_neg (by simp), if_neg (by simp), if_neg (by omega)]

variable {payload out timestamp : Bytes} {parsed : ParsedPong} {s : Text} {c : Char}

theorem parse_inv (h : parseUnconnectedPong payload = some parsed) :
    IsPongHead (payload.take 33) ∧ 35 ≤ payload.length := by
  unfold parseUnconnectedPong unconnectedPongStringOffset at h
  split at h
  · cases h
  · rename_i hhead
    split at h
    · cases h
    · rename_i hmagic
      simp only [Bool.or_eq_true, decide_eq_true_eq, bne_iff_ne, ne_eq, not_or, not_not,
        Nat.not_lt] at hhead hmagic
      refine ⟨⟨by rw [length_take]; omega, ?_, ?_⟩, hhead.1⟩
      · rw [head?_take, if_neg (by decide)]
        exact hhead.2
      · rw [drop_take]
        exact hmagic

/-- **A rebuilt pong is a pong with the new text.** -/
theorem parse_rebuild {motd : Text} (hparse : parseUnconnectedPong payload = some parsed)
    (hrebuild : rebuildUnconnectedPong payload parsed motd = some out) :
    ∃ rebuilt, parseUnconnectedPong out = some rebuilt ∧ rebuilt.motd = motd := by
  unfold rebuildUnconnectedPong at hrebuild
  dsimp only at hrebuild
  split at hrebuild <;> cases hrebuild
  next hfits =>
  rw [parse_layout (parse_inv hparse).1 (Nat.le_of_not_lt hfits), fromUtf8_toUtf8]
  exact ⟨_, rfl, rfl⟩

/-- What is read from a packet does not depend on its bytes 1 to 16. -/
theorem parse_congr {first second : Bytes} (hlength : first.length = second.length)
    (hhead : first.head? = second.head?) (hrest : first.drop 17 = second.drop 17) :
    parseUnconnectedPong first = parseUnconnectedPong second := by
  have hat : ∀ i, first.getD (17 + i) 0 = second.getD (17 + i) 0 := by
    intro i
    rw [getD_eq_getElem?_getD, getD_eq_getElem?_getD, ← getElem?_drop,
      ← getElem?_drop, hrest]
  have htail : first.drop 35 = second.drop 35 := by
    have hdrop := congrArg (drop 18) hrest
    rwa [drop_drop, drop_drop] at hdrop
  unfold parseUnconnectedPong unconnectedPongStringOffset
  rw [hlength, hhead, hrest, htail, hat 16, hat 17]

theorem parse_timestamp (hlong : 35 ≤ payload.length) (htimestamp : timestamp.length = 8) :
    parseUnconnectedPong (payload.take 1 ++ timestamp ++ payload.drop 9) =
      parseUnconnectedPong payload := by
  have hfront : (payload.take 1 ++ timestamp).length = 9 := by
    rw [length_append, length_take, htimestamp]
    omega
  apply parse_congr
  · rw [length_append, hfront, length_drop]
    omega
  · rw [append_assoc, head?_append, head?_take, if_neg (by decide)]
    cases payload with
    | nil => cases hlong
    | cons b rest => rfl
  · rw [show 17 = (payload.take 1 ++ timestamp).length + 8 by rw [hfront],
      drop_length_add_append, drop_drop, hfront]

theorem rewriteTimestamp_eq (hpong : isUnconnectedPong payload = true)
    (htimestamp : timestamp.length = 8) :
    rewriteUnconnectedPongTimestamp payload timestamp =
      some (payload.take 1 ++ timestamp ++ payload.drop 9) := by
  obtain ⟨parsed, hparse⟩ := Option.isSome_iff_exists.mp hpong
  obtain ⟨hhead, hlong⟩ := parse_inv hparse
  have hopcode := hhead.opcode
  rw [head?_take, if_neg (by decide)] at hopcode
  unfold rewriteUnconnectedPongTimestamp unconnectedPongStringOffset
  rw [if_neg]
  rw [hopcode, htimestamp, decide_eq_false (Nat.not_lt.mpr hlong)]
  decide

/-! ### The fields of a pong -/

/-- The fields of a pong's text. -/
def ParsedPong.fields (parsed : ParsedPong) : List Text := split ';' parsed.motd

/-- A port in decimal. -/
def portText (port : UInt16) : Text := (toString port.toNat).toList

/-- The text with the port in the eleventh field, and in the twelfth if there is one. -/
def ParsedPong.withPorts (parsed : ParsedPong) (port : UInt16) : Text :=
  [';'].intercalate ((parsed.fields.set 10 (portText port)).set 11 (portText port))

/-- The port fields that are there hold the port. -/
def ParsedPong.ShowsPort (parsed : ParsedPong) (port : UInt16) : Prop :=
  ∀ i field, i = 10 ∨ i = 11 → parsed.fields[i]? = some field → field = portText port

theorem semicolon_notMem_portText (port : UInt16) : ';' ∉ portText port := by
  intro hmem
  have hdigits : portText port = Nat.toDigits 10 port.toNat := by
    simp [portText, toString, Nat.repr]
  rw [hdigits] at hmem
  have hdigit := Nat.isDigit_of_mem_toDigits (by decide) (by decide) hmem
  revert hdigit
  decide

/-- The fields of a text that was put together from changed fields. -/
theorem split_join_set {sep : Char} {i j : Nat} {x y : Text} (hx : sep ∉ x) (hy : sep ∉ y) :
    split sep ([sep].intercalate (((split sep s).set i x).set j y)) =
      ((split sep s).set i x).set j y := by
  apply split_join
  · intro hnil
    have hlength := congrArg length hnil
    rw [length_set, length_set] at hlength
    exact split_ne_nil sep s (length_eq_zero_iff.mp hlength)
  · intro part hpart
    rcases mem_or_eq_of_mem_set hpart with hpart | rfl
    · rcases mem_or_eq_of_mem_set hpart with hpart | rfl
      · exact notMem_of_mem_split hpart
      · exact hx
    · exact hy

section

variable (hparse : parseUnconnectedPong payload = some parsed)

include hparse

/-- A rewriter that finds nothing to do leaves the packet. -/
theorem parse_getD {rewritten : Option Bytes} {P : ParsedPong → Prop}
    (hkept : rewritten = none → P parsed)
    (hnew : ∀ out, rewritten = some out → ∃ p, parseUnconnectedPong out = some p ∧ P p) :
    ∃ p, parseUnconnectedPong (rewritten.getD payload) = some p ∧ P p := by
  cases hrewritten : rewritten with
  | none => exact ⟨parsed, hparse, hkept hrewritten⟩
  | some out => exact hnew out hrewritten

theorem rewritePorts_eq (port : UInt16) :
    rewriteUnconnectedPongPorts payload port =
      if parsed.fields.length < 11 then none
      else if parsed.fields[10]? == some (portText port) &&
          (parsed.fields[11]?).all (· == portText port) then none
      else rebuildUnconnectedPong payload parsed (parsed.withPorts port) := by
  unfold rewriteUnconnectedPongPorts
  rw [hparse]
  rfl

/-- **Port rewriting sets the port fields.** -/
theorem rewritePorts_shows (port : UInt16) :
    ∃ rewritten,
      parseUnconnectedPong ((rewriteUnconnectedPongPorts payload port).getD payload) =
          some rewritten ∧
        rewritten.fields.length = parsed.fields.length ∧
        (11 ≤ parsed.fields.length → (toUtf8 (parsed.withPorts port)).length ≤ 65535 →
          rewritten.ShowsPort port) := by
  apply parse_getD hparse
  · intro hnone
    refine ⟨rfl, fun hmany hfits i field hi hfield => ?_⟩
    rw [rewritePorts_eq hparse, if_neg (Nat.not_lt.mpr hmany)] at hnone
    split at hnone
    · rename_i halready
      obtain ⟨hten, heleven⟩ := Bool.and_eq_true_iff.mp halready
      rcases hi with rfl | rfl
      · rw [beq_iff_eq.mp hten] at hfield
        exact (Option.some.inj hfield).symm
      · rw [hfield] at heleven
        exact beq_iff_eq.mp heleven
    · rw [rebuildUnconnectedPong, if_neg (Nat.not_lt.mpr hfits)] at hnone
      cases hnone
  · intro out hout
    rw [rewritePorts_eq hparse] at hout
    split at hout
    · cases hout
    · split at hout
      · cases hout
      · obtain ⟨rebuilt, hrebuilt, hmotd⟩ := parse_rebuild hparse hout
        have hfields : rebuilt.fields =
            (parsed.fields.set 10 (portText port)).set 11 (portText port) := by
          rw [ParsedPong.fields, hmotd]
          exact split_join_set (semicolon_notMem_portText port) (semicolon_notMem_portText port)
        refine ⟨rebuilt, hrebuilt, by rw [hfields, length_set, length_set], ?_⟩
        intro hmany _ i field hi hfield
        rw [hfields] at hfield
        rcases hi with rfl | rfl
        · rw [getElem?_set_ne (by decide), getElem?_set_self (by omega)] at hfield
          exact (Option.some.inj hfield).symm
        · rw [getElem?_set_self'] at hfield
          cases hold : (parsed.fields.set 10 (portText port))[11]? with
          | none =>
            rw [hold] at hfield
            cases hfield
          | some old =>
            rw [hold] at hfield
            exact (Option.some.inj hfield).symm

end

/-! ### The lines of the server list -/

theorem mem_of_mem_stripQuotes {inner : Text} (hstrip : stripQuotes s = some inner)
    (h : c ∈ inner) : c ∈ s := by
  unfold stripQuotes at hstrip
  split at hstrip
  · split at hstrip <;> cases hstrip
    exact mem_cons_of_mem _ (mem_of_mem_dropLast h)
  · cases hstrip

/-- Cleaning a field adds nothing but blanks. -/
theorem mem_sanitizeMotdField {value : Text} (hc : c ≠ ' ') (hmem : c ∈ sanitizeMotdField value) :
    c ∈ value := by
  rcases mem_join hmem with hblank | ⟨word, hword, hcword⟩
  · exact absurd hblank hc
  · obtain ⟨ch, hch, heq⟩ := mem_map.mp ((infix_of_mem_splitWhitespace hword).subset hcword)
    have hsame : ch = c := by
      by_cases hcontrol : isControl ch = true
      · rw [if_pos hcontrol] at heq
        exact absurd heq.symm hc
      · rwa [if_neg hcontrol] at heq
    rw [hsame] at hch
    cases hstrip : stripQuotes (trim value) with
    | none =>
      rw [hstrip] at hch
      exact (trim_isInfix value).subset hch
    | some inner =>
      rw [hstrip] at hch
      exact (trim_isInfix value).subset (mem_of_mem_stripQuotes hstrip hch)

theorem semicolon_notMem_normalizeMotdLines {primary secondary : Text} (hprimary : ';' ∉ primary)
    (hsecondary : ';' ∉ secondary) :
    ';' ∉ (normalizeMotdLines primary secondary).1 ∧
      ';' ∉ (normalizeMotdLines primary secondary).2 := by
  have hclean : ∀ {value : Text}, ';' ∉ value → ';' ∉ sanitizeMotdField value :=
    fun hvalue hmem => hvalue (mem_sanitizeMotdField (by decide) hmem)
  unfold normalizeMotdLines
  dsimp only
  split
  · exact ⟨hclean hsecondary, hclean hsecondary⟩
  · split
    · exact ⟨hclean hprimary, hclean hprimary⟩
    · exact ⟨hclean hprimary, hclean hsecondary⟩

theorem ParsedPong.semicolon_notMem (parsed : ParsedPong) (i : Nat) :
    ';' ∉ parsed.fields.getD i [] := by
  rw [getD_eq_getElem?_getD]
  cases hfield : parsed.fields[i]? with
  | none => exact not_mem_nil
  | some field => exact notMem_of_mem_split (mem_of_getElem? hfield)

/-- The fields with the lines of the server list cleaned. -/
def ParsedPong.normalizedFields (parsed : ParsedPong) : List Text :=
  let lines := normalizeMotdLines (parsed.fields.getD 1 []) (parsed.fields.getD 7 [])
  (parsed.fields.set 1 lines.1).set 7 lines.2

theorem normalizeMotd_rebuilds (hparse : parseUnconnectedPong payload = some parsed)
    (hout : normalizeUnconnectedPongMotd payload = some out) :
    rebuildUnconnectedPong payload parsed ([';'].intercalate parsed.normalizedFields) =
      some out := by
  unfold normalizeUnconnectedPongMotd at hout
  rw [hparse] at hout
  dsimp only at hout
  split at hout
  · cases hout
  · split at hout
    · cases hout
    · exact hout

/-- **Normalisation changes the lines of the server list only.** -/
theorem normalizeMotd_keeps (hparse : parseUnconnectedPong payload = some parsed) :
    ∃ normalized,
      parseUnconnectedPong ((normalizeUnconnectedPongMotd payload).getD payload) =
          some normalized ∧
        normalized.fields.length = parsed.fields.length ∧
        ∀ i, i ≠ 1 → i ≠ 7 → normalized.fields[i]? = parsed.fields[i]? := by
  apply parse_getD hparse
  · intro _
    exact ⟨rfl, fun _ _ _ => rfl⟩
  · intro out hout
    obtain ⟨rebuilt, hrebuilt, hmotd⟩ := parse_rebuild hparse (normalizeMotd_rebuilds hparse hout)
    obtain ⟨hprimary, hsecondary⟩ := semicolon_notMem_normalizeMotdLines
      (parsed.semicolon_notMem 1) (parsed.semicolon_notMem 7)
    have hfields : rebuilt.fields = parsed.normalizedFields := by
      rw [ParsedPong.fields, hmotd]
      exact split_join_set hprimary hsecondary
    refine ⟨rebuilt, hrebuilt, ?_, fun i hone hseven => ?_⟩
    · rw [hfields, ParsedPong.normalizedFields, length_set, length_set]
    · rw [hfields, ParsedPong.normalizedFields, getElem?_set_ne hseven.symm,
        getElem?_set_ne hone.symm]

end FerrumProxy
