import FerrumProxy.PongPackets

/-!
# What the rewriters change in a pong

A rewriter puts another text between the head of the packet and what follows the text.  The two
lines of the server list are tidy after normalisation: words without control characters, with single
blanks between them.
-/

namespace FerrumProxy

open Str Wire

/-! ### The packet -/

/-- The length of the text, as the packet gives it. -/
def pongStringLength (packet : Bytes) : Nat :=
  (u16FromBE (packet.getD 33 0) (packet.getD 34 0)).toNat

/-- The packet is a pong with the head and the rest of another one, in which only some of the
fields are different. -/
structure Rewritten (payload out : Bytes) (parsed rewritten : ParsedPong) (changed : Nat → Prop) :
    Prop where
  pong : parseUnconnectedPong out = some rewritten
  head : out.take 33 = payload.take 33
  size : pongStringLength out = (toUtf8 rewritten.motd).length
  tail : out.drop rewritten.stringEnd = payload.drop parsed.stringEnd
  count : rewritten.fields.length = parsed.fields.length
  others : ∀ i, ¬ changed i → rewritten.fields[i]? = parsed.fields[i]?

variable {payload out : Bytes} {parsed : ParsedPong} {changed : Nat → Prop}

open List

theorem pongStringLength_layout {head : Bytes} (hhead : head.length = 33) (size : UInt16)
    (rest : Bytes) : pongStringLength (head ++ (u16ToBE size ++ rest)) = size.toNat := by
  have hfirst : (head ++ (u16ToBE size ++ rest)).getD 33 0 = UInt8.ofNat (size.toNat / 256) := by
    rw [getD_append_right _ _ _ _ (by rw [hhead]), hhead]
    rfl
  have hsecond : (head ++ (u16ToBE size ++ rest)).getD 34 0 = UInt8.ofNat (size.toNat % 256) := by
    rw [getD_append_right _ _ _ _ (by rw [hhead]; decide), hhead]
    rfl
  rw [pongStringLength, hfirst, hsecond, u16FromBE_toBE]

/-- A rebuilt packet has the layout of the old one. -/
theorem rewritten_of_rebuild {fields : List Text}
    (hparse : parseUnconnectedPong payload = some parsed)
    (hsplit : split ';' ([';'].intercalate fields) = fields)
    (hcount : fields.length = parsed.fields.length)
    (hothers : ∀ i, ¬ changed i → fields[i]? = parsed.fields[i]?)
    (hrebuild : rebuildUnconnectedPong payload parsed ([';'].intercalate fields) = some out) :
    ∃ rewritten, Rewritten payload out parsed rewritten changed ∧ rewritten.fields = fields := by
  obtain ⟨hhead, hlong⟩ := parse_inv hparse
  unfold rebuildUnconnectedPong at hrebuild
  dsimp only at hrebuild
  split at hrebuild
  · cases hrebuild
  · next hfits =>
    cases hrebuild
    have hparsed := parse_layout hhead (Nat.le_of_not_lt hfits) (payload.drop parsed.stringEnd)
    rw [fromUtf8_toUtf8, Option.map_some] at hparsed
    have hsize : (UInt16.ofNat (toUtf8 ([';'].intercalate fields)).length).toNat =
        (toUtf8 ([';'].intercalate fields)).length :=
      UInt16.toNat_ofNat_of_lt (by simpa using Nat.lt_succ_of_le (Nat.le_of_not_lt hfits))
    refine ⟨_, ⟨hparsed, ?_, ?_, ?_, ?_, ?_⟩, hsplit⟩
    · rw [append_assoc, append_assoc]
      exact take_left' hhead.size
    · rw [append_assoc, append_assoc, pongStringLength_layout hhead.size, hsize]
    · refine drop_left' ?_
      rw [length_append, length_append, hhead.size, u16ToBE_length]
      rfl
    · rw [ParsedPong.fields, hsplit, hcount]
    · intro i hi
      rw [ParsedPong.fields, hsplit, hothers i hi]

/-! ### Ports -/

/-- The fields of a pong with the port in the port fields. -/
def ParsedPong.portFields (parsed : ParsedPong) (port : UInt16) : List Text :=
  (parsed.fields.set 10 (portText port)).set 11 (portText port)

open ParsedPong

theorem portFields_ten {port : UInt16} (hmany : 11 ≤ parsed.fields.length) :
    (parsed.portFields port)[10]? = some (portText port) := by
  rw [portFields, List.getElem?_set_ne (by decide), List.getElem?_set_self (by omega)]

theorem portFields_eleven {port : UInt16} {field : Text}
    (hfield : (parsed.portFields port)[11]? = some field) : field = portText port := by
  rw [portFields, List.getElem?_set_self'] at hfield
  cases hold : (parsed.fields.set 10 (portText port))[11]? with
  | none =>
    rw [hold] at hfield
    cases hfield
  | some old =>
    rw [hold] at hfield
    exact (Option.some.inj hfield).symm

theorem ports_rewritten {port : UInt16}
    (hout : rewriteUnconnectedPongPorts payload port = some out) :
    ∃ parsed rewritten, parseUnconnectedPong payload = some parsed ∧
      Rewritten payload out parsed rewritten (fun i => i = 10 ∨ i = 11) ∧
      rewritten.ShowsPort port ∧ rewriteUnconnectedPongPorts out port = none := by
  cases hparse : parseUnconnectedPong payload with
  | none =>
    rw [rewriteUnconnectedPongPorts, hparse] at hout
    cases hout
  | some parsed =>
    rw [rewritePorts_eq hparse] at hout
    split at hout
    · cases hout
    · next hmany =>
      split at hout
      · cases hout
      · have hsplit : split ';' ([';'].intercalate (parsed.portFields port)) =
            parsed.portFields port :=
          split_join_set (semicolon_notMem_portText port) (semicolon_notMem_portText port)
        have hothers : ∀ i, ¬ (i = 10 ∨ i = 11) →
            (parsed.portFields port)[i]? = parsed.fields[i]? := by
          intro i hi
          rw [portFields, List.getElem?_set_ne (fun h => hi (.inr h.symm)),
            List.getElem?_set_ne (fun h => hi (.inl h.symm))]
        obtain ⟨rewritten, hrewritten, hfields⟩ := rewritten_of_rebuild hparse hsplit
          (by rw [portFields, length_set, length_set]) hothers hout
        have hten : (parsed.portFields port)[10]? = some (portText port) :=
          portFields_ten (Nat.le_of_not_lt hmany)
        refine ⟨parsed, rewritten, rfl, hrewritten, ?_, ?_⟩
        · intro i field hi hfield
          rw [hfields] at hfield
          rcases hi with rfl | rfl
          · exact (Option.some.inj (hten.symm.trans hfield)).symm
          · exact portFields_eleven hfield
        · have heleven : ((parsed.portFields port)[11]?).all (· == portText port) = true := by
            rw [Option.all_eq_true]
            intro field hfield
            exact beq_iff_eq.mpr (portFields_eleven hfield)
          rw [rewritePorts_eq hrewritten.pong, hfields, hten, heleven, beq_self_eq_true,
            Bool.and_self, if_pos rfl, ite_self]

/-! ### Quotation marks around the name -/

theorem name_rewritten (hout : stripUnconnectedPongNameQuotes payload = some out) :
    ∃ parsed rewritten, parseUnconnectedPong payload = some parsed ∧
      Rewritten payload out parsed rewritten (fun i => i = 1) := by
  unfold stripUnconnectedPongNameQuotes at hout
  cases hparse : parseUnconnectedPong payload with
  | none =>
    rw [hparse] at hout
    cases hout
  | some parsed =>
    rw [hparse] at hout
    dsimp only at hout
    split at hout
    · cases hout
    · next stripped hstripped =>
      obtain ⟨name, hname, hstrip⟩ := Option.bind_eq_some_iff.mp hstripped
      have hclean : ';' ∉ stripped := fun hmem =>
        notMem_of_mem_split (mem_of_getElem? hname) (mem_of_mem_stripQuotes hstrip hmem)
      have hsplit : split ';' ([';'].intercalate (parsed.fields.set 1 stripped)) =
          parsed.fields.set 1 stripped := by
        refine split_join ?_ (fun part hpart => ?_)
        · intro hnil
          have hlength := congrArg length hnil
          rw [length_set] at hlength
          exact split_ne_nil ';' parsed.motd (length_eq_zero_iff.mp hlength)
        · rcases mem_or_eq_of_mem_set hpart with hpart | rfl
          · exact notMem_of_mem_split hpart
          · exact hclean
      obtain ⟨rewritten, hrewritten, _⟩ := rewritten_of_rebuild hparse hsplit
        (by rw [length_set])
        (fun i (hi : ¬ i = 1) => List.getElem?_set_ne (fun h => hi h.symm)) hout
      exact ⟨parsed, rewritten, rfl, hrewritten⟩

/-! ### The lines of the server list -/

/-- A line without control characters and without blanks at its ends or next to each other. -/
structure IsTidy (line : Text) : Prop where
  control : ∀ c ∈ line, isControl c = false
  start : ∀ c ∈ line.head?, isWhitespace c = false
  finish : ∀ c ∈ line.getLast?, isWhitespace c = false
  single : line.IsChain (fun c d => ¬ (isWhitespace c = true ∧ isWhitespace d = true))

/-- A word of a tidy line. -/
def IsTidyWord (word : Text) : Prop := IsWord word ∧ ∀ c ∈ word, isControl c = false

theorem isTidy_nil : IsTidy [] :=
  ⟨fun _ h => (nomatch h), fun _ h => (nomatch h), fun _ h => (nomatch h), .nil⟩

theorem isTidy_word {word : Text} (h : IsTidyWord word) : IsTidy word where
  control := h.2
  start c hc := h.1.2 c (mem_of_mem_head? hc)
  finish c hc := h.1.2 c (mem_of_getLast? hc)
  single := by
    refine List.Pairwise.isChain (pairwise_of_forall_mem_list ?_)
    intro c hc d _ hand
    rw [h.1.2 c hc] at hand
    cases hand.1

theorem isTidy_cons {word line : Text} (hword : IsTidyWord word) (hne : line ≠ [])
    (hline : IsTidy line) : IsTidy (word ++ ' ' :: line) := by
  have htidy := isTidy_word hword
  refine ⟨?_, ?_, ?_, ?_⟩
  · intro c hc
    rcases mem_append.mp hc with hc | hc
    · exact hword.2 c hc
    · rcases mem_cons.mp hc with rfl | hc
      · decide
      · exact hline.control c hc
  · intro c hc
    rw [List.head?_append_of_ne_nil _ hword.1.1] at hc
    exact htidy.start c hc
  · intro c hc
    rw [List.getLast?_append_of_ne_nil _ (cons_ne_nil _ _), List.getLast?_cons_of_ne_nil hne] at hc
    exact hline.finish c hc
  · refine List.IsChain.append htidy.single ?_ ?_
    · refine isChain_cons.mpr ⟨fun d hd hand => ?_, hline.single⟩
      rw [hline.start d hd] at hand
      cases hand.2
    · intro c hc d _ hand
      rw [htidy.finish c hc] at hand
      cases hand.1

theorem join_ne_nil {word : Text} {rest : List Text} (hword : word ≠ []) :
    [' '].intercalate (word :: rest) ≠ [] := by
  cases rest with
  | nil =>
    rw [intercalate_singleton]
    exact hword
  | cons next rest =>
    rw [intercalate_cons_cons, append_assoc]
    exact append_ne_nil_of_left_ne_nil hword _

theorem isTidy_join {words : List Text} (hwords : ∀ word ∈ words, IsTidyWord word) :
    IsTidy ([' '].intercalate words) := by
  induction words with
  | nil => exact isTidy_nil
  | cons word rest ih =>
    have hword := hwords word mem_cons_self
    have hrest := ih (fun word hword => hwords word (mem_cons_of_mem _ hword))
    cases rest with
    | nil =>
      rw [intercalate_singleton]
      exact isTidy_word hword
    | cons next rest =>
      rw [intercalate_cons_cons, append_assoc, singleton_append]
      have hnext := hwords next (mem_cons_of_mem _ mem_cons_self)
      exact isTidy_cons hword (join_ne_nil hnext.1.1) hrest

theorem sanitize_words (value : Text) :
    ∃ words, sanitizeMotdField value = [' '].intercalate words ∧
      ∀ word ∈ words, IsTidyWord word := by
  refine ⟨_, rfl, fun word hword => ⟨mem_splitWhitespace hword, fun c hc => ?_⟩⟩
  obtain ⟨ch, _, heq⟩ := List.mem_map.mp ((infix_of_mem_splitWhitespace hword).subset hc)
  split at heq
  · rw [← heq]
    decide
  · next hcontrol =>
    rw [← heq]
    exact Bool.not_eq_true _ ▸ hcontrol

theorem sanitize_isTidy (value : Text) : IsTidy (sanitizeMotdField value) := by
  obtain ⟨words, hline, hwords⟩ := sanitize_words value
  rw [hline]
  exact isTidy_join hwords

theorem trim_of_isTidy {line : Text} (h : IsTidy line) : trim line = line := by
  have hstart : line.dropWhile isWhitespace = line :=
    dropWhile_eq_self_of_head (fun c hc => by simp [h.start c hc])
  rw [trim, trimEnd, hstart]
  exact rdropWhile_eq_self_of_last (fun c hc => by simp [h.finish c hc])

theorem map_control_of_forall {line : Text} (h : ∀ c ∈ line, isControl c = false) :
    line.map (fun ch => if isControl ch then ' ' else ch) = line := by
  have hsame : ∀ c ∈ line, (if isControl c then ' ' else c) = c := fun c hc => by
    rw [h c hc]
    rfl
  rw [map_congr_left hsame, List.map_id']

/-- Both lines are tidy, and both are empty or neither is. -/
structure TidyLines (primary secondary : Text) : Prop where
  first : IsTidy primary
  second : IsTidy secondary
  both : primary = [] ↔ secondary = []

/-- Both lines are cleaned, or one of them is and stands for both. -/
theorem normalizeMotdLines_cases (primary secondary : Text) :
    ∃ first second, ((first = primary ∧ second = secondary) ∨
        (first = second ∧ (first = primary ∨ first = secondary))) ∧
      normalizeMotdLines primary secondary =
        (sanitizeMotdField first, sanitizeMotdField second) ∧
      (sanitizeMotdField first = [] ↔ sanitizeMotdField second = []) := by
  unfold normalizeMotdLines
  dsimp only
  split
  · exact ⟨secondary, secondary, .inr ⟨rfl, .inr rfl⟩, rfl, Iff.rfl⟩
  · next hfirst =>
    split
    · exact ⟨primary, primary, .inr ⟨rfl, .inl rfl⟩, rfl, Iff.rfl⟩
    · next hsecond =>
        refine ⟨primary, secondary, .inl ⟨rfl, rfl⟩, rfl, ?_⟩
        simp only [Bool.and_eq_true, List.isEmpty_iff, Bool.not_eq_true', not_and,
          isEmpty_eq_false_iff, ne_eq, not_not] at hfirst hsecond
        exact ⟨hfirst, hsecond⟩

theorem normalizeMotdLines_tidy (primary secondary : Text) :
    TidyLines (normalizeMotdLines primary secondary).1
      (normalizeMotdLines primary secondary).2 := by
  obtain ⟨first, second, _, hlines, hboth⟩ := normalizeMotdLines_cases primary secondary
  rw [hlines]
  exact ⟨sanitize_isTidy first, sanitize_isTidy second, hboth⟩

/-! ### Normalisation -/

/-- The two lines of the server list. -/
def ParsedPong.line (parsed : ParsedPong) (i : Nat) : Text := parsed.fields.getD i []

theorem normalizeMotd_eq (hparse : parseUnconnectedPong payload = some parsed)
    (hmany : 8 ≤ parsed.fields.length) :
    normalizeUnconnectedPongMotd payload =
      if normalizeMotdLines (parsed.line 1) (parsed.line 7) = (parsed.line 1, parsed.line 7) then
        none
      else rebuildUnconnectedPong payload parsed ([';'].intercalate parsed.normalizedFields) := by
  unfold normalizeUnconnectedPongMotd
  rw [hparse]
  refine (if_neg (Nat.not_lt.mpr hmany)).trans (if_congr ?_ rfl rfl)
  rw [Bool.and_eq_true, beq_iff_eq, beq_iff_eq, Prod.ext_iff]
  rfl

theorem normalizedFields_one (hmany : 8 ≤ parsed.fields.length) :
    parsed.normalizedFields.getD 1 [] =
      (normalizeMotdLines (parsed.line 1) (parsed.line 7)).1 := by
  unfold normalizedFields
  rw [List.getD_eq_getElem?_getD, List.getElem?_set_ne (by decide),
    List.getElem?_set_self (by omega)]
  rfl

theorem normalizedFields_seven (hmany : 8 ≤ parsed.fields.length) :
    parsed.normalizedFields.getD 7 [] =
      (normalizeMotdLines (parsed.line 1) (parsed.line 7)).2 := by
  unfold normalizedFields
  rw [List.getD_eq_getElem?_getD, List.getElem?_set_self (by rw [length_set]; omega)]
  rfl

/-- A normalised packet differs from the old one in the lines, which have been cleaned. -/
theorem motd_rewritten (hout : normalizeUnconnectedPongMotd payload = some out) :
    ∃ parsed rewritten, parseUnconnectedPong payload = some parsed ∧ 8 ≤ parsed.fields.length ∧
      Rewritten payload out parsed rewritten (fun i => i = 1 ∨ i = 7) ∧
      (rewritten.line 1, rewritten.line 7) =
        normalizeMotdLines (parsed.line 1) (parsed.line 7) := by
  cases hparse : parseUnconnectedPong payload with
  | none =>
    rw [normalizeUnconnectedPongMotd, hparse] at hout
    cases hout
  | some parsed =>
    have hmany : 8 ≤ parsed.fields.length := by
      by_contra hfew
      rw [normalizeUnconnectedPongMotd, hparse] at hout
      cases (if_pos (Nat.lt_of_not_le hfew)).symm.trans hout
    obtain ⟨hprimary, hsecondary⟩ := semicolon_notMem_normalizeMotdLines
      (parsed.semicolon_notMem 1) (parsed.semicolon_notMem 7)
    have hsplit : split ';' ([';'].intercalate parsed.normalizedFields) =
        parsed.normalizedFields := split_join_set hprimary hsecondary
    have hothers : ∀ i, ¬ (i = 1 ∨ i = 7) → parsed.normalizedFields[i]? = parsed.fields[i]? := by
      intro i hi
      rw [normalizedFields, List.getElem?_set_ne (fun h => hi (.inr h.symm)),
        List.getElem?_set_ne (fun h => hi (.inl h.symm))]
    obtain ⟨rewritten, hrewritten, hfields⟩ := rewritten_of_rebuild hparse hsplit
      (by rw [normalizedFields, length_set, length_set]) hothers
      (normalizeMotd_rebuilds hparse hout)
    refine ⟨parsed, rewritten, rfl, hmany, hrewritten, ?_⟩
    rw [line, line, hfields, normalizedFields_one hmany, normalizedFields_seven hmany]

/-- Each rewriter returns a pong with the head and the rest of the old one, the length of its text
in front of it, and as many fields, of which only those that it is for are different.  Ports are
rewritten once; the lines of the server list are tidy after normalisation, and also if it returns
nothing although the normalised text fits. -/
theorem pong_rewriters_change_their_fields (payload : Bytes) (port : UInt16) :
    (∀ out, rewriteUnconnectedPongPorts payload port = some out →
      ∃ parsed rewritten, parseUnconnectedPong payload = some parsed ∧
        Rewritten payload out parsed rewritten (fun i => i = 10 ∨ i = 11) ∧
        rewritten.ShowsPort port ∧ rewriteUnconnectedPongPorts out port = none) ∧
    (∀ out, stripUnconnectedPongNameQuotes payload = some out →
      ∃ parsed rewritten, parseUnconnectedPong payload = some parsed ∧
        Rewritten payload out parsed rewritten (fun i => i = 1)) ∧
    (∀ out, normalizeUnconnectedPongMotd payload = some out →
      ∃ parsed rewritten, parseUnconnectedPong payload = some parsed ∧
        Rewritten payload out parsed rewritten (fun i => i = 1 ∨ i = 7) ∧
        TidyLines (rewritten.line 1) (rewritten.line 7)) ∧
    (∀ parsed, parseUnconnectedPong payload = some parsed → 8 ≤ parsed.fields.length →
      (toUtf8 ([';'].intercalate parsed.normalizedFields)).length ≤ 65535 →
      normalizeUnconnectedPongMotd payload = none →
      TidyLines (parsed.line 1) (parsed.line 7)) := by
  refine ⟨fun out hout => ports_rewritten hout, fun out hout => name_rewritten hout, ?_, ?_⟩
  · intro out hout
    obtain ⟨parsed, rewritten, hparse, _, hrewritten, hlines⟩ := motd_rewritten hout
    have htidy := normalizeMotdLines_tidy (parsed.line 1) (parsed.line 7)
    rw [← hlines] at htidy
    exact ⟨parsed, rewritten, hparse, hrewritten, htidy⟩
  · intro parsed hparse hmany hfits hnone
    have htidy := normalizeMotdLines_tidy (parsed.line 1) (parsed.line 7)
    rw [normalizeMotd_eq hparse hmany] at hnone
    split at hnone
    · next hsame => rwa [hsame] at htidy
    · rw [rebuildUnconnectedPong, if_neg (Nat.not_lt.mpr hfits)] at hnone
      cases hnone

end FerrumProxy
