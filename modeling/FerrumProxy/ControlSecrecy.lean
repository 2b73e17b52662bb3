import FerrumProxy.ControlPort

/-!
# What the control port tells about stored tokens

Two relays that differ in the tokens of their allocations only are sent the same requests, none of
which contains one of these tokens.  Every handler but that of `LIST` answers the same in both: they
look at ports, addresses and counters, and compare tokens for equality only.
-/

namespace FerrumProxy

open Str Runs Wire Option

/-! ## Pairs of tokens -/

/-- A renaming of tokens: which text of the first relay corresponds to which text of
the second.  Tokens are words, since `CONNECT` takes them from a word. -/
structure TokenPairs where
  Pair : Text → Text → Prop
  left_unique : ∀ {a b c}, Pair a b → Pair a c → b = c
  right_unique : ∀ {a b c}, Pair a c → Pair b c → a = b
  word : ∀ {a b}, Pair a b → IsWord a ∧ IsWord b

namespace TokenPairs

variable (pairs : TokenPairs)

/-- The text is none of the renamed ones. -/
def Public (text : Text) : Prop :=
  (∀ other, ¬ pairs.Pair text other) ∧ ∀ other, ¬ pairs.Pair other text

def Related (first second : Text) : Prop :=
  pairs.Pair first second ∨ first = second ∧ pairs.Public first

/-- The text contains none of the renamed tokens. -/
def Avoids (text : Text) : Prop :=
  ∀ a b, pairs.Pair a b → ¬ a <:+: text ∧ ¬ b <:+: text

variable {pairs} {a b c d : Text}

theorem Avoids.public (h : pairs.Avoids c) (hsublist : a <:+: c) : pairs.Public a :=
  ⟨fun b hpair => (h a b hpair).1 hsublist, fun b hpair => (h b a hpair).2 hsublist⟩

/-- Related tokens are equal or different together. -/
theorem Related.eq_iff (hab : pairs.Related a b) (hcd : pairs.Related c d) : a = c ↔ b = d := by
  rcases hab with hab | ⟨rfl, hpublic⟩ <;> rcases hcd with hcd | ⟨rfl, hpublic'⟩
  · constructor
    · intro h
      exact pairs.left_unique hab (h ▸ hcd)
    · intro h
      exact pairs.right_unique hab (h ▸ hcd)
  · constructor
    · intro h
      exact absurd (h ▸ hab) (hpublic'.1 b)
    · intro h
      exact absurd (h ▸ hab) (hpublic'.2 a)
  · constructor
    · intro h
      exact absurd (h ▸ hcd) (hpublic.1 d)
    · intro h
      exact absurd (h ▸ hcd) (hpublic.2 c)
  · exact Iff.rfl

theorem Related.eq_nil_iff (hab : pairs.Related a b) : a = [] ↔ b = [] := by
  rcases hab with hpair | ⟨rfl, _⟩
  · exact iff_of_false (pairs.word hpair).1.1 (pairs.word hpair).2.1
  · exact Iff.rfl

end TokenPairs

/-! ## Related states -/

open RelayQueue

open List Option

section Twins

variable (pairs : TokenPairs)

/-- Allocations that differ in their tokens only. -/
def PortAllocation.Twin (first second : PortAllocation) : Prop :=
  ∃ token, second = { first with token := token } ∧ Rel pairs.Related first.token token

def ConnectHandler.Twin (first second : ConnectHandler) : Prop :=
  ∃ token, second = { first with token := token } ∧ Rel pairs.Related first.token token

def RelayQueue.Twin (first second : RelayQueue) : Prop :=
  ∃ portAllocations handlers,
    second = { first with portAllocations := portAllocations, handlers := handlers } ∧
    Matched (PortAllocation.Twin pairs) first.portAllocations portAllocations ∧
    Matched (ConnectHandler.Twin pairs) first.handlers handlers

/-- **Relays that differ in the texts of tokens only**: same ports, same clients, same
pattern of equality. -/
def ControlRelay.Twin (first second : ControlRelay) : Prop :=
  ∃ queue, second = { first with queue := queue } ∧ first.queue.Twin pairs queue

/-- Both relays refuse, or they go to related states with the same output. -/
abbrev AnsweredAlike (first second : Option (ControlRelay × List ControlResponse)) : Prop :=
  Rel (fun a b => a.1.Twin pairs b.1 ∧ a.2 = b.2) first second

/-- No renamed token is allocated, unless it stands for itself. -/
def PortAllocations.Unrenamed (portAllocations : PortAllocations) : Prop :=
  ∀ port allocation token other, portAllocations.lookup port = some allocation →
    allocation.token = some token → pairs.Pair token other → token = other

variable {pairs}

theorem rel_isSome {first second : Option Text} (h : Rel pairs.Related first second) :
    second.isSome = first.isSome := by
  cases h <;> rfl

/-! ### Allocations -/

section Allocations

variable {first second : PortAllocations}

variable {token token' : Option Text}

theorem tokenHeld_twin (h : Matched (PortAllocation.Twin pairs) first second)
    (htoken : Rel pairs.Related token token') :
    tokenHeld second token' = tokenHeld first token := by
  rw [Bool.eq_iff_iff, tokenHeld_iff, tokenHeld_iff]
  cases htoken with
  | none => simp
  | @some value value' hvalue =>
    constructor
    · intro ⟨_, p, allocation, heq, hne, hlookup, htoken⟩
      cases heq
      obtain ⟨old, hold, _, rfl, hrel⟩ := h.exists_left hlookup
      subst htoken
      generalize hheld : old.token = held at hrel
      cases hrel with
      | some hrel =>
        rw [(hrel.eq_iff hvalue).mpr rfl] at hheld
        exact ⟨value, p, old, rfl, mt hvalue.eq_nil_iff.mp hne, hold, hheld⟩
    · intro ⟨_, p, allocation, heq, hne, hlookup, htoken⟩
      cases heq
      obtain ⟨_, hnew, held, rfl, hrel⟩ := h.exists_right hlookup
      rw [htoken] at hrel
      cases hrel with
      | some hrel =>
        rw [(hvalue.eq_iff hrel).mp rfl]
        exact ⟨_, p, _, rfl, mt hrel.eq_nil_iff.mpr hne, hnew, rfl⟩

/-- The same port is given or refused on both sides. -/
theorem tryAllocatePort_twin (h : Matched (PortAllocation.Twin pairs) first second)
    (htoken : Rel pairs.Related token token') (range : SharedServicePortRange)
    (mixed : Nat) (clientAddr : SocketAddr) (fixedPort : Option Port) :
    ∃ result first' second',
      tryAllocatePort range mixed first token clientAddr fixedPort = (result, first') ∧
      tryAllocatePort range mixed second token' clientAddr fixedPort = (result, second') ∧
      Matched (PortAllocation.Twin pairs) first' second' := by
  have hgiven : ∀ p, Matched (PortAllocation.Twin pairs) (first.insert p ⟨p, token, clientAddr⟩)
      (second.insert p ⟨p, token', clientAddr⟩) :=
    fun p => h.insert ⟨token', rfl, htoken⟩
  unfold tryAllocatePort
  rw [tokenHeld_twin h htoken]
  by_cases hheld : tokenHeld first token = true
  · exact ⟨.tokenInUse, first, second, if_pos hheld, if_pos hheld, h⟩
  · rw [if_neg hheld, if_neg hheld]
    cases fixedPort with
    | some candidate =>
      dsimp only
      rw [h.isNone_eq]
      by_cases hrange : (candidate < range.start || range.finish < candidate) = true
      · exact ⟨.full, first, second, if_pos hrange, if_pos hrange, h⟩
      · rw [if_neg hrange, if_neg hrange]
        by_cases hfree : (second.lookup candidate).isNone = true
        · exact ⟨.allocated candidate, _, _, if_pos hfree, if_pos hfree, hgiven candidate⟩
        · exact ⟨.full, first, second, if_neg hfree, if_neg hfree, h⟩
    | none =>
      simp only [h.isNone_eq]
      cases (portCandidates range mixed).find?
          (fun candidate => (second.lookup candidate).isNone) with
      | none => exact ⟨.full, first, second, rfl, rfl, h⟩
      | some candidate => exact ⟨.allocated candidate, _, _, rfl, rfl, hgiven candidate⟩

end Allocations

/-! ### The queue -/

/-- A request that arrives presents a token that is not renamed. -/
def QueueAction.IsPublic (pairs : TokenPairs) : QueueAction → Prop
  | .connect _ token _ _ => Rel pairs.Related token token
  | _ => True

variable {token : Option Text} {id : Nat} {action : QueueAction} {order : List Port}
  {request : Text} {clientAddr : SocketAddr} {moment : ControlMoment}

theorem rel_public (h : ∀ value, token = some value → pairs.Public value) :
    Rel pairs.Related token token := by
  cases token with
  | none => exact .none
  | some value => exact .some (.inr ⟨rfl, h value rfl⟩)

namespace RelayQueue.Twin

variable {first second : RelayQueue} {config : SharedServiceConfig}

section

variable (h : first.Twin pairs second)

include h

theorem notifyOne : first.notifyOne.Twin pairs second.notifyOne := by
  obtain ⟨portAllocations, handlers, rfl, hallocations, hhandlers⟩ := h
  unfold notifyOne
  cases first.waiters with
  | nil => exact ⟨_, _, rfl, hallocations, hhandlers⟩
  | cons id rest =>
    refine ⟨_, _, rfl, hallocations, ?_⟩
    dsimp only
    rcases hhandlers.lookup_cases id with ⟨hfirst, hsecond⟩ | ⟨a, b, hfirst, hsecond, hab⟩
    · rw [hfirst, hsecond]
      exact hhandlers
    · rw [hfirst, hsecond]
      obtain ⟨token, rfl, htoken⟩ := hab
      exact hhandlers.insert ⟨token, rfl, htoken⟩

/-- **Related queues take the same steps.** -/
theorem step (hpublic : action.IsPublic pairs) :
    Rel (Twin pairs) (first.step config action) (second.step config action) := by
  have hnotified := h.notifyOne
  obtain ⟨portAllocations, handlers, rfl, hallocations, hhandlers⟩ := h
  cases action with
  | connect id token clientAddr fixedPort =>
    simp only [RelayQueue.step, hhandlers.isSome_eq id]
    split
    · exact .none
    · exact .some ⟨_, _, rfl, hallocations, hhandlers.insert ⟨token, rfl, hpublic⟩⟩
  | tryAllocate id mixed =>
    rcases hhandlers.lookup_cases id with ⟨hfirst, hsecond⟩ |
      ⟨a, b, hfirst, hsecond, token, rfl, htoken⟩
    · simp only [RelayQueue.step, hfirst, hsecond]
      exact .none
    · obtain ⟨result, allocations, allocations', hleft, hright, hmatched⟩ :=
        tryAllocatePort_twin hallocations htoken config.portRange mixed a.clientAddr a.fixedPort
      simp only [RelayQueue.step, hfirst, hsecond, hleft, hright]
      split
      · exact .none
      · cases result with
        | allocated port =>
          exact .some ⟨_, _, rfl, hmatched, hhandlers.insert ⟨token, rfl, htoken⟩⟩
        | tokenInUse | full =>
          exact .some ⟨_, _, rfl, hallocations, hhandlers.insert ⟨token, rfl, htoken⟩⟩
  | enqueue id | poll id | leave id =>
    rcases hhandlers.lookup_cases id with ⟨hfirst, hsecond⟩ |
      ⟨a, b, hfirst, hsecond, token, rfl, htoken⟩
    · simp only [RelayQueue.step, hfirst, hsecond]
      exact .none
    · simp only [RelayQueue.step, hfirst, hsecond, rel_isSome htoken, decrementWaitingCounter]
      -- both sides look at the same conditions
      repeat' split
      all_goals first
        | exact .none
        | exact .some ⟨_, _, rfl, hallocations, hhandlers.insert ⟨token, rfl, htoken⟩⟩
  | release port =>
    simp only [RelayQueue.step, hallocations.isNone_eq port]
    split
    · exact .some ⟨_, _, rfl, hallocations, hhandlers⟩
    · exact .some ⟨_, _, rfl, hallocations.erase, hhandlers⟩
  | releaseNotify =>
    obtain ⟨_, _, heq, hallocations, hhandlers⟩ := hnotified
    simp only [RelayQueue.step]
    split
    · exact .none
    · exact .some ⟨_, _, by rw [heq], hallocations, hhandlers⟩
  | cleanUpNotify => exact .some hnotified

end

end RelayQueue.Twin

/-! ### The list -/

section Listing

variable {Document : Type} {env : ControlEnv Document} {first second : PortAllocations}

theorem intercalate_concat (sep : Char) {lines : List Text} (hne : lines ≠ []) :
    [sep].intercalate lines ++ [sep] = lines.flatMap (· ++ [sep]) := by
  induction lines with
  | nil => exact absurd rfl hne
  | cons line rest ih =>
    cases rest with
    | nil => simp [intercalate]
    | cons next rest =>
      have hrest := ih (cons_ne_nil next rest)
      rw [flatMap_cons, ← hrest, intercalate_cons_cons]
      simp

/-- Two lines with the same port and client differ if their tokens do. -/
theorem allocationLine_append_inj {port : Port} {a b : PortAllocation} {x y : Text}
    (htwin : a.Twin pairs b)
    (h : allocationLine env port a ++ x = allocationLine env port b ++ y) : a = b ∧ x = y := by
  obtain ⟨token, rfl, hrel⟩ := htwin
  obtain ⟨p, held, clientAddr⟩ := a
  have hblank : " client=".toList = ' ' :: "client=".toList := rfl
  simp only [allocationLine, append_assoc] at h
  rw [hblank] at h
  have hafter := append_cancel_left h
  have hsame : ∀ {value : Text}, value ++ (' ' :: "client=".toList ++
        (env.displayAddr clientAddr ++ x)) =
      value ++ (' ' :: "client=".toList ++ (env.displayAddr clientAddr ++ y)) → x = y := by
    intro value heq
    exact append_cancel_left (append_cancel_left (append_cancel_left heq))
  cases hrel with
  | none => exact ⟨rfl, hsame hafter⟩
  | @some value value' hrelated =>
    have hvalue : value = value' := by
      rcases hrelated with hpair | ⟨heq, _⟩
      · obtain ⟨⟨_, hfirst⟩, ⟨_, hsecond⟩⟩ := pairs.word hpair
        have hnotin : ∀ {w : Text}, (∀ c ∈ w, isWhitespace c = false) → ' ' ∉ w :=
          fun hw hmem => absurd (hw ' ' hmem) (by decide)
        have hsplit := splitOnce_append (hnotin hfirst) ("client=".toList ++
          (env.displayAddr clientAddr ++ x))
        have hsplit' := splitOnce_append (hnotin hsecond) ("client=".toList ++
          (env.displayAddr clientAddr ++ y))
        have hcut := hsplit.symm.trans ((congrArg (splitOnce ' ') hafter).trans hsplit')
        exact congrArg Prod.fst (some.inj hcut)
      · exact heq
    subst hvalue
    exact ⟨rfl, hsame hafter⟩

section

variable (h : Matched (PortAllocation.Twin pairs) first second)

include h

theorem lookup_eq_of_lines
    (heq : (allocationLines env first order).flatMap (· ++ ['\n']) =
      (allocationLines env second order).flatMap (· ++ ['\n'])) :
    ∀ port ∈ order, first.lookup port = second.lookup port := by
  induction order with
  | nil => exact fun _ hport => absurd hport not_mem_nil
  | cons port rest ih =>
    unfold allocationLines at heq ih
    rcases h.lookup_cases port with ⟨hfirst, hsecond⟩ | ⟨a, b, hfirst, hsecond, hab⟩
    · rw [filterMap_cons, filterMap_cons, hfirst, hsecond] at heq
      exact forall_mem_cons.mpr ⟨by rw [hfirst, hsecond], ih heq⟩
    · rw [filterMap_cons, filterMap_cons, hfirst, hsecond] at heq
      simp only [map_some, flatMap_cons, append_assoc] at heq
      obtain ⟨rfl, hrest⟩ := allocationLine_append_inj hab heq
      exact forall_mem_cons.mpr ⟨by rw [hfirst, hsecond], ih (append_cancel_left hrest)⟩

/-- Related allocations are the same if no renamed token is among them. -/
theorem unrenamed_iff : first.Unrenamed pairs ↔ ∀ port, first.lookup port = second.lookup port := by
  constructor
  · intro hunrenamed port
    rcases h.lookup_cases port with ⟨hfirst, hsecond⟩ | ⟨a, b, hfirst, hsecond, token, rfl, hrel⟩
    · rw [hfirst, hsecond]
    · have htoken : a.token = token := by
        generalize hheld : a.token = held at hrel
        cases hrel with
        | none => rfl
        | some hrelated =>
          rcases hrelated with hpair | ⟨heq, _⟩
          · rw [hunrenamed port a _ _ hfirst hheld hpair]
          · rw [heq]
      rw [hfirst, hsecond, ← htoken]
  · intro hsame port allocation token other hlookup htoken hpair
    obtain ⟨b, hb, token', rfl, hrel⟩ := h.exists_right hlookup
    have heq := some.inj (hb.symm.trans ((hsame port).symm.trans hlookup))
    have hheld : token' = allocation.token := congrArg PortAllocation.token heq
    rw [hheld, htoken] at hrel
    cases hrel with
    | some hrelated =>
      rcases hrelated with hself | ⟨_, hpublic⟩
      · exact pairs.left_unique hself hpair
      · exact absurd hpair (hpublic.1 other)

/-- **The list tells related allocations apart if and only if they differ.** -/
theorem handleListAllocations_eq_iff (horder : order.Perm first.keys) :
    handleListAllocations env first order = handleListAllocations env second order ↔
      first.Unrenamed pairs := by
  rw [unrenamed_iff h]
  have hempty : second.entries.isEmpty = first.entries.isEmpty := by
    rw [Bool.eq_iff_iff, isEmpty_iff_length_eq_zero, isEmpty_iff_length_eq_zero, h.length_eq]
  unfold handleListAllocations
  rw [hempty, ← h.length_eq]
  constructor
  · intro htexts port
    rcases h.lookup_cases port with ⟨hfirst, hsecond⟩ | ⟨a, b, hfirst, hsecond, _⟩
    · rw [hfirst, hsecond]
    · have hport : port ∈ order := by
        rw [horder.mem_iff, ← AList.mem_keys, ← AList.lookup_isSome, hfirst]
        rfl
      have hlines : ∀ {portAllocations : PortAllocations} {allocation : PortAllocation},
          portAllocations.lookup port = some allocation →
            allocationLines env portAllocations order ≠ [] := by
        intro portAllocations allocation hlookup
        have hline : allocationLine env port allocation ∈ allocationLines env portAllocations order :=
          mem_filterMap.mpr ⟨port, hport, by rw [hlookup, map_some]⟩
        exact ne_nil_of_mem hline
      have hnonempty : ¬ first.entries.isEmpty = true := by
        intro hnil
        have hmem := AList.mem_lookup_iff.mp hfirst
        rw [List.isEmpty_iff.mp hnil] at hmem
        cases hmem
      rw [if_neg hnonempty, if_neg hnonempty, append_assoc, append_assoc,
        intercalate_concat '\n' (hlines hfirst), intercalate_concat '\n' (hlines hsecond)] at htexts
      exact lookup_eq_of_lines h (append_cancel_left htexts) port hport
  · intro hsame
    simp only [allocationLines, hsame]

end

end Listing

/-! ### Requests -/

namespace ControlRelay.Twin

variable {Document : Type} {env : ControlEnv Document} {config : SharedServiceConfig}
  {first second first' : ControlRelay} {out : List ControlResponse}

section

variable (h : first.Twin pairs second)

include h

theorem isAllocated_eq (port : Port) : second.isAllocated port = first.isAllocated port := by
  obtain ⟨_, rfl, _, _, rfl, hallocations, _⟩ := h
  exact (hallocations.isSome_eq port).symm

theorem handleTunnel (id : Nat) (request : Text) (task : Port → Bool → ControlTask) :
    (first.handleTunnel id request task).Twin pairs (second.handleTunnel id request task) := by
  unfold ControlRelay.handleTunnel
  split
  · rename_i port haproxy _
    rw [h.isAllocated_eq]
    split
    · obtain ⟨queue, rfl, hqueue⟩ := h
      exact ⟨queue, rfl, hqueue⟩
    · exact h
  · exact h

theorem handleRelease : AnsweredAlike pairs (first.handleRelease config id request)
    (second.handleRelease config id request) := by
  unfold ControlRelay.handleRelease
  simp only [h.isAllocated_eq]
  split
  · split
    · exact .some ⟨h, rfl⟩
    split
    · obtain ⟨_, rfl, hqueue⟩ := h
      exact rel_map (hqueue.step trivial) (fun _ queue htwin => ⟨⟨queue, rfl, htwin⟩, rfl⟩)
    split <;> exact .some ⟨h, rfl⟩
  · exact .some ⟨h, rfl⟩

/-- Every request but `LIST` is answered alike. -/
theorem handleRequest (havoids : pairs.Avoids request) (hlist : controlCommand request ≠ .list) :
    AnsweredAlike pairs (first.handleRequest env config id clientAddr request moment)
      (second.handleRequest env config id clientAddr request moment) := by
  unfold ControlRelay.handleRequest
  cases hcommand : controlCommand request with
  | list => exact absurd hcommand hlist
  | tunnel | udpTunnel => exact .some ⟨h.handleTunnel id request _, rfl⟩
  | connect =>
    dsimp only
    split
    · exact .some ⟨h, rfl⟩
    · rename_i admitted hadmitted
      have hpublic : Rel pairs.Related admitted.token admitted.token :=
        rel_public (fun value hvalue => havoids.public (handleConnect_token hadmitted hvalue).2)
      obtain ⟨_, rfl, hqueue⟩ := h
      exact rel_map (hqueue.step hpublic) (fun _ queue htwin => ⟨⟨queue, rfl, htwin⟩, rfl⟩)
  | release => exact h.handleRelease
  | stats | hostMetrics =>
    refine .some ⟨h, ?_⟩
    obtain ⟨_, rfl, _, _, rfl, hallocations, _⟩ := h
    dsimp only [handleStats, handleHostMetrics]
    rw [hallocations.length_eq]
  | udp | token | ping | unknown => exact .some ⟨h, rfl⟩

theorem proceedTask (task : ControlTask) : AnsweredAlike pairs (first.proceedTask config id task)
    (second.proceedTask config id task) := by
  obtain ⟨queue, rfl, hqueue⟩ := h
  cases task with
  | tunnelChecked port haproxy => exact .some ⟨⟨queue, rfl, hqueue⟩, rfl⟩
  | udpTunnelChecked port =>
    dsimp only [ControlRelay.proceedTask]
    split <;> exact .some ⟨⟨queue, rfl, hqueue⟩, rfl⟩
  | releaseRemoved port =>
    exact rel_map (hqueue.step trivial) (fun _ queue htwin => ⟨⟨queue, rfl, htwin⟩, rfl⟩)

end

end ControlRelay.Twin

end Twins

/-! ## Two relays -/

section Secrecy

variable {Document : Type} (env : ControlEnv Document) (config : SharedServiceConfig)
  (pairs : TokenPairs)

/-- A request, as the relay reads it, contains none of the renamed tokens. -/
def ControlAction.Avoids : ControlAction → Prop
  | .request _ _ received _ => pairs.Avoids (fromUtf8Lossy received)
  | _ => True

/-- A `LIST` finds none of the renamed tokens allocated. -/
def ControlAction.Unlisted (s : ControlRelay) : ControlAction → Prop
  | .request _ _ received _ =>
    controlCommand (trim (fromUtf8Lossy received)) = .list →
      s.queue.portAllocations.Unrenamed pairs
  | _ => True

variable {env config pairs}

theorem TokenPairs.Avoids.trim {text : Text} (h : pairs.Avoids text) :
    pairs.Avoids (Str.trim text) := by
  intro a b hpair
  exact ⟨fun hsublist => (h a b hpair).1 (hsublist.trans (trim_isInfix text)),
    fun hsublist => (h a b hpair).2 (hsublist.trans (trim_isInfix text))⟩

variable {id : Nat} {clientAddr : SocketAddr} {request : Text} {moment : ControlMoment}

/-- The `LIST` request. -/
theorem handleRequest_list {first second first' : ControlRelay} {out : List ControlResponse}
    (h : first.Twin pairs second) (hlist : controlCommand request = .list)
    (hstep : first.handleRequest env config id clientAddr request moment = some (first', out)) :
    ∃ second' out',
      second.handleRequest env config id clientAddr request moment = some (second', out') ∧
      first'.Twin pairs second' ∧ out.length = out'.length ∧
      (out = out' ↔ first.queue.portAllocations.Unrenamed pairs) := by
  unfold ControlRelay.handleRequest at hstep ⊢
  simp only [hlist] at hstep ⊢
  split at hstep <;> cases hstep
  next horder =>
  obtain ⟨_, rfl, portAllocations, handlers, rfl, hallocations, hhandlers⟩ := h
  have hperm := isPerm_iff.mp horder
  have horder' : moment.order.isPerm portAllocations.keys = true :=
    isPerm_iff.mpr (hperm.trans hallocations.keys_perm)
  refine ⟨_, _, if_pos horder', ⟨_, rfl, _, _, rfl, hallocations, hhandlers⟩, rfl, ?_⟩
  have htexts : handleListAllocations env first.queue.portAllocations moment.order =
      handleListAllocations env portAllocations moment.order ↔
        first.queue.portAllocations.Unrenamed pairs :=
    handleListAllocations_eq_iff hallocations hperm
  rw [← htexts]
  simp

/-- **Related relays answer alike, except to a `LIST` that shows a renamed token.** -/
theorem exchange_lockstep : Lockstep (ControlRelay.exchange env config) (ControlRelay.Twin pairs)
    (ControlAction.Avoids pairs) (ControlAction.Unlisted pairs) := by
  intro first second action first' out h havoids hstep
  -- Every case but `LIST` ends with the same output on both sides.
  have hsame : AnsweredAlike pairs (first.exchange env config action)
      (second.exchange env config action) → action.Unlisted pairs first →
      ∃ second' out', second.exchange env config action = some (second', out') ∧
        first'.Twin pairs second' ∧ out.length = out'.length ∧
        (out = out' ↔ action.Unlisted pairs first) := by
    intro halike hunlisted
    rw [hstep] at halike
    generalize second.exchange env config action = result at halike ⊢
    cases halike with
    | @some _ next hnext =>
      exact ⟨_, _, rfl, hnext.1, congrArg List.length hnext.2, iff_of_true hnext.2 hunlisted⟩
  cases action with
  | request id clientAddr received moment =>
    have hbusy : ((second.queue.handlers.lookup id).isSome || (second.tasks.lookup id).isSome) =
        ((first.queue.handlers.lookup id).isSome || (first.tasks.lookup id).isSome) := by
      obtain ⟨_, rfl, _, _, rfl, _, hhandlers⟩ := h
      rw [hhandlers.isSome_eq]
    by_cases hlist : controlCommand (trim (fromUtf8Lossy received)) = .list
    · have hreceived : ¬ received.isEmpty = true := fun hempty => by
        rw [List.isEmpty_iff.mp hempty] at hlist
        exact absurd hlist (by decide)
      dsimp only [ControlRelay.exchange] at hstep ⊢
      rw [if_neg hreceived] at hstep ⊢
      rw [hbusy]
      split at hstep
      · cases hstep
      · rename_i hidle
        rw [if_neg hidle]
        obtain ⟨second', out', hstep', htwin, hlength, hiff⟩ := handleRequest_list h hlist hstep
        exact ⟨second', out', hstep', htwin, hlength,
          hiff.trans ⟨fun hunrenamed _ => hunrenamed, fun hunlisted => hunlisted hlist⟩⟩
    · refine hsame ?_ (fun h => absurd h hlist)
      dsimp only [ControlRelay.exchange]
      rw [hbusy]
      split
      · exact .none
      split
      · exact .some ⟨h, rfl⟩
      · exact h.handleRequest havoids.trim hlist
  | proceed id =>
    refine hsame ?_ trivial
    obtain ⟨queue, rfl, hqueue⟩ := h
    have htwin : { first with tasks := first.tasks.drop id }.Twin pairs
        { first with queue := queue, tasks := first.tasks.drop id } := ⟨queue, rfl, hqueue⟩
    dsimp only [ControlRelay.exchange]
    cases first.tasks.lookup id with
    | none => exact .none
    | some task => exact htwin.proceedTask task
  | queued action =>
    refine hsame ?_ trivial
    dsimp only [ControlRelay.exchange]
    split
    · rename_i hinternal
      have hpublic : action.IsPublic pairs := by
        cases action with
        | connect => cases hinternal
        | _ => trivial
      obtain ⟨_, rfl, hqueue⟩ := h
      exact rel_map (hqueue.step hpublic) (fun _ queue htwin => ⟨⟨queue, rfl, htwin⟩, rfl⟩)
    · exact .none
  | answer id =>
    refine hsame ?_ trivial
    obtain ⟨_, rfl, portAllocations, handlers, rfl, hallocations, hhandlers⟩ := h
    dsimp only [ControlRelay.exchange]
    rcases hhandlers.lookup_cases id with ⟨hfirst, hsecond⟩ |
      ⟨a, b, hfirst, hsecond, token, rfl, htoken⟩
    · rw [hfirst, hsecond]
      exact .none
    · rw [hfirst, hsecond, bind_some, bind_some]
      dsimp only
      split
      · exact .some ⟨⟨_, rfl, _, _, rfl, hallocations, hhandlers.erase⟩, rfl⟩
      · exact .none
  | tunnelTaken | udpTunnelEnded =>
    refine hsame ?_ trivial
    obtain ⟨queue, rfl, hqueue⟩ := h
    dsimp only [ControlRelay.exchange]
    split
    · exact .some ⟨⟨queue, rfl, hqueue⟩, rfl⟩
    · exact .none
  | udpBound port =>
    obtain ⟨queue, rfl, hqueue⟩ := h
    exact hsame (.some ⟨⟨queue, rfl, hqueue⟩, rfl⟩) trivial
  | udpReleased port =>
    refine hsame ?_ trivial
    dsimp only [ControlRelay.exchange]
    rw [h.isAllocated_eq]
    obtain ⟨queue, rfl, hqueue⟩ := h
    split
    · exact .none
    · exact .some ⟨⟨_, rfl, hqueue.notifyOne⟩, rfl⟩

/-- **What the control port discloses.**  Two relays that differ in the texts of their
tokens only are sent the same requests, which contain none of these texts.  They
answer them all, and the responses are the same exactly if no `LIST` comes while a token
that differs is allocated. -/
theorem responses_same_iff {first second : ControlRelay} (htwin : first.Twin pairs second)
    {actions : List ControlAction} (havoids : ∀ action ∈ actions, action.Avoids pairs)
    {responses : List ControlResponse}
    (hrun : transcript (ControlRelay.exchange env config) first actions = some responses) :
    ∃ responses', transcript (ControlRelay.exchange env config) second actions = some responses' ∧
      (responses = responses' ↔ Guarded (silent (ControlRelay.exchange env config))
        (ControlAction.Unlisted pairs) first actions) :=
  transcript_eq_iff exchange_lockstep htwin havoids hrun

end Secrecy

/-! ### One allocation -/

/-- A relay on configurations as files, with plain texts for addresses. -/
def plainControlEnv : ControlEnv ProxyConfig where
  yaml := plainYaml
  url := oneUrl
  defaultConfigText := { listeners := [] }
  hashToken token salt := token ++ salt
  parseRfc3339 _ := none
  displayAddr addr := s!"client:{addr.port.toNat}".toList
  displayIp _ := "client".toList

/-- `alpha` in one relay is `bravo` in the other. -/
def alphaBravo : TokenPairs where
  Pair a b := a = "alpha".toList ∧ b = "bravo".toList
  left_unique hab hac := hab.2.trans hac.2.symm
  right_unique hac hbc := hac.1.trans hbc.1.symm
  word := by
    intro a b h
    rw [h.1, h.2]
    simp [IsWord, isWhitespace]

/-- One port is allocated with the given token. -/
def oneAllocation (token : String) : ControlRelay where
  queue :=
    { portAllocations := AList.insert 40000
        ⟨40000, some token.toList, ⟨.v4 ⟨[10, 0, 0, 1], rfl⟩, 50000⟩⟩ ∅ }

theorem oneAllocation_twin : (oneAllocation "alpha").Twin alphaBravo (oneAllocation "bravo") := by
  refine ⟨_, rfl, _, _, rfl, Matched.insert (fun _ => .none) ?_, fun _ => .none⟩
  exact ⟨_, rfl, .some (.inl ⟨rfl, rfl⟩)⟩

/-- A client sends the given line. -/
def sends (line : String) (moment : ControlMoment) : ControlAction :=
  .request 0 ⟨.v4 ⟨[10, 0, 0, 2], rfl⟩, 50001⟩ (toUtf8 line.toList) moment

/-- `STATS` is answered alike. -/
theorem responses_same_iff_stats :
    ∃ responses, transcript (ControlRelay.exchange plainControlEnv {}) (oneAllocation "alpha")
        [sends "STATS\n" {}] = some responses ∧
      ∃ responses', transcript (ControlRelay.exchange plainControlEnv {}) (oneAllocation "bravo")
          [sends "STATS\n" {}] = some responses' ∧
        (responses = responses' ↔ Guarded (silent (ControlRelay.exchange plainControlEnv {}))
          (ControlAction.Unlisted alphaBravo) (oneAllocation "alpha") [sends "STATS\n" {}]) := by
  refine ⟨_, rfl, responses_same_iff oneAllocation_twin (fun action haction => ?_) rfl⟩
  cases mem_singleton.mp haction
  intro a b hpair
  rw [hpair.1, hpair.2]
  decide +kernel

/-- `LIST` tells the two relays apart. -/
theorem tokens_listed :
    ¬ ∀ (pairs : TokenPairs) (first second : ControlRelay), first.Twin pairs second →
      ∀ actions : List ControlAction, (∀ action ∈ actions, action.Avoids pairs) →
        ∀ responses responses' : List ControlResponse,
          transcript (ControlRelay.exchange plainControlEnv {}) first actions = some responses →
          transcript (ControlRelay.exchange plainControlEnv {}) second actions = some responses' →
          responses = responses' := by
  intro hsame
  have havoids : ∀ action ∈ [sends "LIST\n" { order := [40000] }],
      action.Avoids alphaBravo := by
    intro action haction
    cases mem_singleton.mp haction
    intro a b hpair
    rw [hpair.1, hpair.2]
    decide +kernel
  have heq := hsame alphaBravo _ _ oneAllocation_twin [sends "LIST\n" { order := [40000] }] havoids
    _ _ rfl rfl
  revert heq
  decide +kernel

end FerrumProxy
