import FerrumProxy.Histories
import FerrumProxy.UdpProxy

/-!
# NetherNet datagrams pass unchanged

A listener takes a datagram into hand, looks for a session, and gives it to the session's targets
one after another until one takes it.  With a NetherNet rule none of the branches that look at the
contents of a datagram is taken.
-/

namespace FerrumProxy

open Wire Runs

/-! ### The calls of `send_to` -/

/-- A datagram that is given to a session's socket for the target at an index, which takes
it or not. -/
structure SendAttempt where
  index : Nat
  datagram : SentDatagram
  taken : Bool

open SendAttempt

open List Option

section Attempts

variable (rule : ListenerRule) (network : Network) (originalClient : SocketAddr) (payload : Bytes)

/-- The call of `send_to` in `send_to_target`, which is not reached without an address. -/
def attemptAt (session : UdpSession) (target : ProxyTarget) (targetPort : UInt16) (index : Nat) :
    Option SendAttempt :=
  (session.resolvedTargets[index]?.join.or (network.lookupHost target.host targetPort)).map
    (fun addr =>
      { index := index
        datagram :=
          { target := addr
            header := rule.usesRaknetUdp && rule.haproxy && !session.headerSent
            bytes :=
              datagramToTarget rule session.headerSent originalClient payload addr targetPort }
        taken := network.sendTo index })

/-- The calls of `send_to` in the loop of `try_send_udp`. -/
def attemptsFrom (session : UdpSession) : List (ProxyTarget × Nat) → List SendAttempt
  | [] => []
  | (target, index) :: rest =>
    match target.udp with
    | none => attemptsFrom session rest
    | some targetPort =>
      (attemptAt rule network originalClient payload session target targetPort index).toList ++
        match
          sendToTarget rule network originalClient payload session target targetPort index with
        | (_, some _) => []
        | (session, none) => attemptsFrom { session with headerSent := false } rest

/-- The calls of `send_to` for a datagram in hand. -/
def attempts (now : Millis) (session : UdpSession) : List SendAttempt :=
  let expired := rule.usesRaknetUdp && rule.haproxy &&
    decide (cloudburstProxyMappingTimeoutMs ≤ session.msSinceLastActivity now)
  let session := if expired then { session with headerSent := false } else session
  attemptsFrom rule network originalClient payload session (remainingTargets rule session)

variable {rule network originalClient payload}

theorem sendToTarget_attempt (session : UdpSession) (target : ProxyTarget) (targetPort : UInt16)
    (index : Nat) :
    (sendToTarget rule network originalClient payload session target targetPort index).2.toList =
      ((attemptAt rule network originalClient payload session target targetPort
        index).toList.filter taken).map datagram := by
  rw [sendToTarget_eq, attemptAt]
  cases session.resolvedTargets[index]?.join.or (network.lookupHost target.host targetPort) with
  | none => rfl
  | some addr => cases hsend : network.sendTo index <;> simp [sendResolved, hsend]

/-- **One call at most is taken**, and it is the one that ends the loop. -/
theorem trySendFrom_attempts (session : UdpSession) (targets : List (ProxyTarget × Nat)) :
    ((attemptsFrom rule network originalClient payload session targets).filter
        taken).map datagram =
      (trySendFrom rule network originalClient payload session targets).2.toList := by
  induction targets generalizing session with
  | nil => rfl
  | cons candidate rest ih =>
    obtain ⟨target, index⟩ := candidate
    rw [attemptsFrom, trySendFrom]
    cases target.udp with
    | none => exact ih session
    | some targetPort =>
      have hattempt := @sendToTarget_attempt rule network originalClient payload session target
        targetPort index
      dsimp only
      rw [filter_append, map_append, ← hattempt]
      generalize sendToTarget rule network originalClient payload session target targetPort
        index = outcome
      obtain ⟨after, result⟩ := outcome
      cases result with
      | some sent => rfl
      | none => exact ih _

variable {targets : List (ProxyTarget × Nat)} {attempt : SendAttempt}

theorem attemptAt_of_mem (session : UdpSession)
    (hmem : attempt ∈ attemptsFrom rule network originalClient payload session targets) :
    ∃ session target targetPort index, (target, index) ∈ targets ∧ target.udp = some targetPort ∧
      attemptAt rule network originalClient payload session target targetPort index =
        some attempt := by
  induction targets generalizing session with
  | nil => cases hmem
  | cons candidate rest ih =>
    obtain ⟨target, index⟩ := candidate
    rw [attemptsFrom] at hmem
    cases hport : target.udp with
    | none =>
      rw [hport] at hmem
      obtain ⟨later, other, port, place, hother, hattempt⟩ := ih session hmem
      exact ⟨later, other, port, place, mem_cons_of_mem _ hother, hattempt⟩
    | some targetPort =>
      rw [hport] at hmem
      dsimp only at hmem
      rcases mem_append.mp hmem with hnow | hlater
      · exact ⟨session, target, targetPort, index, mem_cons_self, hport, mem_toList.mp hnow⟩
      · split at hlater
        · cases hlater
        · obtain ⟨later, other, port, place, hother, hattempt⟩ := ih _ hlater
          exact ⟨later, other, port, place, mem_cons_of_mem _ hother, hattempt⟩

theorem index_of_attempt (session : UdpSession)
    (hmem : attempt ∈ attemptsFrom rule network originalClient payload session targets) :
    ∃ target, (target, attempt.index) ∈ targets ∧ target.udp.isSome = true := by
  obtain ⟨_, target, targetPort, index, htarget, hudp, hattempt⟩ := attemptAt_of_mem session hmem
  obtain ⟨addr, _, rfl⟩ := map_eq_some_iff.mp hattempt
  exact ⟨target, htarget, isSome_of_eq_some hudp⟩

theorem mem_targets_of_attempt {now : Millis} {session : UdpSession}
    (hmem : attempt ∈ attempts rule network originalClient payload now session) :
    ∃ target, (rule.targetsFor .udp)[attempt.index]? = some target ∧
      target.udp.isSome = true := by
  obtain ⟨target, htarget, hudp⟩ := index_of_attempt _ hmem
  exact ⟨target, mem_zipIdx_iff_getElem?.mp (mem_of_mem_drop htarget), hudp⟩

theorem forwardDatagram_attempts (now : Millis) (session : UdpSession) :
    ((attempts rule network originalClient payload now session).filter
        taken).map datagram =
      (forwardDatagram rule network originalClient payload now session).2.toList := by
  unfold attempts forwardDatagram
  dsimp only
  rw [trySendFrom_attempts, ← trySendUdp]
  generalize trySendUdp rule network originalClient payload _ = outcome
  obtain ⟨after, result⟩ := outcome
  cases result <;> rfl

end Attempts

/-! ### Datagrams in hand -/

/-- What became of a datagram. -/
inductive Finish where
  /-- There was no session for it, and no socket for a new one. -/
  | unbound
  /-- It was a ping, and the answer came from the cache. -/
  | answered
  /-- It was given to the targets, and `try_send_udp` came back with success or not. -/
  | sent (attempts : List SendAttempt) (success : Bool)

/-- A datagram and what became of it. -/
structure Handled where
  incoming : Incoming
  finish : Finish

/-- What the targets have got of the datagram. -/
def Handled.deliveries (handled : Handled) : List Bytes :=
  match handled.finish with
  | .sent attempts _ => (attempts.filter SendAttempt.taken).map (fun a => a.datagram.bytes)
  | _ => []

namespace ProxyStage

/-- The datagram that the listener is at. -/
def inHand : ProxyStage → List Incoming
  | .idle => []
  | .answering _ incoming _ => [incoming]
  | .obtaining _ incoming => [incoming]
  | .sending _ incoming => [incoming]

end ProxyStage

namespace UdpProxy

section Handling

variable (rule : ListenerRule)

/-- The datagram that the event brings, unless it is dropped at once. -/
def accepted : ProxyEvent → List Incoming
  | .receive peer packet admitted =>
    let incoming := receiveDatagram rule peer (packet.take maxDatagramSize)
    if incoming.payload.isEmpty || !admitted then [] else [incoming]
  | _ => []

/-- The datagram that the listener is done with after the event. -/
def finished (proxy : UdpProxy) : ProxyEvent → List Handled
  | .answer _ =>
    match proxy.stage with
    | .answering _ incoming cached =>
      if asMillis (durationSince proxy.clock cached.updatedAt) < pongCacheFreshMs then
        [⟨incoming, .answered⟩]
      else []
    | _ => []
  | .obtain (.bindSocket false) =>
    match proxy.stage with
    | .obtaining _ incoming => [⟨incoming, .unbound⟩]
    | _ => []
  | .forward network =>
    match proxy.stage with
    | .sending id incoming =>
      match proxy.sessions.lookup id with
      | some session =>
        let now := session.elapsedMs proxy.clock
        [⟨incoming, .sent
          (attempts rule network incoming.originalClient incoming.payload now
            session.upstream)
          (forwardDatagram rule network incoming.originalClient incoming.payload now
            session.upstream).2.isSome⟩]
      | none => []
    | _ => []
  | _ => []

variable {rule} {udpSessionIdle : Duration} {proxy next : UdpProxy} {event : ProxyEvent}
  {sent : List ClientDatagram}

variable {peer : SocketAddr} {incoming : Incoming} {actions : List ListenerAction}
  {obtaining : ObtainEvent} {id : Nat} {doing : TaskEvent} {events : List ProxyEvent}

theorem inHand_startObtaining (h : proxy.startObtaining rule peer incoming = some (next, sent)) :
    next.stage.inHand = [incoming] := by
  obtain ⟨moved, _, hnext⟩ := map_eq_some_iff.mp h
  cases hnext
  rfl

theorem inHand_obtained (hstage : proxy.stage = .obtaining peer incoming) :
    (proxy.obtained peer incoming).stage.inHand = [incoming] := by
  unfold obtained
  split
  · rfl
  · rw [hstage]
    rfl

theorem stage_moved (h : proxy.moved actions = some next) : next.stage = proxy.stage := by
  obtain ⟨listener, _, rfl⟩ := moved_eq_some h
  rfl

theorem inHand_obtainStep (hstage : proxy.stage = .obtaining peer incoming)
    (h : proxy.obtainStep rule peer incoming obtaining = some next) :
    [incoming] =
      (proxy.finished rule (.obtain obtaining)).map Handled.incoming ++ next.stage.inHand := by
  cases obtaining with
  | lookup | reset =>
    rw [stage_moved h, hstage]
    rfl
  | check =>
    obtain ⟨moved, hmoved, rfl⟩ := map_eq_some_iff.mp h
    exact (inHand_obtained ((stage_moved hmoved).trans hstage)).symm
  | bindSocket bound =>
    obtain ⟨moved, hmoved, rfl⟩ := map_eq_some_iff.mp h
    cases bound with
    | true =>
      rw [if_pos rfl, stage_moved hmoved, hstage]
      rfl
    | false =>
      rw [finished, hstage]
      rfl
  | insert =>
    obtain ⟨moved, hmoved, rfl⟩ := map_eq_some_iff.mp h
    obtain ⟨sessions, hopen⟩ := openSession_eq rule proxy peer
    rw [hopen] at hmoved
    exact (inHand_obtained ((stage_moved hmoved).trans hstage)).symm

theorem stage_taskStep (h : proxy.taskStep rule udpSessionIdle id doing = some next) :
    next.stage = proxy.stage := by
  cases change_of_taskStep h with
  | listen hevent _ _ => cases hevent
  | task _ => rfl

theorem step_inHand (h : proxy.step rule udpSessionIdle event = some (next, sent)) :
    proxy.stage.inHand ++ accepted rule event =
      (proxy.finished rule event).map Handled.incoming ++ next.stage.inHand := by
  cases event with
  | tick elapsed =>
    dsimp only [step] at h
    split at h <;> cases h
    exact append_nil _
  | receive peer packet admitted =>
    dsimp only [step] at h
    split at h
    · rename_i hidle
      rw [hidle]
      unfold receive at h
      dsimp only [accepted, finished] at h ⊢
      split at h
      · rename_i hdropped
        cases h
        rw [if_pos hdropped, hidle]
        rfl
      · rename_i hkept
        rw [if_neg hkept]
        split at h
        · cases h
          rfl
        · rw [inHand_startObtaining h]
          rfl
    · cases h
  | answer ok =>
    dsimp only [step] at h
    split at h
    · rename_i peer incoming cached hstage
      unfold answer at h
      dsimp only at h
      split at h
      · rename_i hfresh
        cases h
        rw [finished, hstage]
        dsimp only
        rw [if_pos hfresh]
        rfl
      · rename_i hstale
        rw [finished, hstage, inHand_startObtaining h]
        dsimp only
        rw [if_neg hstale]
        rfl
    · cases h
  | obtain obtaining =>
    dsimp only [step] at h
    split at h
    · rename_i peer incoming hstage
      obtain ⟨after, hafter, heq⟩ := map_eq_some_iff.mp h
      cases heq
      rw [← inHand_obtainStep hstage hafter, hstage]
      rfl
    · cases h
  | forward network =>
    dsimp only [step] at h
    split at h
    · rename_i id incoming hstage
      obtain ⟨session, hsession, heq⟩ := map_eq_some_iff.mp h
      cases heq
      rw [finished, hstage]
      dsimp only
      rw [hsession]
      rfl
    · cases h
  | arrive id source datagram ok =>
    have hstage : next.stage = proxy.stage := by
      cases change_of_step h with
      | listen hevent _ _ => cases hevent
      | respond | lost => rfl
    rw [hstage]
    exact append_nil _
  | task id doing =>
    obtain ⟨after, hafter, heq⟩ := map_eq_some_iff.mp h
    cases heq
    rw [stage_taskStep hafter]
    exact append_nil _

/-- **Datagrams are handled one by one, in order.**  What the listener has taken in is what it
is done with and the datagram in hand. -/
theorem handled_in_order
    (hrun : run (silent (step rule udpSessionIdle)) start events = some proxy) :
    events.flatMap (accepted rule) =
      (logged (silent (step rule udpSessionIdle)) (finished rule) start events).map
          Handled.incoming ++
        proxy.stage.inHand := by
  have hbalance := logged_balance (fun _ event => accepted rule event)
    (fun proxy event => (finished rule proxy event).map Handled.incoming)
    (fun proxy => proxy.stage.inHand)
    (fun s event t hstep => by
      obtain ⟨out, hout⟩ := silent_eq_some_iff.mp hstep
      exact step_inHand hout) hrun
  rw [logged_of_run _ hrun, logged_map] at hbalance
  exact hbalance

theorem finished_sent {handled : Handled} {tried : List SendAttempt} {success : Bool}
    (hmem : handled ∈ proxy.finished rule event) (hsent : handled.finish = .sent tried success) :
    (∀ attempt ∈ tried, ∃ target, (rule.targetsFor .udp)[attempt.index]? = some target ∧
        target.udp.isSome = true) ∧
      (tried.filter taken).length = if success then 1 else 0 := by
  unfold finished at hmem
  repeat' split at hmem
  all_goals first
    | (cases hmem; done)
    | (rw [mem_singleton.mp hmem] at hsent; cases hsent)
  refine ⟨fun attempt => mem_targets_of_attempt, ?_⟩
  rw [← length_map, forwardDatagram_attempts, Option.length_toList]

end Handling

end UdpProxy

/-! ### Branches that a NetherNet rule does not take -/

section Nethernet

variable {rule : ListenerRule} (hnethernet : rule.bedrockTransport = .nethernet)

include hnethernet

theorem usesRaknetUdp_of_nethernet : rule.usesRaknetUdp = false := by
  simp [ListenerRule.usesRaknetUdp, hnethernet]

/-- No header is looked for in front of a client's datagram. -/
theorem receiveDatagram_of_nethernet (peer : SocketAddr) (packet : Bytes) :
    receiveDatagram rule peer packet = { originalClient := peer, payload := packet } := by
  simp [receiveDatagram, usesRaknetUdp_of_nethernet hnethernet]

theorem isPongResponse_of_nethernet (stripped : Bytes) : isPongResponse rule stripped = false := by
  simp [isPongResponse, usesRaknetUdp_of_nethernet hnethernet]

/-- A backend's datagram is neither stripped nor rewritten. -/
theorem backendResponse_of_nethernet (raw : Bytes) : backendResponse rule raw = raw := by
  simp [backendResponse, stripResponse, isPongResponse_of_nethernet hnethernet,
    usesRaknetUdp_of_nethernet hnethernet]

theorem pongToCache_of_nethernet (raw : Bytes) : pongToCache rule raw = none := by
  simp [pongToCache, isPongResponse_of_nethernet hnethernet]

theorem cachedFor_of_nethernet (proxy : UdpProxy) (incoming : Incoming) :
    proxy.cachedFor rule incoming = none := by
  simp [UdpProxy.cachedFor, usesRaknetUdp_of_nethernet hnethernet]

variable {targets : List (ProxyTarget × Nat)} {attempt : SendAttempt}

/-- Every call of `send_to` has the bytes of the datagram, without a header. -/
theorem attemptsFrom_of_nethernet {network : Network} {originalClient : SocketAddr}
    {payload : Bytes} (session : UdpSession)
    (hmem : attempt ∈ attemptsFrom rule network originalClient payload session targets) :
    attempt.datagram.header = false ∧ attempt.datagram.bytes = payload := by
  obtain ⟨_, _, _, _, _, _, hattempt⟩ := attemptAt_of_mem session hmem
  obtain ⟨addr, _, rfl⟩ := map_eq_some_iff.mp hattempt
  dsimp only [datagramToTarget]
  rw [usesRaknetUdp_of_nethernet hnethernet]
  exact ⟨rfl, rfl⟩

end Nethernet

/-! ### No session is reset -/

/-- The datagram that needs a session is not taken for a new connection. -/
def ListenerAction.Plain : ListenerAction → Prop
  | .receive _ isNewConn => isNewConn = false
  | _ => True

/-- The listener is not about to reset a session, and none has been reset. -/
structure UdpListener.Settled (listener : UdpListener) : Prop where
  looking : ∀ peer, listener.stage ≠ .looking peer
  resetting : ∀ peer, listener.stage ≠ .resetting peer
  tasks : listener.table.tasks.All (fun task => task.aborted = false)

variable {listener : UdpListener} {action : ListenerAction} {actions : List ListenerAction}
  {peer : SocketAddr} {incoming : Incoming} {obtaining : ObtainEvent} {id : Nat} {doing : TaskEvent}
  {events : List ProxyEvent}

theorem UdpListener.Settled.tasks_step {next : UdpListener} (h : listener.Settled)
    (hstep : listener.step action = some next) :
    next.table.tasks.All (fun task => task.aborted = false) := by
  have hchange := change_of_step hstep
  generalize next.table = table at hchange
  cases hchange with
  | kept => exact h.tasks
  | reset peer =>
    dsimp only [UdpListener.step] at hstep
    split at hstep
    · exact absurd ‹_› (h.resetting _)
    · cases hstep
  | inserted _ =>
    unfold SessionTable.insertNew
    split
    · exact h.tasks
    · exact h.tasks.put rfl
  | advanced _ _ htask _ =>
    have hlive := h.tasks _ _ htask
    exact h.tasks.put hlive
  | cancelled _ _ => exact h.tasks.drop
  | @cleanedUp id task _ _ =>
    have hdrop : (listener.table.cleanUp id task).tasks = listener.table.tasks.drop id := by
      unfold SessionTable.cleanUp
      dsimp only
      split <;> rfl
    rw [hdrop]
    exact h.tasks.drop

theorem UdpListener.Settled.step {next : UdpListener} (h : listener.Settled)
    (hplain : action.Plain) (hstep : listener.step action = some next) : next.Settled := by
  have htasks := h.tasks_step hstep
  have hstage : ∀ peer, next.stage ≠ .looking peer ∧ next.stage ≠ .resetting peer := by
    intro other
    cases action with
    | receive peer isNewConn =>
      cases (hplain : isNewConn = false)
      dsimp only [UdpListener.step] at hstep
      split at hstep <;> cases hstep
      simp
    | lookup =>
      dsimp only [UdpListener.step] at hstep
      split at hstep
      · exact absurd ‹_› (h.looking _)
      · cases hstep
    | reset =>
      dsimp only [UdpListener.step] at hstep
      split at hstep
      · exact absurd ‹_› (h.resetting _)
      · cases hstep
    | check | insert =>
      dsimp only [UdpListener.step] at hstep
      repeat' split at hstep
      all_goals cases hstep
      all_goals simp
    | bindSocket bound =>
      dsimp only [UdpListener.step] at hstep
      split at hstep <;> cases hstep
      cases bound <;> simp
    | poll | await | leave | cancel | cleanUp =>
      obtain ⟨_, _, _, rfl⟩ := stepTask_eq_some hstep
      exact ⟨h.looking other, h.resetting other⟩
  exact ⟨fun peer => (hstage peer).1, fun peer => (hstage peer).2, htasks⟩

theorem settled_start : UdpListener.start.Settled := ⟨nofun, nofun, nofun⟩

theorem UdpListener.Settled.run {next : UdpListener} (h : listener.Settled)
    (hplain : ∀ action ∈ actions, action.Plain)
    (hrun : Runs.run UdpListener.step listener actions = some next) : next.Settled := by
  have hguarded : Guarded UdpListener.step (fun _ action => action.Plain) listener actions :=
    guarded_of_forall (fun action hmem _ => hplain action hmem) listener
  exact (reaches_of_guarded hguarded hrun).invariant h
    (fun _ _ _ hsettled hok hstep => hsettled.step hok hstep)

namespace UdpProxy

variable {rule : ListenerRule} {udpSessionIdle : Duration} {proxy next : UdpProxy}
  {event : ProxyEvent} {sent : List ClientDatagram}

/-- The table has moved without taking a datagram for a new connection. -/
def MovesPlainly (proxy next : UdpProxy) : Prop :=
  ∃ actions : List ListenerAction, (∀ action ∈ actions, action.Plain) ∧
    Runs.run UdpListener.step proxy.listener actions = some next.listener

theorem movesPlainly_of_eq (h : next.listener = proxy.listener) : proxy.MovesPlainly next :=
  ⟨[], fun _ hmem => (nomatch hmem), by rw [h]; rfl⟩

theorem movesPlainly_of_moved {moved : UdpProxy} (h : proxy.moved actions = some moved)
    (hplain : ∀ action ∈ actions, action.Plain) (hnext : next.listener = moved.listener) :
    proxy.MovesPlainly next := by
  obtain ⟨listener, hrun, rfl⟩ := moved_eq_some h
  exact ⟨actions, hplain, hnext ▸ hrun⟩

theorem movesPlainly_of_moved_one {moved : UdpProxy} (h : proxy.moved [action] = some moved)
    (hplain : action.Plain) (hnext : next.listener = moved.listener) : proxy.MovesPlainly next :=
  movesPlainly_of_moved h (forall_mem_singleton.mpr hplain) hnext

theorem listener_obtained (peer : SocketAddr) (incoming : Incoming) :
    (proxy.obtained peer incoming).listener = proxy.listener := by
  unfold obtained
  split <;> rfl

theorem movesPlainly_startObtaining (hnethernet : rule.bedrockTransport = .nethernet)
    (h : proxy.startObtaining rule peer incoming = some (next, sent)) :
    proxy.MovesPlainly next := by
  obtain ⟨moved, hmoved, hnext⟩ := map_eq_some_iff.mp h
  cases hnext
  rw [usesRaknetUdp_of_nethernet hnethernet] at hmoved
  exact movesPlainly_of_moved_one hmoved rfl rfl

theorem movesPlainly_obtainStep (h : proxy.obtainStep rule peer incoming obtaining = some next) :
    proxy.MovesPlainly next := by
  cases obtaining with
  | lookup | reset => exact movesPlainly_of_moved_one h trivial rfl
  | check =>
    obtain ⟨moved, hmoved, rfl⟩ := map_eq_some_iff.mp h
    exact movesPlainly_of_moved_one hmoved trivial (listener_obtained ..)
  | bindSocket bound =>
    obtain ⟨moved, hmoved, rfl⟩ := map_eq_some_iff.mp h
    exact movesPlainly_of_moved_one hmoved trivial (by cases bound <;> rfl)
  | insert =>
    obtain ⟨moved, hmoved, rfl⟩ := map_eq_some_iff.mp h
    obtain ⟨sessions, hopen⟩ := openSession_eq rule proxy peer
    rw [hopen] at hmoved
    have hplain := movesPlainly_of_moved_one hmoved trivial (listener_obtained peer incoming)
    exact hplain

theorem movesPlainly_taskStep (h : proxy.taskStep rule udpSessionIdle id doing = some next) :
    proxy.MovesPlainly next := by
  have hleave : ∀ action ∈ [ListenerAction.poll id, .leave id], action.Plain := by
    simp [ListenerAction.Plain]
  cases doing with
  | timeout =>
    dsimp only [taskStep] at h
    repeat' split at h
    · exact movesPlainly_of_moved h hleave rfl
    · cases h
      exact movesPlainly_of_eq rfl
    · cases h
  | socketError => exact movesPlainly_of_moved h hleave rfl
  | cancel | cleanUp => exact movesPlainly_of_moved_one h trivial rfl

/-- With a NetherNet rule no datagram is taken for a new connection. -/
theorem movesPlainly_of_step (hnethernet : rule.bedrockTransport = .nethernet)
    (h : proxy.step rule udpSessionIdle event = some (next, sent)) : proxy.MovesPlainly next := by
  cases event with
  | tick | receive | answer =>
    dsimp only [step, receive, answer] at h
    repeat' split at h
    all_goals first
      | exact movesPlainly_startObtaining hnethernet h
      | cases h <;> exact movesPlainly_of_eq rfl
  | obtain obtaining =>
    dsimp only [step] at h
    split at h
    · obtain ⟨after, hafter, heq⟩ := map_eq_some_iff.mp h
      cases heq
      exact movesPlainly_obtainStep hafter
    · cases h
  | forward network =>
    dsimp only [step] at h
    split at h
    · obtain ⟨session, _, heq⟩ := map_eq_some_iff.mp h
      cases heq
      exact movesPlainly_of_eq rfl
    · cases h
  | arrive id source datagram ok =>
    dsimp only [step] at h
    split at h
    · obtain ⟨moved, hmoved, heq⟩ := map_eq_some_iff.mp h
      cases heq
      refine movesPlainly_of_moved hmoved ?_ rfl
      cases ok <;> simp [ListenerAction.Plain]
    · cases h
      exact movesPlainly_of_eq rfl
  | task id doing =>
    obtain ⟨after, hafter, heq⟩ := map_eq_some_iff.mp h
    cases heq
    exact movesPlainly_taskStep hafter

/-- What the contents of datagrams could have brought about has not come about. -/
structure Untouched (proxy : UdpProxy) : Prop where
  sharedPong : proxy.sharedPong = none
  stage : proxy.stage.isAnswering = false
  settled : proxy.listener.Settled

theorem Untouched.step (hnethernet : rule.bedrockTransport = .nethernet) (h : proxy.Untouched)
    (hstep : proxy.step rule udpSessionIdle event = some (next, sent)) : next.Untouched := by
  obtain ⟨actions, hplain, hrun⟩ := movesPlainly_of_step hnethernet hstep
  have hsettled := h.settled.run hplain hrun
  cases change_of_step hstep with
  | tick _ | lost _ | task _ => exact ⟨h.sharedPong, h.stage, hsettled⟩
  | copy _ hcached =>
    rw [cachedFor_of_nethernet hnethernet] at hcached
    cases hcached
  | answer _ _ => exact ⟨h.sharedPong, rfl, hsettled⟩
  | listen _ _ hstage => exact ⟨h.sharedPong, hstage, hsettled⟩
  | respond _ _ =>
    refine ⟨?_, h.stage, hsettled⟩
    dsimp only
    rw [pongToCache_of_nethernet hnethernet]
    exact h.sharedPong

theorem untouched_of_run (hnethernet : rule.bedrockTransport = .nethernet)
    (hrun : run (silent (step rule udpSessionIdle)) start events = some proxy) :
    proxy.Untouched := by
  apply (reaches_of_run hrun).invariant ⟨rfl, rfl, settled_start⟩
  intro s event t h _ hstep
  obtain ⟨out, hout⟩ := silent_eq_some_iff.mp hstep
  exact h.step hnethernet hout

/-! ### Transparency -/

end UdpProxy

/-- The bytes fit into a datagram, whose length field has sixteen bits. -/
def ProxyEvent.IsDatagram : ProxyEvent → Prop
  | .receive _ packet _ => packet.length ≤ maxDatagramSize
  | .arrive _ _ datagram _ => datagram.length ≤ maxDatagramSize
  | _ => True

instance : DecidablePred ProxyEvent.IsDatagram
  | .receive _ packet _ => inferInstanceAs (Decidable (packet.length ≤ maxDatagramSize))
  | .arrive _ _ datagram _ => inferInstanceAs (Decidable (datagram.length ≤ maxDatagramSize))
  | .tick _ | .answer _ | .obtain _ | .forward _ | .task _ _ => isTrue trivial

/-- The client's datagram, if it is admitted and not empty. -/
def ProxyEvent.clientDatagram : ProxyEvent → List Incoming
  | .receive peer packet admitted =>
    if packet.isEmpty || !admitted then [] else [⟨peer, packet⟩]
  | _ => []

namespace UdpProxy

variable {rule : ListenerRule} {udpSessionIdle : Duration} {proxy next : UdpProxy}
  {event : ProxyEvent} {sent : List ClientDatagram}

/-- A backend's datagram goes to the client of the session whose task takes it. -/
def passedOn (proxy : UdpProxy) : ProxyEvent → List ClientDatagram
  | .arrive id _ datagram sent =>
    (proxy.receiver id).toList.map (fun receiver => ⟨receiver.1.peer, datagram, sent⟩)
  | _ => []

section

variable (hnethernet : rule.bedrockTransport = .nethernet)

include hnethernet

theorem accepted_of_nethernet (hdatagram : event.IsDatagram) :
    accepted rule event = event.clientDatagram := by
  cases event with
  | receive peer packet admitted =>
    have htake : packet.take maxDatagramSize = packet := take_of_length_le hdatagram
    dsimp only [accepted, ProxyEvent.clientDatagram]
    rw [receiveDatagram_of_nethernet hnethernet, htake]
  | _ => rfl

theorem finished_of_nethernet (hnot : proxy.stage.isAnswering = false) {handled : Handled}
    (hmem : handled ∈ proxy.finished rule event) :
    handled.finish = .unbound ∨ ∃ attempts success, handled.finish = .sent attempts success ∧
      (∀ attempt ∈ attempts, attempt.datagram.header = false ∧
        attempt.datagram.bytes = handled.incoming.payload ∧
        ∃ target, (rule.targetsFor .udp)[attempt.index]? = some target ∧
          target.udp.isSome = true) ∧
      (attempts.filter taken).length = if success then 1 else 0 := by
  have hsent : ∀ tried success, handled.finish = .sent tried success → _ :=
    fun _ _ => finished_sent hmem
  unfold finished at hmem
  repeat' split at hmem
  all_goals first
    | (cases hmem; done)
    | obtain rfl := mem_singleton.mp hmem
  · next hstage _ =>
    rw [hstage] at hnot
    cases hnot
  · exact .inl rfl
  · obtain ⟨htargets, hlength⟩ := hsent _ _ rfl
    refine .inr ⟨_, _, rfl, fun attempt hattempt => ?_, hlength⟩
    obtain ⟨hheader, hbytes⟩ := attemptsFrom_of_nethernet hnethernet _ hattempt
    exact ⟨hheader, hbytes, htargets attempt hattempt⟩

theorem sent_of_nethernet (hnot : proxy.stage.isAnswering = false) (hdatagram : event.IsDatagram)
    (hstep : proxy.step rule udpSessionIdle event = some (next, sent)) :
    sent = proxy.passedOn event := by
  cases change_of_step hstep with
  | tick | copy | task => rfl
  | answer hstage _ =>
    rw [hstage] at hnot
    cases hnot
  | listen hevent _ _ =>
    cases event with
    | arrive => cases hevent
    | _ => rfl
  | respond hreceiver _ =>
    rw [passedOn, hreceiver, backendResponse_of_nethernet hnethernet, take_of_length_le hdatagram]
    rfl
  | lost hreceiver =>
    rw [passedOn, hreceiver]
    rfl

end

/-- Without a stage for it there is no reset. -/
theorem Untouched.no_reset (h : proxy.Untouched) :
    proxy.step rule udpSessionIdle (.obtain .reset) = none := by
  have hmoved : proxy.moved [.reset] = none := by
    unfold moved Runs.run
    have hreset : proxy.listener.step .reset = none := by
      dsimp only [UdpListener.step]
      split
      · exact absurd ‹_› (h.settled.resetting _)
      · rfl
    rw [hreset]
    rfl
  dsimp only [UdpProxy.step]
  split
  · rw [obtainStep, hmoved]
    rfl
  · rfl

/-- **NetherNet UDP is transparent.**  In every run with a NetherNet rule:

* the admitted datagrams of the clients that are not empty are handled one by one, in order,
  and unless no socket could be had for one, it is given to targets of the rule as it is,
  without a header, and exactly one of them takes it if the send succeeds;
* clients get what arrives at the sessions' sockets as it is, each at the address the session
  is for, and nothing else;
* the pong cache is empty;
* no session has been reset and none can be. -/
theorem nethernet_udp_transparent (rule : ListenerRule)
    (hnethernet : rule.bedrockTransport = .nethernet) (udpSessionIdle : Duration)
    {events : List ProxyEvent} {proxy : UdpProxy}
    (hdatagrams : ∀ event ∈ events, event.IsDatagram)
    (hrun : run (silent (step rule udpSessionIdle)) start events = some proxy) :
    (events.flatMap ProxyEvent.clientDatagram =
      (logged (silent (step rule udpSessionIdle)) (finished rule) start events).map
          Handled.incoming ++ proxy.stage.inHand) ∧
    (∀ handled ∈ logged (silent (step rule udpSessionIdle)) (finished rule) start events,
      handled.finish = .unbound ∨ ∃ attempts success, handled.finish = .sent attempts success ∧
        (∀ attempt ∈ attempts, attempt.datagram.header = false ∧
          attempt.datagram.bytes = handled.incoming.payload ∧
          ∃ target, (rule.targetsFor .udp)[attempt.index]? = some target ∧
            target.udp.isSome = true) ∧
        (attempts.filter SendAttempt.taken).length = if success then 1 else 0) ∧
    (∀ event next sent, event.IsDatagram →
      proxy.step rule udpSessionIdle event = some (next, sent) → sent = proxy.passedOn event) ∧
    proxy.sharedPong = none ∧
    proxy.listener.table.tasks.All (fun task => task.aborted = false) ∧
    proxy.step rule udpSessionIdle (.obtain .reset) = none := by
  have huntouched := untouched_of_run hnethernet hrun
  refine ⟨?_, ?_, ?_, huntouched.sharedPong, huntouched.settled.tasks, huntouched.no_reset⟩
  · rw [← handled_in_order hrun]
    apply flatMap_congr
    intro event hmem
    exact (accepted_of_nethernet hnethernet (hdatagrams event hmem)).symm
  · intro handled hmem
    obtain ⟨before, event, after, middle, rfl, hbefore, hfinished⟩ := mem_logged hmem
    exact finished_of_nethernet hnethernet (untouched_of_run hnethernet hbefore).stage hfinished
  · intro event next sent hdatagram hstep
    exact sent_of_nethernet hnethernet huntouched.stage hdatagram hstep

end UdpProxy

/-! ### A datagram that looks like a ping -/

def nethernetRule : ListenerRule :=
  { bedrockRule with bedrockTransport := .nethernet, rewriteBedrockPongPorts := true }

def pingLike : Bytes := 0x01 :: List.replicate 8 0 ++ raknetOfflineMessageId

/-- The listener forwards it, although the rule asks for headers, and a pong comes back. -/
def pingedThrough : List ProxyEvent :=
  [.receive playerAddr pingLike true, .obtain .check, .obtain (.bindSocket true), .obtain .insert,
    .forward steadyNetwork, .arrive 0 backendAddr [0x1c, 1, 2, 3] true]

/-- A datagram that looks like a ping. -/
theorem nethernet_udp_transparent_ping :
    (logged (silent (UdpProxy.step nethernetRule 60)) (UdpProxy.finished nethernetRule) .start
      pingedThrough).flatMap Handled.deliveries = [pingLike] ∧
    ∃ proxy, run (silent (UdpProxy.step nethernetRule 60)) .start pingedThrough = some proxy ∧
      proxy.sharedPong = none ∧
      pingedThrough.flatMap ProxyEvent.clientDatagram =
        (logged (silent (UdpProxy.step nethernetRule 60)) (UdpProxy.finished nethernetRule) .start
          pingedThrough).map Handled.incoming ++ proxy.stage.inHand := by
  have hruns : (run (silent (UdpProxy.step nethernetRule 60)) .start pingedThrough).isSome =
      true := by
    decide +kernel
  obtain ⟨proxy, hrun⟩ := isSome_iff_exists.mp hruns
  obtain ⟨horder, _, _, hpong, _⟩ :=
    UdpProxy.nethernet_udp_transparent nethernetRule rfl 60 (by decide) hrun
  exact ⟨by decide +kernel, proxy, hrun, hpong, horder⟩

end FerrumProxy
