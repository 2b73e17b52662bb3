import FerrumProxy.Histories
import FerrumProxy.PongPackets
import FerrumProxy.UdpProxy

/-!
# Pongs from the cache

A RakNet listener answers a ping from the cache that the receive tasks of all sessions write.  The
listener copies the cached pong, and then looks at its age and sends it; a receive task may write
another pong in between.
-/

namespace FerrumProxy

open Str Wire Runs

/-! ### The response that is cached -/

variable {stripped raw payload : Bytes} {events : List ProxyEvent} {cached : CachedPong}

/-- **What port rewriting and normalisation make of a pong.** -/
theorem rewritePong_keeps (rule : ListenerRule) {original : ParsedPong}
    (hparse : parseUnconnectedPong stripped = some original) :
    ∃ rewritten, parseUnconnectedPong (rewritePong rule stripped) = some rewritten ∧
      rewritten.fields.length = original.fields.length ∧
      (rule.rewriteBedrockPongPorts = true → 11 ≤ original.fields.length →
        (toUtf8 (original.withPorts (rule.udp.getD 0))).length ≤ 65535 →
          rewritten.ShowsPort (rule.udp.getD 0)) := by
  unfold rewritePong
  by_cases hrewrite : rule.rewriteBedrockPongPorts = true
  · rw [if_pos hrewrite]
    obtain ⟨withPorts, hports, hcount, hshows⟩ := rewritePorts_shows hparse (rule.udp.getD 0)
    obtain ⟨normalized, hnormalized, hcount', hfields⟩ := normalizeMotd_keeps hports
    refine ⟨normalized, hnormalized, hcount'.trans hcount, fun _ hmany hfits => ?_⟩
    intro i field hi hfield
    rw [hfields i (by omega) (by omega)] at hfield
    exact hshows hmany hfits i field hi hfield
  · rw [if_neg hrewrite]
    obtain ⟨normalized, hnormalized, hcount, _⟩ := normalizeMotd_keeps hparse
    exact ⟨normalized, hnormalized, hcount, fun hon => absurd hon hrewrite⟩

open List Option

theorem rewritePong_of_none (rule : ListenerRule) (hparse : parseUnconnectedPong stripped = none) :
    rewritePong rule stripped = stripped := by
  have hports : ∀ port, rewriteUnconnectedPongPorts stripped port = none := by
    intro port
    rw [rewriteUnconnectedPongPorts, hparse]
  have hmotd : normalizeUnconnectedPongMotd stripped = none := by
    rw [normalizeUnconnectedPongMotd, hparse]
  unfold rewritePong
  rw [hports, getD_none, ite_self]
  dsimp only
  rw [hmotd, getD_none]

theorem pongToCache_eq_some {rule : ListenerRule} (h : pongToCache rule raw = some payload) :
    payload = backendResponse rule raw ∧ isUnconnectedPong payload = true ∧
      payload = rewritePong rule (stripResponse rule raw) := by
  unfold pongToCache at h
  split at h
  · rename_i hpong
    obtain ⟨hresponse, hvalid⟩ := Bool.and_eq_true_iff.mp hpong
    cases h
    refine ⟨rfl, hvalid, ?_⟩
    unfold backendResponse
    rw [if_pos hresponse]
  · cases h

/-! ### The answer -/

open UdpProxy

theorem pingTimestamp_length (hping : isOfflinePing payload = true) :
    (pingTimestamp payload).length = 8 := by
  have hlong : 25 ≤ payload.length := by
    unfold isOfflinePing at hping
    split at hping
    · cases hping
    · omega
  rw [pingTimestamp, length_take, length_drop]
  omega

/-- What a client gets for a ping: the response that was sent to a client before, with the
ping's timestamp. -/
structure AnswersPing (rule : ListenerRule) (raw ping answer : Bytes) : Prop where
  pong : isUnconnectedPong answer = true
  length : answer.length = (backendResponse rule raw).length
  kept : ∀ i, i < 1 ∨ 9 ≤ i → answer[i]? = (backendResponse rule raw)[i]?
  timestamp : ∀ i, 1 ≤ i → i < 9 → answer[i]? = ping[i]?
  ports : ∃ original answered,
    parseUnconnectedPong (stripResponse rule raw) = some original ∧
      parseUnconnectedPong answer = some answered ∧
      (rule.rewriteBedrockPongPorts = true → ∀ port, rule.udp = some port →
        11 ≤ answered.fields.length → (toUtf8 (original.withPorts port)).length ≤ 65535 →
          answered.ShowsPort port)

theorem answersPing_immediatePong {rule : ListenerRule} {ping : Bytes}
    (hcached : pongToCache rule raw = some payload) (hping : isOfflinePing ping = true) :
    AnswersPing rule raw ping
      (immediatePong payload (pingTimestamp ping)) := by
  obtain ⟨hresponse, hpong, hrewritten⟩ := pongToCache_eq_some hcached
  have htimestamp := pingTimestamp_length hping
  obtain ⟨parsed, hparse⟩ := isSome_iff_exists.mp hpong
  obtain ⟨_, hlong⟩ := parse_inv hparse
  have hanswer : immediatePong payload (pingTimestamp ping) =
      payload.take 1 ++ pingTimestamp ping ++ payload.drop 9 := by
    rw [immediatePong, rewriteTimestamp_eq hpong htimestamp, getD_some]
  have hread := parse_timestamp hlong htimestamp
  have hone : (payload.take 1).length = 1 := by rw [length_take]; omega
  rw [hanswer]
  refine ⟨?_, ?_, ?_, ?_, ?_⟩
  · rw [isUnconnectedPong, hread]
    exact hpong
  · rw [← hresponse, length_append, length_append, hone, htimestamp, length_drop]
    omega
  · intro i hi
    rw [← hresponse]
    rcases hi with hi | hi
    · rw [append_assoc, List.getElem?_append_left (by omega), List.getElem?_take, if_pos hi]
    · rw [List.getElem?_append_right (by rw [length_append]; omega), List.getElem?_drop,
        length_append, hone, htimestamp]
      congr 1
      omega
  · intro i hfrom hto
    rw [append_assoc, List.getElem?_append_right (by omega), hone,
      List.getElem?_append_left (by omega), pingTimestamp, List.getElem?_take,
      if_pos (by omega), List.getElem?_drop]
    congr 1
    omega
  · cases horiginal : parseUnconnectedPong (stripResponse rule raw) with
    | none =>
      rw [hrewritten, rewritePong_of_none rule horiginal, horiginal] at hparse
      cases hparse
    | some original =>
      obtain ⟨rewritten, hparsed, hcount, hshows⟩ := rewritePong_keeps rule horiginal
      refine ⟨original, rewritten, rfl, by rw [hread, hrewritten, hparsed], ?_⟩
      intro hon port hport hmany hfits
      rw [hport] at hshows
      exact hshows hon (by omega) hfits

/-! ### What the steps write -/

namespace UdpProxy

variable {rule : ListenerRule} {udpSessionIdle : Duration} {proxy next : UdpProxy}
  {event : ProxyEvent} {sent : List ClientDatagram}

/-- What the step writes into the cache. -/
def cacheWrite (rule : ListenerRule) (proxy : UdpProxy) :
    ProxyEvent → Option (Option CachedPong)
  | .arrive id _ datagram _ =>
    (proxy.receiver id).bind (fun _ =>
      (pongToCache rule (datagram.take maxDatagramSize)).map
        (fun payload => some ⟨payload, proxy.clock⟩))
  | _ => none

/-- Where the step leaves the listener, if it is one of its own. -/
def stageWrite (rule : ListenerRule) (udpSessionIdle : Duration) (proxy : UdpProxy)
    (event : ProxyEvent) : Option ProxyStage :=
  if event.isListener then
    some (((silent (step rule udpSessionIdle) proxy event).map UdpProxy.stage).getD proxy.stage)
  else none

section

variable (h : proxy.step rule udpSessionIdle event = some (next, sent))

include h

theorem step_sharedPong :
    next.sharedPong = (proxy.cacheWrite rule event).getD proxy.sharedPong := by
  cases change_of_step h with
  | tick | copy | answer | task => rfl
  | listen hevent _ _ =>
    cases event with
    | receive | answer | obtain | forward => rfl
    | _ => cases hevent
  | @respond id source datagram sent task session listener hreceiver hrun =>
    dsimp only [cacheWrite]
    rw [hreceiver, bind_some]
    cases pongToCache rule (datagram.take maxDatagramSize) <;> rfl
  | lost hreceiver =>
    dsimp only [cacheWrite]
    rw [hreceiver]
    rfl

theorem step_stage :
    next.stage = (proxy.stageWrite rule udpSessionIdle event).getD proxy.stage := by
  unfold stageWrite
  split
  · rw [silent, h]
    rfl
  · rename_i hother
    cases change_of_step h with
    | tick | respond | lost | task => rfl
    | copy | answer => exact absurd rfl hother
    | listen hevent _ _ => exact absurd hevent hother

theorem step_clock : proxy.clock ≤ next.clock := by
  cases change_of_step h with
  | tick helapsed => exact le_add_of_nonneg_right helapsed
  | copy | answer | respond | listen | lost | task => exact le_rfl

end

/-! ### Every run -/

theorem run_clock (hrun : run (silent (step rule udpSessionIdle)) proxy events = some next) :
    proxy.clock ≤ next.clock := by
  have hreach := reaches_of_run hrun
  clear hrun
  induction hreach with
  | start => exact le_rfl
  | next _ _ hstep ih =>
    obtain ⟨sent, hafter⟩ := silent_eq_some_iff.mp hstep
    exact ih.trans (step_clock hafter)

/-- The copy that the listener has was made for the last datagram that it took. -/
theorem copied_before {peer : SocketAddr} {incoming : Incoming}
    (hrun : run (silent (step rule udpSessionIdle)) start events = some proxy)
    (hstage : proxy.stage = .answering peer incoming cached) :
    ∃ before packet waiting copying, events = before ++ .receive peer packet true :: waiting ∧
      run (silent (step rule udpSessionIdle)) start before = some copying ∧
      copying.clock ≤ proxy.clock ∧ copying.sharedPong = some cached ∧
      incoming = receiveDatagram rule peer (packet.take maxDatagramSize) ∧
      isOfflinePing incoming.payload = true ∧ ∀ event ∈ waiting, event.isListener = false := by
  have hstep : ∀ s a t, silent (step rule udpSessionIdle) s a = some t →
      t.stage = (stageWrite rule udpSessionIdle s a).getD s.stage := by
    intro s a t h
    obtain ⟨sent, hafter⟩ := silent_eq_some_iff.mp h
    exact step_stage hafter
  rcases written_last hstep hrun with ⟨hsame, _⟩ | ⟨before, event, waiting, copying, after, rfl,
    hbefore, hafter, hwrites, hwaiting, hquiet⟩
  · rw [hstage] at hsame
    cases hsame
  · have hnow := hstep copying event after hafter
    rw [hwrites, getD_some, hstage] at hnow
    have hlistener : event.isListener = true := by
      by_contra hother
      rw [stageWrite, if_neg hother] at hwrites
      cases hwrites
    have hother : ∀ s a, Unwritten (stageWrite rule udpSessionIdle) s a → a.isListener = false := by
      intro s a hunwritten
      cases hlistens : a.isListener with
      | false => rfl
      | true =>
        rw [Unwritten, stageWrite, if_pos hlistens] at hunwritten
        cases hunwritten
    obtain ⟨sent, hnext⟩ := silent_eq_some_iff.mp hafter
    have hclock := (step_clock hnext).trans (run_clock hwaiting)
    cases change_of_step hnext with
    | tick | lost | task | respond => cases hlistener
    | @copy _ packet _ hidle hcached =>
      cases hnow
      unfold cachedFor at hcached
      split at hcached
      · rename_i hping
        exact ⟨before, packet, waiting, copying, rfl, hbefore, hclock, hcached, rfl,
          (Bool.and_eq_true_iff.mp hping).2, forall_of_guarded hother hquiet hwaiting⟩
      · cases hcached
    | answer _ _ => cases hnow
    | listen _ _ hnot =>
      dsimp only at hnow
      rw [hnow] at hnot
      cases hnot

/-- What is in the cache was put there by a receive task, which has sent it to its client. -/
theorem cached_before (hrun : run (silent (step rule udpSessionIdle)) start events = some proxy)
    (hcached : proxy.sharedPong = some cached) :
    ∃ before id source datagram ok after arriving arrived client,
      events = before ++ .arrive id source datagram ok :: after ∧
      run (silent (step rule udpSessionIdle)) start before = some arriving ∧
      arriving.step rule udpSessionIdle (.arrive id source datagram ok) =
        some (arrived, [⟨client, backendResponse rule (datagram.take maxDatagramSize), ok⟩]) ∧
      pongToCache rule (datagram.take maxDatagramSize) = some cached.payload ∧
      cached.updatedAt = arriving.clock ∧ arriving.clock ≤ proxy.clock ∧
      Guarded (silent (step rule udpSessionIdle)) (Unwritten (cacheWrite rule)) arrived after := by
  have hstep : ∀ s a t, silent (step rule udpSessionIdle) s a = some t →
      t.sharedPong = (cacheWrite rule s a).getD s.sharedPong := by
    intro s a t h
    obtain ⟨sent, hafter⟩ := silent_eq_some_iff.mp h
    exact step_sharedPong hafter
  rcases written_last hstep hrun with ⟨hsame, _⟩ | ⟨before, event, after, arriving, arrived, rfl,
    hbefore, harrived, hwrites, hafter, hquiet⟩
  · rw [hcached] at hsame
    cases hsame
  · obtain ⟨sent, hnext⟩ := silent_eq_some_iff.mp harrived
    rw [hcached] at hwrites
    cases event with
    | arrive id source datagram ok =>
      obtain ⟨⟨task, session⟩, hreceiver, hpong⟩ := bind_eq_some_iff.mp hwrites
      obtain ⟨payload, hpayload, heq⟩ := map_eq_some_iff.mp hpong
      cases heq
      have hclock := (step_clock hnext).trans (run_clock hafter)
      cases change_of_step hnext with
      | respond _ _ =>
        exact ⟨before, id, source, datagram, ok, after, arriving, _, _, rfl, hbefore, hnext,
          hpayload, rfl, hclock, hquiet⟩
      | lost hnobody =>
        rw [hnobody] at hreceiver
        cases hreceiver
      | listen hevent _ _ => cases hevent
    | _ => cases hwrites

/-- A pong that was answered from the cache at the end of the run, and its history: a
datagram arrives at a session's socket, a receive task sends what it makes of it to its
client and caches it, nothing is cached until the client's ping comes, and nothing else is
received from clients until the answer. -/
def ComesFromCache (rule : ListenerRule) (udpSessionIdle : Duration) (events : List ProxyEvent)
    (now : Instant) (answer : ClientDatagram) : Prop :=
  ∃ before id source datagram ok between packet waiting arriving arrived client,
    events = before ++ .arrive id source datagram ok ::
      (between ++ .receive answer.peer packet true :: waiting) ∧
    run (silent (step rule udpSessionIdle)) start before = some arriving ∧
    arriving.step rule udpSessionIdle (.arrive id source datagram ok) =
      some (arrived, [⟨client, backendResponse rule (datagram.take maxDatagramSize), ok⟩]) ∧
    Guarded (silent (step rule udpSessionIdle)) (Unwritten (cacheWrite rule)) arrived between ∧
    (∀ event ∈ waiting, event.isListener = false) ∧
    arriving.clock ≤ now ∧ now - arriving.clock < 3 ∧
    AnswersPing rule (datagram.take maxDatagramSize)
      (receiveDatagram rule answer.peer (packet.take maxDatagramSize)).payload answer.bytes

theorem asMillis_lt {elapsed : Duration} (helapsed : 0 ≤ elapsed)
    (h : asMillis elapsed < pongCacheFreshMs) : elapsed < 3 := by
  unfold asMillis pongCacheFreshMs at h
  rw [Nat.floor_lt (by linarith)] at h
  push_cast at h
  linarith

/-- **Pongs from the cache are faithful.** -/
theorem cached_pong_faithful (rule : ListenerRule) (udpSessionIdle : Duration)
    {events : List ProxyEvent} {proxy next : UdpProxy} {taken : Bool} {sent : List ClientDatagram}
    (hrun : run (silent (step rule udpSessionIdle)) start events = some proxy)
    (hanswer : proxy.step rule udpSessionIdle (.answer taken) = some (next, sent)) :
    ∀ answer ∈ sent, ComesFromCache rule udpSessionIdle events proxy.clock answer := by
  intro answer hmem
  cases change_of_step hanswer with
  | @answer peer incoming cached _ hstage hfresh =>
    cases mem_singleton.mp hmem
    obtain ⟨first, packet, waiting, copying, rfl, hfirst, hclock, hcached, rfl, hping, hquiet⟩ :=
      copied_before hrun hstage
    obtain ⟨before, id, source, datagram, ok, between, arriving, arrived, client, rfl, hbefore,
      harrived, hpayload, hat, hle, hkept⟩ := cached_before hfirst hcached
    have hage := asMillis_lt (le_max_right _ _) hfresh
    refine ⟨before, id, source, datagram, ok, between, packet, waiting, arriving, arrived, client,
      by simp, hbefore, harrived, hkept, hquiet, hle.trans hclock, ?_,
      answersPing_immediatePong hpayload hping⟩
    rw [← hat]
    exact lt_of_le_of_lt (le_max_left _ _) hage
  | listen _ _ _ => cases hmem

end UdpProxy

/-! ### A ping of another player -/

def pingPacket (timestamp : Bytes) : Bytes := 0x01 :: timestamp ++ raknetOfflineMessageId

def pongPacket (motd : Text) : Bytes :=
  0x1c :: List.replicate 16 0 ++ raknetOfflineMessageId ++
    u16ToBE (UInt16.ofNat (toUtf8 motd).length) ++ toUtf8 motd

/-- A player's ping opens a session and goes to the backend. -/
def pingedBackend : List ProxyEvent :=
  [.receive playerAddr (pingPacket [1, 2, 3, 4, 5, 6, 7, 8]) true, .obtain .check,
    .obtain (.bindSocket true), .obtain .insert, .forward steadyNetwork]

def laterPlayer : SocketAddr := ⟨.v4 ⟨[203, 0, 113, 9], rfl⟩, 50000⟩

/-- The backend answers, and another player pings a second later. -/
def pingedTwice : List ProxyEvent :=
  pingedBackend ++
    [.arrive 0 backendAddr
        (pongPacket "MCPE;\"Probe\";390;1.20.0;0;10;123;;Survival;1;19133;19134;".toList) true,
      .tick 1, .receive laterPlayer (pingPacket [8, 7, 6, 5, 4, 3, 2, 1]) true]

/-- The second player is answered from the cache, with the listener's ports and with the
first line in place of the empty second one. -/
theorem cached_pong_faithful_later :
    ∃ proxy next answer,
      run (silent (UdpProxy.step bedrockRule 60)) .start pingedTwice = some proxy ∧
        proxy.step bedrockRule 60 (.answer true) = some (next, [answer]) ∧
        answer.bytes.drop 35 =
          toUtf8 "MCPE;Probe;390;1.20.0;0;10;123;Probe;Survival;1;19132;19132;".toList ∧
        UdpProxy.ComesFromCache bedrockRule 60 pingedTwice proxy.clock answer := by
  have hruns : ((run (silent (step bedrockRule 60)) .start pingedTwice).bind
      (fun proxy => (proxy.step bedrockRule 60 (.answer true)).map
        (fun r => r.2.map (fun answer => answer.bytes.drop 35)))) =
      some [toUtf8 "MCPE;Probe;390;1.20.0;0;10;123;Probe;Survival;1;19132;19132;".toList] := by
    decide +kernel
  obtain ⟨proxy, hrun, hstep⟩ := bind_eq_some_iff.mp hruns
  obtain ⟨⟨next, sent⟩, hanswer, hsent⟩ := map_eq_some_iff.mp hstep
  obtain ⟨answer, rfl, hbytes⟩ := map_eq_singleton_iff.mp hsent
  exact ⟨proxy, next, answer, hrun, hanswer, hbytes,
    cached_pong_faithful bedrockRule 60 hrun hanswer answer mem_cons_self⟩

end FerrumProxy
