import FerrumProxy.HiddenSteps
import FerrumProxy.PongCache

/-!
# Who speaks for the backend

A session's socket is bound, not connected, so that anybody can send to it, and `spawn_backend_recv`
does not look at the sender of what it receives: it forwards all of it and caches every pong.  (The
UDP tunnel of the desktop client makes this check for its local service.)
-/

namespace FerrumProxy

open Str Wire Runs

namespace UdpProxy

/-- The addresses that the session has resolved its targets to. -/
def resolvedTargets (proxy : UdpProxy) (id : Nat) : List SocketAddr :=
  match proxy.sessions.lookup id with
  | some session => session.upstream.resolvedTargets.reduceOption
  | none => []

/-- A datagram arrives from another address than the session's targets. -/
def FromStranger (proxy : UdpProxy) : ProxyEvent → Prop
  | .arrive id source _ _ => source ∉ proxy.resolvedTargets id
  | _ => False

instance (proxy : UdpProxy) : ∀ event, Decidable (proxy.FromStranger event)
  | .arrive id source _ _ => inferInstanceAs (Decidable (source ∉ proxy.resolvedTargets id))
  | .tick _ | .receive _ _ _ | .answer _ | .obtain _ | .forward _ | .task _ _ => isFalse id

/-- A receive task takes a datagram only from one of the session's targets. -/
def HeedsTargets (proxy : UdpProxy) : ProxyEvent → Prop
  | .arrive id source _ _ =>
    (proxy.receiver id).isSome = true → source ∈ proxy.resolvedTargets id
  | _ => True

instance (proxy : UdpProxy) : ∀ event, Decidable (proxy.HeedsTargets event)
  | .arrive id source _ _ => inferInstanceAs
      (Decidable ((proxy.receiver id).isSome = true → source ∈ proxy.resolvedTargets id))
  | .tick _ | .receive _ _ _ | .answer _ | .obtain _ | .forward _ | .task _ _ => isTrue trivial

variable {rule : ListenerRule} {udpSessionIdle : Duration} {proxy next : UdpProxy}
  {event : ProxyEvent} {sent : List ClientDatagram}

/-- A stranger's datagram that nobody takes changes nothing. -/
theorem step_of_unheard (hstranger : proxy.FromStranger event) (hheeds : proxy.HeedsTargets event) :
    proxy.step rule udpSessionIdle event = some (proxy, []) := by
  cases event with
  | arrive id source datagram ok =>
    have hnobody : proxy.receiver id = none := by
      cases hreceiver : proxy.receiver id with
      | none => rfl
      | some found => exact absurd (hheeds (by rw [hreceiver]; rfl)) hstranger
    dsimp only [step]
    rw [hnobody]
  | _ => cases hstranger

/-- What a receive task takes is forwarded, whoever has sent it. -/
theorem sent_of_heard (hheard : ¬ proxy.HeedsTargets event)
    (hstep : proxy.step rule udpSessionIdle event = some (next, sent)) :
    proxy.FromStranger event ∧ sent ≠ [] := by
  cases event with
  | arrive id source datagram ok =>
    obtain ⟨hreceiver, hstranger⟩ := Classical.not_imp.mp hheard
    refine ⟨hstranger, ?_⟩
    cases change_of_step hstep with
    | respond _ _ => exact List.cons_ne_nil _ _
    | lost hnobody =>
      rw [hnobody] at hreceiver
      cases hreceiver
    | listen hevent _ _ => cases hevent
  | _ => exact absurd trivial hheard

/-- **When strangers cannot speak for the backend.**  The second run takes nothing from
strangers, and the first one differs from it only in what strangers send: at all times the
clients have got the same datagrams and the cache holds the same pong, exactly if the
first run takes nothing from strangers either. -/
theorem strangers_unheard_iff (rule : ListenerRule) (udpSessionIdle : Duration)
    {first second : List ProxyEvent} {afterFirst afterSecond : UdpProxy}
    (hfirst : run (silent (step rule udpSessionIdle)) start first = some afterFirst)
    (hsecond : run (silent (step rule udpSessionIdle)) start second = some afterSecond)
    (hsame : visible (step rule udpSessionIdle) FromStranger start first =
      visible (step rule udpSessionIdle) FromStranger start second)
    (hquiet : Guarded (silent (step rule udpSessionIdle)) HeedsTargets start second) :
    (∀ p₁ p₂, p₁ <+: first → p₂ <+: second →
        visible (step rule udpSessionIdle) FromStranger start p₁ =
          visible (step rule udpSessionIdle) FromStranger start p₂ →
        LooksSame (step rule udpSessionIdle) ClientDatagram.peer sharedPong start p₁ p₂) ↔
      Guarded (silent (step rule udpSessionIdle)) HeedsTargets start first :=
  looksSame_iff (fun _ _ => step_of_unheard) (fun _ _ _ _ => sent_of_heard) hfirst hsecond hsame
    hquiet

end UdpProxy

open UdpProxy

/-! ### A stranger's pong -/

def strangerAddr : SocketAddr := ⟨.v4 ⟨[198, 51, 100, 66], rfl⟩, 19133⟩

/-- A stranger answers the ping that has opened the session. -/
def strangerPong : ProxyEvent :=
  .arrive 0 strangerAddr (pongPacket "MCPE;Join;390;1.20.0;0;10;123;Join;;;;".toList) true

/-- The stranger is late: the socket has failed and the session is over. -/
theorem strangers_unheard_late :
    LooksSame (step bedrockRule 60) ClientDatagram.peer sharedPong .start
      (pingedBackend ++ [.task 0 .socketError] ++ [strangerPong])
      (pingedBackend ++ [.task 0 .socketError]) := by
  obtain ⟨afterFirst, hfirst⟩ := Option.isSome_iff_exists.mp
    (show (run (silent (step bedrockRule 60)) .start
      (pingedBackend ++ [.task 0 .socketError] ++ [strangerPong])).isSome = true by decide +kernel)
  obtain ⟨afterSecond, hsecond, hstranger⟩ := Option.map_eq_some_iff.mp
    (show (run (silent (step bedrockRule 60)) .start
      (pingedBackend ++ [.task 0 .socketError])).map
        (fun proxy => decide (proxy.FromStranger strangerPong)) = some true by decide +kernel)
  have hvisible := visible_concat hsecond (of_decide_eq_true hstranger)
  have hunheard := (strangers_unheard_iff bedrockRule 60 hfirst hsecond hvisible
    (by decide +kernel)).mpr (by decide +kernel)
  exact hunheard _ _ List.prefix_rfl List.prefix_rfl hvisible

/-- **A stranger speaks for the backend.**  The player gets the pong, and so will all others
from the cache. -/
theorem stranger_heard :
    ¬ ∀ (rule : ListenerRule) (udpSessionIdle : Duration) (first second : List ProxyEvent)
        (afterFirst afterSecond : UdpProxy),
      run (silent (step rule udpSessionIdle)) .start first = some afterFirst →
      run (silent (step rule udpSessionIdle)) .start second = some afterSecond →
      visible (step rule udpSessionIdle) FromStranger .start first =
        visible (step rule udpSessionIdle) FromStranger .start second →
      LooksSame (step rule udpSessionIdle) ClientDatagram.peer sharedPong .start
        first second := by
  intro hall
  obtain ⟨afterFirst, hfirst⟩ := Option.isSome_iff_exists.mp
    (show (run (silent (step bedrockRule 60)) .start
      (pingedBackend ++ [strangerPong])).isSome = true by decide +kernel)
  obtain ⟨afterSecond, hsecond, hstranger⟩ := Option.map_eq_some_iff.mp
    (show (run (silent (step bedrockRule 60)) .start pingedBackend).map
      (fun proxy => decide (proxy.FromStranger strangerPong)) = some true by decide +kernel)
  have hlooks := hall bedrockRule 60 _ _ afterFirst afterSecond hfirst hsecond
    (visible_concat hsecond (of_decide_eq_true hstranger))
  have hplayer := congrArg (Option.map List.length) (hlooks.1 playerAddr)
  revert hplayer
  decide +kernel

end FerrumProxy
