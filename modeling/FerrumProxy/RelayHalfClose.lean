import FerrumProxy.CopyLoops
import FerrumProxy.ProxyChain

/-!
# Half-closed connections

A relayed TCP connection is two copy loops, one for each direction.  The shared relay
(`relay_tcp_connection`) runs them in a `select!`, which returns with the first one that returns and
drops the other; the proxy (`run_relay`) waits for both unless one fails.
-/

namespace FerrumProxy

open Wire Runs Copying

/-- The two loops of a connection. -/
inductive Direction where
  | clientToTarget
  | targetToClient
  deriving DecidableEq

instance : Fintype Direction :=
  ⟨{.clientToTarget, .targetToClient}, fun direction => by cases direction <;> simp⟩

def Direction.other : Direction → Direction
  | .clientToTarget => .targetToClient
  | .targetToClient => .clientToTarget

/-- The two loops of a connection. -/
abbrev RelayPipes := Direction → Pipe UInt8

abbrev RelayEvent := Direction × PipeEvent UInt8

/-- Each side has been given what the loop to it began with and everything the other has sent. -/
def RelayPipes.Delivers (initial : Direction → Bytes) (pipes : RelayPipes) : Prop :=
  ∀ direction, (pipes direction).written = initial direction ++ (pipes direction).sent

instance (initial : Direction → Bytes) (pipes : RelayPipes) : Decidable (pipes.Delivers initial) :=
  inferInstanceAs (Decidable (∀ _, _))

/-! ## The proxy -/

/-- `BUFFER_SIZE`, of the proxy and of the shared relay. -/
def relayBufferSize : Nat := 1024 * 1024

/-- `run_relay` returns when both loops have, or when one has failed. -/
def runRelayOver (pipes : RelayPipes) : Bool :=
  (pipes .clientToTarget).phase == .failed || (pipes .targetToClient).phase == .failed ||
    ((pipes .clientToTarget).phase == .ended && (pipes .targetToClient).phase == .ended)

/-- Two `pump`s, which ignore how their `shutdown` ends, under `run_relay`. -/
def runRelay : RelayPipes → RelayEvent → Option RelayPipes :=
  Copying.step relayBufferSize true runRelayOver

/-- What each `pump` is given to begin with. -/
def pumpInitial (initialClientPayload : Bytes) : Direction → Bytes
  | .clientToTarget => initialClientPayload
  | .targetToClient => []

def pumpStart (initialClientPayload : Bytes) : RelayPipes :=
  fun direction => { phase := .afterWrite (pumpInitial initialClientPayload direction) }

theorem pumpStart_sound (initialClientPayload : Bytes) :
    AllSound (pumpInitial initialClientPayload) (pumpStart initialClientPayload) := by
  intro direction
  have hphase := Phase.afterWrite_cases (pumpInitial initialClientPayload direction)
  exact ⟨by simp [pumpStart, Pipe.outstanding], hphase.1,
    fun h => absurd h (not_or.mpr ⟨hphase.2.1, hphase.2.2.1⟩), hphase.2.2.2⟩

variable {pipes next : RelayPipes} {event : RelayEvent}

section Pumps

variable {initialClientPayload : Bytes} {events : List RelayEvent}
  (hrun : run runRelay (pumpStart initialClientPayload) events = some pipes)
  (hok : ∀ event ∈ events, event.2.isFailure = false)

include hrun hok

theorem run_relay_sound : AllSound (pumpInitial initialClientPayload) pipes := by
  have hunfailing : Guarded runRelay Unfailing (pumpStart initialClientPayload) events :=
    guarded_of_forall (fun event hevent _ => hok event hevent) _
  exact (reaches_of_guarded hunfailing hrun).invariant (pumpStart_sound initialClientPayload)
    (fun _ _ _ => AllSound.step)

/-- A pump at rest has returned, or it has written everything and its source is still open. -/
theorem run_relay_settled (hrest : AtRest relayBufferSize true runRelayOver pipes)
    (direction : Direction) : (pipes direction).phase = .ended ∨
      (pipes direction).outstanding = [] ∧ (pipes direction).closed = false := by
  have hsound := run_relay_sound hrun hok
  by_cases hover : runRelayOver pipes = true
  · left
    have hc := (hsound .clientToTarget).unfailed
    have ht := (hsound .targetToClient).unfailed
    simp only [runRelayOver, Bool.or_eq_true, Bool.and_eq_true, beq_iff_eq, hc, ht, false_or]
      at hover
    cases direction with
    | clientToTarget => exact hover.1
    | targetToClient => exact hover.2
  · rw [Bool.not_eq_true] at hover
    exact (hsound direction).of_atRest (by decide) (hrest.pipe hover direction)

theorem run_relay_delivers (hrest : AtRest relayBufferSize true runRelayOver pipes) :
    pipes.Delivers (pumpInitial initialClientPayload) := by
  intro direction
  have hsound := run_relay_sound hrun hok direction
  rcases run_relay_settled hrun hok hrest direction with hended | hidle
  · exact hsound.written_of_ended hended
  · exact hsound.written_iff.mpr hidle.1

/-- **The proxy finishes its work.**  From wherever the pumps are, steps of their own lead to a
state in which each side has been given everything, and the end of each stream has been passed
on. -/
theorem run_relay_completes :
    ∃ more rest, (∀ event ∈ more, event.2.isOwn = true ∧ event.2.isFailure = false) ∧
      run runRelay pipes more = some rest ∧ rest.Delivers (pumpInitial initialClientPayload) ∧
      ∀ direction, (rest direction).closed = true → (rest direction).phase = .ended := by
  obtain ⟨more, rest, hown, hmore, hrest⟩ := exists_rest pipes
  have hall : run runRelay (pumpStart initialClientPayload) (events ++ more) = some rest := by
    rw [run_append, hrun]
    exact hmore
  have hallOk : ∀ event ∈ events ++ more, event.2.isFailure = false :=
    List.forall_mem_append.mpr ⟨hok, fun event hevent => (hown event hevent).2⟩
  refine ⟨more, rest, hown, hmore, run_relay_delivers hall hallOk hrest, fun direction hclosed => ?_⟩
  refine (run_relay_settled hall hallOk hrest direction).resolve_right (fun hopen => ?_)
  rw [hclosed] at hopen
  cases hopen.2

end Pumps

/-- A client ends its stream, and nothing has been read yet. -/
def halfClosed : List RelayEvent := [(.clientToTarget, .send [1]), (.clientToTarget, .close)]

/-- What a client has sent before it ends its stream is delivered. -/
theorem run_relay_completes_half_closed : ∃ pipes more rest,
    run runRelay (pumpStart [0]) halfClosed = some pipes ∧ run runRelay pipes more = some rest ∧
      rest.Delivers (pumpInitial [0]) := by
  have hrun : run runRelay (pumpStart [0]) halfClosed = some _ := rfl
  obtain ⟨more, rest, _, hmore, hdelivers, _⟩ := run_relay_completes hrun (by decide)
  exact ⟨_, more, rest, hrun, hmore, hdelivers⟩

/-! ## The shared relay -/

/-- The `select!` returns with the first loop. -/
def relayTcpConnectionOver (pipes : RelayPipes) : Bool :=
  (pipes .clientToTarget).phase.isOver || (pipes .targetToClient).phase.isOver

def relayTcpConnection : RelayPipes → RelayEvent → Option RelayPipes :=
  Copying.step relayBufferSize false relayTcpConnectionOver

/-- A public connection that has been given a client tunnel. -/
structure RelayedConnection where
  clientAddr : SocketAddr
  destinationAddr : SocketAddr
  haproxy : Bool

/-- What is written before the loops start: `START` to the tunnel, and a PROXY header if it was
registered with `HAPROXY`. -/
def RelayedConnection.initial (connection : RelayedConnection) : Direction → Bytes
  | .clientToTarget =>
    [0x53, 0x54, 0x41, 0x52, 0x54, 0x0a] ++
      if connection.haproxy then
        buildProxyV2Header connection.clientAddr connection.destinationAddr false
      else []
  | .targetToClient => []

def RelayedConnection.start (connection : RelayedConnection) : RelayPipes :=
  fun direction => { written := connection.initial direction }

theorem RelayedConnection.start_sound (connection : RelayedConnection) :
    AllSound connection.initial connection.start := by
  intro direction
  exact ⟨by simp [start, Pipe.outstanding, Phase.rest], by simp [start],
    fun h => by simp [start] at h, by simp [start]⟩

/-- A loop returns only when nothing is left to write in the other direction, and nothing is sent
to a relay that has returned. -/
def KeepsOther (pipes : RelayPipes) : RelayEvent → Prop
  | (direction, .shutdown) => (pipes direction.other).outstanding = []
  | (_, .send _) => relayTcpConnectionOver pipes = false
  | _ => True

instance (pipes : RelayPipes) (event : RelayEvent) : Decidable (KeepsOther pipes event) :=
  match event with
  | (direction, .shutdown) => inferInstanceAs (Decidable ((pipes direction.other).outstanding = []))
  | (_, .send _) => inferInstanceAs (Decidable (relayTcpConnectionOver pipes = false))
  | (_, .close) | (_, .read _) | (_, .readEnd) | (_, .write _) | (_, .fail) => isTrue trivial

theorem over_of_phase (direction : Direction) (h : (pipes direction).phase.isOver = true) :
    relayTcpConnectionOver pipes = true := by
  cases direction <;> simp [relayTcpConnectionOver, h]

theorem Direction.other_ne (direction : Direction) : direction.other ≠ direction := by
  cases direction <;> decide

open Function

/-- Nothing is left to write when the relay returns. -/
def ReturnsEmpty (pipes : RelayPipes) : Prop :=
  relayTcpConnectionOver pipes = true → ∀ direction, (pipes direction).outstanding = []

/-- A loop that goes on is not the one that has returned.  One that returns has written all it had,
and `KeepsOther` says the same of the other; what is sent to a relay that has returned is lost. -/
theorem returnsEmpty_iff {initial : Direction → Bytes} (hsound : AllSound initial pipes)
    (hok : Unfailing pipes event) (hstep : relayTcpConnection pipes event = some next) :
    ReturnsEmpty next ↔ ReturnsEmpty pipes ∧ KeepsOther pipes event := by
  obtain ⟨direction, event⟩ := event
  obtain ⟨hgo, pipe, hpipe, rfl⟩ := step_eq_some.mp hstep
  have hquiet : pipe.phase.isOver = (pipes direction).phase.isOver →
      relayTcpConnectionOver (update pipes direction pipe) =
        relayTcpConnectionOver pipes := by
    intro hsame
    cases direction <;> simp [relayTcpConnectionOver, hsame]
  cases Pipe.step_iff.mp hpipe with
  | send items hopen hne =>
    rw [ReturnsEmpty, hquiet rfl, ReturnsEmpty, KeepsOther]
    cases relayTcpConnectionOver pipes with
    | false => simp
    | true =>
      refine iff_of_false (fun hempty => ?_) (by simp)
      have hsent := hempty rfl direction
      rw [update_self] at hsent
      simp [Pipe.outstanding, hne] at hsent
  | close hopen =>
    refine Iff.trans ?_ (and_iff_left trivial).symm
    rw [ReturnsEmpty, hquiet rfl, ReturnsEmpty]
    refine imp_congr_right fun _ => forall_congr' fun other => ?_
    by_cases heq : other = direction
    · rw [heq, update_self]
      rfl
    · rw [update_of_ne heq]
  | read count hphase _ _ _ | readEnd hphase _ _ =>
    simp [ReturnsEmpty, hquiet (by rw [hphase]; rfl), hgo rfl, KeepsOther]
  | write count rest hphase _ _ =>
    simp [ReturnsEmpty, hquiet (by rw [hphase]; cases rest.drop count <;> rfl), hgo rfl, KeepsOther]
  | shutdown hphase =>
    have hbusy : ReturnsEmpty pipes := fun hover => by
      rw [hgo rfl] at hover
      cases hover
    rw [and_iff_right hbusy]
    constructor
    · intro hempty
      have hother := hempty (over_of_phase direction (by rw [update_self]; rfl)) direction.other
      rwa [update_of_ne direction.other_ne] at hother
    · intro hkeeps _ other
      by_cases heq : other = direction
      · rw [heq, update_self, Pipe.outstanding]
        exact ((hsound direction).drained (.inl hphase)).2
      · have hother : other = direction.other := by
          cases other <;> cases direction <;> first | rfl | exact absurd rfl heq
        rw [update_of_ne heq, hother]
        exact hkeeps
  | fail phase hphase => cases hok

/-- **What the shared relay delivers.**  Each side has been given everything the other has sent
exactly when the loop that returned first had left nothing to write in the other direction, and no
side has sent anything since. -/
theorem relay_delivers_iff {connection : RelayedConnection} {events : List RelayEvent}
    {pipes : RelayPipes} (hrun : run relayTcpConnection connection.start events = some pipes)
    (hok : ∀ event ∈ events, event.2.isFailure = false)
    (hrest : AtRest relayBufferSize false relayTcpConnectionOver pipes) :
    pipes.Delivers connection.initial ↔
      Guarded relayTcpConnection KeepsOther connection.start events := by
  have hunfailing : Guarded relayTcpConnection Unfailing connection.start events :=
    guarded_of_forall (fun event hevent _ => hok event hevent) _
  have hsound : AllSound connection.initial pipes :=
    (reaches_of_guarded hunfailing hrun).invariant connection.start_sound
      (fun _ _ _ => AllSound.step)
  have hdelivers : pipes.Delivers connection.initial ↔
      ∀ direction, (pipes direction).outstanding = [] :=
    forall_congr' (fun direction => (hsound direction).written_iff)
  rw [hdelivers]
  have hreturns : ReturnsEmpty connection.start := by
    simp [ReturnsEmpty, RelayedConnection.start, relayTcpConnectionOver, Phase.isOver]
  have hkept := guarded_iff_kept connection.start_sound hunfailing (fun _ _ _ => AllSound.step)
    (fun _ _ _ => returnsEmpty_iff) hrun
  rw [and_iff_right hreturns] at hkept
  rw [← hkept]
  refine ⟨fun hempty _ => hempty, fun hempty direction => ?_⟩
  by_cases hover : relayTcpConnectionOver pipes = true
  · exact hempty hover direction
  · rw [Bool.not_eq_true] at hover
    have hidle := (hsound direction).of_atRest (by decide) (hrest.pipe hover direction)
    rcases hidle with hended | hidle
    · rw [over_of_phase direction (by rw [hended]; rfl)] at hover
      cases hover
    · exact hidle.1

def plainConnection : RelayedConnection where
  clientAddr := ⟨.v4 ⟨[203, 0, 113, 1], rfl⟩, 50000⟩
  destinationAddr := ⟨.v4 ⟨[192, 0, 2, 1], rfl⟩, 30000⟩
  haproxy := false

/-- A client that ends its stream when it has the response to its request. -/
def wholeExchange : List RelayEvent :=
  [(.clientToTarget, .send [1]), (.clientToTarget, .read 1), (.clientToTarget, .write 1),
    (.targetToClient, .send [2]), (.targetToClient, .read 1), (.targetToClient, .write 1),
    (.clientToTarget, .close), (.clientToTarget, .readEnd), (.clientToTarget, .shutdown)]

/-- A client that waits for the response gets it. -/
theorem relay_delivers_whole_exchange :
    ∃ pipes, run relayTcpConnection plainConnection.start wholeExchange = some pipes ∧
      pipes.Delivers plainConnection.initial :=
  ⟨_, rfl, (@relay_delivers_iff plainConnection wholeExchange _ rfl (by decide)
    (atRest_of_over rfl)).mpr (by decide)⟩

/-- A client that ends its stream with its request, as a client that sends one request may. -/
def halfClosedExchange : List RelayEvent :=
  [(.clientToTarget, .send [1]), (.clientToTarget, .close), (.clientToTarget, .read 1),
    (.clientToTarget, .write 1), (.clientToTarget, .readEnd), (.clientToTarget, .shutdown),
    (.targetToClient, .send [2]), (.targetToClient, .close)]

/-- The shared relay is at rest and the response is lost, which the proxy would have delivered. -/
theorem response_lost :
    (∀ event ∈ halfClosedExchange, event.2.isFailure = false) ∧
      ∃ pipes, run relayTcpConnection plainConnection.start halfClosedExchange = some pipes ∧
        AtRest relayBufferSize false relayTcpConnectionOver pipes ∧
        (pipes .targetToClient).sent = [2] ∧ (pipes .targetToClient).closed = true ∧
        (pipes .targetToClient).written = [] ∧ ¬ pipes.Delivers plainConnection.initial :=
  ⟨by decide, _, rfl, atRest_of_over rfl, rfl, rfl, rfl, by decide⟩

end FerrumProxy
