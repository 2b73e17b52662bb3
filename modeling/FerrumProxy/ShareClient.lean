import FerrumProxy.GuardedRuns

/-!
# Ports of the command-line client

`RelayShareClient` holds one public port of a shared relay.  `start` asks for it with `CONNECT`,
`stop` gives it back with `RELEASE`, and a heartbeat that fails replaces it:
`refreshRelayAllocation` sends `RELEASE` for the old port and `CONNECT` for a new one.  Each command
goes over a connection of its own (`sendRelayCommand`) with three awaits: connect, write, read the
answer.

The machine takes one step from one await to the next.  Any number of operations may be under way;
commands that were written wait at the relay, and the client may have stopped waiting by then.
-/

namespace FerrumProxy

open Runs Pool

/-- A command for the control port of the relay. -/
inductive RelayCommand where
  | stats
  | token
  | connect
  | release (port : Nat)
  | ping
  deriving DecidableEq

/-- An answer of the relay: the one that is hoped for, a port, or an error. -/
inductive RelayReply where
  | accepted
  | granted (port : Nat)
  | refused
  deriving DecidableEq

/-- The relay serves a command.  It grants only ports that are free. -/
def RelayCommand.serve (allocated : Nat → Bool) : RelayCommand → RelayReply → Option (Nat → Bool)
  | .connect, .granted port =>
    if allocated port then none else some (Function.update allocated port true)
  | .connect, .refused => some allocated
  | .release port, .accepted => some (Function.update allocated port false)
  | .token, .refused => some allocated
  | .token, .accepted => some allocated
  | .stats, .accepted => some allocated
  | .ping, .accepted => some allocated
  | _, _ => none

/-- The await of `sendRelayCommand` an operation has come to; an answer that has arrived is
read at the next step. -/
inductive CommandPhase where
  | connecting
  | writing
  | reading
  | answered (reply : RelayReply)
  deriving DecidableEq

/-- The command an operation of the client waits for. -/
inductive ShareAwait where
  | startStats
  | startToken
  | startConnect
  | stopRelease (port : Nat)
  | heartbeatPing
  | refreshRelease (port : Nat)
  | refreshConnect
  deriving DecidableEq

namespace ShareAwait

def command : ShareAwait → RelayCommand
  | .startStats => .stats
  | .startToken => .token
  | .startConnect => .connect
  | .stopRelease port => .release port
  | .heartbeatPing => .ping
  | .refreshRelease port => .release port
  | .refreshConnect => .connect

/-- `start` and `refreshRelayAllocation` are on their way to a new port. -/
def allocates : ShareAwait → Bool
  | .stopRelease _ => false
  | .heartbeatPing => false
  | _ => true

end ShareAwait

/-- A command under way.  Its socket is tracked from the connection on, and may have been
destroyed by another operation since. -/
structure ShareTask where
  await : ShareAwait
  phase : CommandPhase := .connecting
  destroyed : Bool := false
  deriving DecidableEq

namespace ShareTask

/-- `socket.destroy()` on a tracked socket. -/
def destroy (task : ShareTask) : ShareTask :=
  if task.phase = .connecting then task else { task with destroyed := true }

/-- The command has not been written yet. -/
def unsent (task : ShareTask) : Bool :=
  match task.phase with
  | .connecting => true
  | .writing => true
  | _ => false

end ShareTask

/-- The client, and the relay as far as it serves this client. -/
structure ShareClient where
  stopped : Bool := false
  reconnecting : Bool := false
  heartbeatTimer : Bool := false
  endpoint : Option Nat := none
  /-- The operations under way, by the socket of the command they wait for. -/
  tasks : Pool ShareTask := ∅
  /-- The commands written and not served yet, by socket. -/
  inbox : Pool RelayCommand := ∅
  allocated : Nat → Bool := fun _ => false

/-- The steps of the client and of the relay. -/
inductive ShareEvent where
  | start (socket : Nat)
  | stop (socket : Nat)
  | heartbeat (socket : Nat)
  | connected (socket : Nat)
  | wrote (socket : Nat)
  | replied (socket next : Nat)
  | failed (socket next : Nat)
  | serve (socket : Nat) (reply : RelayReply)
  deriving DecidableEq

open ShareTask

open Option

namespace ShareClient

/-- A socket that was not used before. -/
def Fresh (s : ShareClient) (socket : Nat) : Prop :=
  s.tasks.lookup socket = none ∧ s.inbox.lookup socket = none

instance (s : ShareClient) (socket : Nat) : Decidable (s.Fresh socket) :=
  inferInstanceAs (Decidable (_ ∧ _))

/-- `sendRelayCommand`. -/
def send (s : ShareClient) (socket : Nat) (await : ShareAwait) : ShareClient :=
  { s with tasks := s.tasks.put socket { await } }

/-- `sendRelayCommand` returns or throws. -/
def close (s : ShareClient) (socket : Nat) : ShareClient :=
  { s with tasks := s.tasks.drop socket }

/-- The allocation over a socket ends. -/
def settle (s : ShareClient) (socket : Nat) (endpoint : Option Nat)
    (heartbeatTimer reconnecting : Bool) : ShareClient :=
  { s.close socket with endpoint, heartbeatTimer, reconnecting }

def destroySockets (s : ShareClient) : ShareClient :=
  { s with tasks := s.tasks.map ShareTask.destroy }

def halt (s : ShareClient) : ShareClient := { s with stopped := true, heartbeatTimer := false }

/-- `stop`, up to its first await. -/
def stop (s : ShareClient) (socket : Nat) : ShareClient :=
  match s.endpoint with
  | some port => s.halt.send socket (.stopRelease port)
  | none => s.halt.destroySockets

/-- `refreshRelayAllocation`, up to its first await. -/
def refreshRelayAllocation (s : ShareClient) (socket : Nat) : ShareClient :=
  match s.endpoint with
  | some port =>
    { s with reconnecting := true }.destroySockets.send socket (.refreshRelease port)
  | none => { s with reconnecting := true }.destroySockets.send socket .refreshConnect

/-- An operation goes on with the answer to its command; without one if the connection, the
write or the read failed, ended or took too long.  The next command goes over a new socket. -/
def resume (hasToken : Bool) (s : ShareClient) (next : Nat) (reply : Option RelayReply) :
    ShareAwait → ShareClient
  | .startStats =>
    if reply = some .accepted then
      s.send next (if hasToken then .startToken else .startConnect)
    else s
  | .startToken => if reply = some .accepted then s.send next .startConnect else s
  | .startConnect =>
    match reply with
    | some (.granted port) => { s with endpoint := some port, heartbeatTimer := true }
    | _ => s
  | .stopRelease _ => s.destroySockets
  | .heartbeatPing => if reply = some .accepted then s else s.refreshRelayAllocation next
  | .refreshRelease _ => s.send next .refreshConnect
  | .refreshConnect =>
    match reply with
    | some (.granted port) => { s with endpoint := some port, reconnecting := false }
    | _ => { s with reconnecting := false }

/-- The answer reaches the socket if it is still open. -/
def deliver (s : ShareClient) (socket : Nat) (reply : RelayReply) : Pool ShareTask :=
  match s.tasks.lookup socket with
  | some task =>
    if task.destroyed then s.tasks
    else s.tasks.put socket { task with phase := .answered reply }
  | none => s.tasks

/-- A step of the client or of the relay. -/
def step (hasToken : Bool) (s : ShareClient) : ShareEvent → Option ShareClient
  | .start socket => if s.Fresh socket then some (s.send socket .startStats) else none
  | .stop socket => if s.Fresh socket then some (s.stop socket) else none
  | .heartbeat socket =>
    if s.heartbeatTimer = true ∧ s.Fresh socket then
      some (if s.stopped || s.reconnecting then s else s.send socket .heartbeatPing)
    else none
  | .connected socket =>
    (s.tasks.lookup socket).bind fun task =>
      if task.phase = .connecting then
        some { s with tasks := s.tasks.put socket { task with phase := .writing } }
      else none
  | .wrote socket =>
    (s.tasks.lookup socket).bind fun task =>
      if task.phase = .writing ∧ task.destroyed = false then
        some { s with
          tasks := s.tasks.put socket { task with phase := .reading }
          inbox := s.inbox.put socket task.await.command }
      else none
  | .replied socket next =>
    (s.tasks.lookup socket).bind fun task =>
      match task.phase with
      | .answered reply =>
        if s.Fresh next then
          some ((s.close socket).resume hasToken next (some reply) task.await)
        else none
      | _ => none
  | .failed socket next =>
    (s.tasks.lookup socket).bind fun task =>
      if s.Fresh next then some ((s.close socket).resume hasToken next none task.await) else none
  | .serve socket reply =>
    (s.inbox.lookup socket).bind fun command =>
      (command.serve s.allocated reply).map fun allocated =>
        { s with
          allocated
          inbox := s.inbox.drop socket
          tasks := s.deliver socket reply }

/-- No allocation is under way. -/
def Idle (s : ShareClient) : Prop := s.tasks.All (fun task => task.await.allocates = false)

/-- A `RELEASE` for the port is going to reach the relay, or has. -/
def Releasing (s : ShareClient) (port : Nat) : Prop :=
  s.tasks.Any (fun task => task.await.command = .release port ∧ task.unsent = true ∧
    task.destroyed = false) ∨
  s.inbox.Any (fun command => command = .release port)

/-- An operation is about to read that it has got the port. -/
def Granted (s : ShareClient) (port : Nat) : Prop :=
  s.tasks.Any (fun task => task.await.command = .connect ∧ task.phase = .answered (.granted port))

/-- The port is going to be released, or the client is not stopped and knows it. -/
def Accounted (s : ShareClient) (port : Nat) : Prop :=
  s.Releasing port ∨
    s.stopped = false ∧ (s.Granted port ∨ s.endpoint = some port ∧ s.Idle)

/-- What holds of every command under way. -/
structure Fits (s : ShareClient) (socket : Nat) (task : ShareTask) : Prop where
  intact : task.await.allocates = true → task.destroyed = false
  quiet : s.stopped = true → task.await.allocates = false
  stops : ∀ port, task.await = .stopRelease port → s.stopped = true ∧ s.endpoint = some port
  pongs : task.await = .heartbeatPing → ∀ reply, task.phase = .answered reply → reply = .accepted
  sent : ∀ command, s.inbox.lookup socket = some command →
    task.phase = .reading ∧ task.await.command = command
  served : ∀ port, task.await.command = .release port → task.unsent = false →
    s.inbox.lookup socket = some (.release port) ∨ s.allocated port = false

/-- At most one allocation is under way, and commands agree with what waits at the relay. -/
structure Tidy (s : ShareClient) : Prop where
  one : ∀ socket other task found, s.tasks.lookup socket = some task →
    s.tasks.lookup other = some found → task.await.allocates = true →
    found.await.allocates = true → other = socket
  fits : ∀ socket task, s.tasks.lookup socket = some task → s.Fits socket task
  waits : ∀ socket, s.inbox.lookup socket = some .connect → (s.tasks.lookup socket).isSome = true

/-- What holds at every step of an orderly run. -/
structure Sound (s : ShareClient) : Prop extends Tidy s where
  accounted : ∀ port, s.allocated port = true → s.Accounted port

/-- When a connection may fail, or its answer be given up.  A `RELEASE` has been written, a
`CONNECT` has not; and a heartbeat that fails begins an allocation. -/
def MayFail (s : ShareClient) (task : ShareTask) : Prop :=
  match task.await with
  | .startConnect => task.unsent = true
  | .refreshConnect => task.unsent = true
  | .stopRelease port => task.unsent = false ∨ s.allocated port = false
  | .refreshRelease port => task.unsent = false ∨ s.allocated port = false
  | .heartbeatPing => s.stopped = false ∧ s.Idle
  | _ => True

instance (s : ShareClient) : Decidable s.Idle := inferInstanceAs (Decidable (All _ _))

instance (s : ShareClient) : ∀ task, Decidable (s.MayFail task)
  | ⟨.startConnect, _, _⟩ | ⟨.refreshConnect, _, _⟩ => inferInstanceAs (Decidable (_ = _))
  | ⟨.stopRelease _, _, _⟩ | ⟨.refreshRelease _, _, _⟩ => inferInstanceAs (Decidable (_ ∨ _))
  | ⟨.heartbeatPing, _, _⟩ => inferInstanceAs (Decidable (_ ∧ _))
  | ⟨.startStats, _, _⟩ | ⟨.startToken, _, _⟩ => inferInstanceAs (Decidable True)

/-- Allocations begin one at a time and while the client runs; `start` without an endpoint, and
`stop` with no allocation under way. -/
def Orderly (s : ShareClient) : ShareEvent → Prop
  | .start _ => s.stopped = false ∧ s.endpoint = none ∧ s.Idle
  | .stop _ => s.Idle
  | .failed socket _ => ∀ task, s.tasks.lookup socket = some task → s.MayFail task
  | _ => True

instance (s : ShareClient) : ∀ event, Decidable (s.Orderly event)
  | .start _ => inferInstanceAs (Decidable (_ ∧ _ ∧ _))
  | .stop _ => inferInstanceAs (Decidable s.Idle)
  | .failed socket _ =>
    match hlookup : s.tasks.lookup socket with
    | none => isTrue (fun _ htask => nomatch hlookup.symm.trans htask)
    | some task => decidable_of_iff (s.MayFail task) (by simp [Orderly, hlookup])
  | .heartbeat _ | .connected _ | .wrote _ | .replied _ _ | .serve _ _ =>
    inferInstanceAs (Decidable True)

variable {hasToken : Bool} {s t : ShareClient} {socket : Nat} {task : ShareTask}

/-! ## Facts about sound states -/

theorem Fits.congr (h : s.Fits socket task) (hstopped : t.stopped = s.stopped)
    (hendpoint : t.endpoint = s.endpoint) (hallocated : t.allocated = s.allocated)
    (hinbox : t.inbox.lookup socket = s.inbox.lookup socket) : t.Fits socket task where
  intact := h.intact
  quiet := hstopped ▸ h.quiet
  stops := by
    rw [hstopped, hendpoint]
    exact h.stops
  pongs := h.pongs
  sent := hinbox ▸ h.sent
  served := by
    rw [hinbox, hallocated]
    exact h.served

variable {await : ShareAwait} {port other : Nat} {next found : ShareTask} {command : RelayCommand}
  {reply : RelayReply} {after : Nat → Bool}

theorem allocates_of_connect (h : await.command = .connect) : await.allocates = true := by
  cases await <;> first | rfl | cases h

theorem Tidy.running (h : s.Tidy) (hlookup : s.tasks.lookup socket = some task)
    (halloc : task.await.allocates = true) : s.stopped = false := by
  by_contra hnot
  have hquiet := (h.fits socket task hlookup).quiet (by simpa using hnot)
  exact nomatch halloc.symm.trans hquiet

/-- During an allocation every port but its own is being released. -/
theorem Sound.releasing (h : s.Sound) (hlookup : s.tasks.lookup socket = some task)
    (halloc : task.await.allocates = true) (hport : s.allocated port = true) :
    s.Releasing port ∨
      task.await.command = .connect ∧ task.phase = .answered (.granted port) := by
  rcases h.accounted port hport with
    hrel | ⟨_, ⟨other, found, hfound, hconnect, hphase⟩ | ⟨_, hidle⟩⟩
  · exact .inl hrel
  · have hother : other = socket :=
      h.one socket other task found hlookup hfound halloc (allocates_of_connect hconnect)
    subst hother
    cases lookup_unique hlookup hfound
    exact .inr ⟨hconnect, hphase⟩
  · exact absurd halloc (by simp [hidle socket task hlookup])

/-! ## Primitive changes -/

theorem Idle.put (h : s.Idle) (hlookup : s.tasks.lookup socket = some task)
    (hawait : next.await = task.await) :
    (s.tasks.put socket next).All (fun found => found.await.allocates = false) :=
  All.put h (hawait ▸ h socket task hlookup)

/-- A command that waits for no answer yet goes on, and nothing else changes. -/
theorem Sound.progress (h : s.Sound) (hlookup : s.tasks.lookup socket = some task)
    (hunsent : task.unsent = true) (htasks : t.tasks = s.tasks.put socket next)
    (hawait : next.await = task.await) (hstopped : t.stopped = s.stopped)
    (hendpoint : t.endpoint = s.endpoint) (hallocated : t.allocated = s.allocated)
    (hinbox : ∀ other, other ≠ socket → t.inbox.lookup other = s.inbox.lookup other)
    (hfits : t.Fits socket next) (hrel : ∀ port, s.Releasing port → t.Releasing port) :
    t.Sound where
  one := by
    intro first second one two hone htwo
    rw [htasks, lookup_put] at hone htwo
    have := h.one
    grind
  fits := by
    intro other found hfound
    rw [htasks] at hfound
    rcases put_eq_some hfound with ⟨rfl, rfl⟩ | ⟨hne, hold⟩
    · exact hfits
    · exact (h.fits other found hold).congr hstopped hendpoint hallocated (hinbox other hne)
  waits := by
    intro other hother
    rw [htasks, lookup_put]
    split
    · rfl
    · next hne => exact h.waits other (hinbox other hne ▸ hother)
  accounted := by
    intro port hport
    unfold Accounted Granted Idle
    rw [hstopped, hendpoint, htasks]
    rcases h.accounted port (hallocated ▸ hport) with
      hold | ⟨hrunning, hgranted | ⟨hend, hidle⟩⟩
    · exact .inl (hrel port hold)
    · refine .inr ⟨hrunning, .inl (hgranted.put ?_)⟩
      intro old hold hP
      cases lookup_unique hlookup hold
      simp [unsent, hP.2] at hunsent
    · exact .inr ⟨hrunning, .inr ⟨hend, hidle.put hlookup hawait⟩⟩

/-- A command that is not written yet does not wait at the relay. -/
theorem Fits.not_sent (h : s.Fits socket task) (hunsent : task.unsent = true) :
    s.inbox.lookup socket ≠ some command := by
  intro hcommand
  simp [unsent, (h.sent command hcommand).1] at hunsent

theorem Sound.connected (h : s.Sound) (hlookup : s.tasks.lookup socket = some task)
    (hphase : task.phase = .connecting) :
    Sound { s with tasks := s.tasks.put socket { task with phase := .writing } } := by
  have hfits := h.fits socket task hlookup
  have hunsent : task.unsent = true := by rw [unsent, hphase]
  refine h.progress hlookup hunsent rfl rfl rfl rfl rfl (fun _ _ => rfl)
    ⟨hfits.intact, hfits.quiet, hfits.stops, fun _ _ hreply => (nomatch hreply),
      fun _ hcommand => absurd hcommand (hfits.not_sent hunsent),
      fun _ _ hsent => (nomatch hsent)⟩ ?_
  intro port hrel
  refine hrel.imp_left (fun htasks => htasks.put ?_)
  intro old hold hP
  cases lookup_unique hlookup hold
  exact ⟨hP.1, rfl, hP.2.2⟩

theorem Sound.wrote (h : s.Sound) (hlookup : s.tasks.lookup socket = some task)
    (hphase : task.phase = .writing) :
    Sound { s with
      tasks := s.tasks.put socket { task with phase := .reading }
      inbox := s.inbox.put socket task.await.command } := by
  have hfits := h.fits socket task hlookup
  have hunsent : task.unsent = true := by rw [unsent, hphase]
  refine h.progress hlookup hunsent rfl rfl rfl rfl rfl (fun _ hne => put_ne _ _ hne)
    ⟨hfits.intact, hfits.quiet, hfits.stops, fun _ _ hreply => (nomatch hreply), ?_, ?_⟩ ?_
  · intro command hcommand
    rw [put_self] at hcommand
    cases hcommand
    exact ⟨rfl, rfl⟩
  · intro port hport _
    exact .inl ((put_self _ _ _).trans (congrArg some hport))
  · intro port hrel
    rcases hrel with ⟨other, found, hfound, hP⟩ | hinbox
    · by_cases hother : other = socket
      · subst hother
        cases lookup_unique hlookup hfound
        exact .inr ⟨other, _, put_self _ _ _, hP.1⟩
      · exact .inl ⟨other, found, (put_ne _ _ hother).trans hfound, hP⟩
    · exact .inr (hinbox.put (fun old hold _ => absurd hold (hfits.not_sent hunsent)))

/-! ### The relay serves a command -/

/-- The relay gives a free port, takes one back, or changes nothing. -/
theorem serve_cases {before : Nat → Bool} (h : command.serve before reply = some after) :
    (∃ port, command = .connect ∧ reply = .granted port ∧ before port = false ∧
      after = Function.update before port true) ∨
    (∃ port, command = .release port ∧ after = Function.update before port false) ∨
    (∀ port, command ≠ .release port) ∧ after = before ∧
      (command = .ping → reply = .accepted) := by
  cases command <;> cases reply <;> simp_all [RelayCommand.serve]

theorem deliver_eq_some (h : (s.deliver socket reply).lookup other = some found) :
    ∃ old, s.tasks.lookup other = some old ∧ found.await = old.await ∧
      found.destroyed = old.destroyed ∧
      (found = old ∨ other = socket ∧ found.phase = .answered reply) := by
  unfold deliver at h
  grind

theorem Accounted.serve (h : s.Accounted port) (hsound : s.Sound)
    (hinbox : s.inbox.lookup socket = some command) (hother : command ≠ .release port) :
    Accounted { s with
      allocated := after
      inbox := s.inbox.drop socket
      tasks := s.deliver socket reply } port := by
  have hreading : ∀ old, s.tasks.lookup socket = some old → old.phase = .reading :=
    fun old hold => ((hsound.fits socket old hold).sent command hinbox).1
  have hkeep : ∀ P : ShareTask → Prop, (∀ old, P old → old.phase ≠ .reading) →
      s.tasks.Any P → (s.deliver socket reply).Any P := by
    intro P hP hany
    unfold deliver
    cases hlookup : s.tasks.lookup socket with
    | none => exact hany
    | some old =>
      dsimp only
      split
      · exact hany
      · exact hany.put (fun found hfound h => absurd (hreading found hfound) (hP found h))
  rcases h with (htasks | hany) | ⟨hrunning, hgranted | ⟨hend, hidle⟩⟩
  · refine .inl (.inl (hkeep _ ?_ htasks))
    intro old hold hphase
    simp [unsent, hphase] at hold
  · exact .inl (.inr (hany.drop hinbox hother))
  · refine .inr ⟨hrunning, .inl (hkeep _ ?_ hgranted)⟩
    intro old hold hphase
    simp [hphase] at hold
  · refine .inr ⟨hrunning, .inr ⟨hend, ?_⟩⟩
    intro other found hfound
    obtain ⟨old, hold, hawait, _⟩ := deliver_eq_some hfound
    exact hawait ▸ hidle other old hold

/-- Nothing but the operation that gets it waits for a release of the port. -/
theorem Sound.not_release (h : s.Sound) (hlookup : s.tasks.lookup socket = some task)
    (halloc : task.await.allocates = true) (hfound : s.tasks.lookup other = some found)
    (hne : other ≠ socket) : found.await.command ≠ .release port := by
  intro hcommand
  have hfits := h.fits other found hfound
  cases hawait : found.await with
  | stopRelease p =>
    exact nomatch (h.running hlookup halloc).symm.trans (hfits.stops p hawait).1
  | refreshRelease p =>
    exact hne (h.one socket other task found hlookup hfound halloc (by rw [hawait]; rfl))
  | startStats | startToken | startConnect | heartbeatPing | refreshConnect =>
    rw [hawait] at hcommand
    cases hcommand

/-- The relay serves a command. -/
theorem Sound.serve (h : s.Sound) (hinbox : s.inbox.lookup socket = some command)
    (hserve : command.serve s.allocated reply = some after) :
    Sound { s with
      allocated := after
      inbox := s.inbox.drop socket
      tasks := s.deliver socket reply } where
  one := by
    intro first second one two hone htwo
    obtain ⟨old, hold, hawait, _⟩ := deliver_eq_some hone
    obtain ⟨old', hold', hawait', _⟩ := deliver_eq_some htwo
    rw [hawait, hawait']
    exact h.one first second old old' hold hold'
  fits := by
    intro other found hfound
    obtain ⟨old, hold, hawait, hdestroyed, hphase⟩ := deliver_eq_some hfound
    have hfits := h.fits other old hold
    refine ⟨by rw [hawait, hdestroyed]; exact hfits.intact, by rw [hawait]; exact hfits.quiet,
      by rw [hawait]; exact hfits.stops, ?_, ?_, ?_⟩
    · intro hping answer hanswer
      rcases hphase with rfl | ⟨rfl, hphase⟩
      · exact hfits.pongs hping answer hanswer
      · cases hanswer.symm.trans hphase
        have hcommand := (hfits.sent command hinbox).2
        rw [← hawait, hping] at hcommand
        rcases serve_cases hserve with ⟨_, hc, _⟩ | ⟨_, hc, _⟩ | ⟨_, _, hpong⟩
        · exact nomatch hcommand.trans hc
        · exact nomatch hcommand.trans hc
        · exact hpong hcommand.symm
    · intro waiting hwaiting
      obtain ⟨hne, hwaiting⟩ := drop_eq_some hwaiting
      rcases hphase with rfl | ⟨hother, _⟩
      · exact hfits.sent waiting hwaiting
      · exact absurd hother hne
    · intro port hcommand hsent
      rw [hawait] at hcommand
      by_cases hother : other = socket
      · subst hother
        have hserved := (hfits.sent command hinbox).2.symm.trans hcommand
        rcases serve_cases hserve with ⟨_, hc, _⟩ | ⟨_, hc, rfl⟩ | ⟨hc, _, _⟩
        · exact nomatch hserved.symm.trans hc
        · cases hserved.symm.trans hc
          exact .inr (Function.update_self ..)
        · exact absurd hserved (hc port)
      · have hsame : found = old := hphase.resolve_right (fun hanswered => hother hanswered.1)
        rcases hfits.served port hcommand (hsame ▸ hsent) with hwaiting | hfree
        · exact .inl ((drop_ne _ hother).trans hwaiting)
        · rcases serve_cases hserve with ⟨granted, rfl, _, _, rfl⟩ | ⟨_, _, rfl⟩ | ⟨_, rfl, _⟩
          · obtain ⟨asking, hasking⟩ := isSome_iff_exists.mp (h.waits socket hinbox)
            have hconnect := ((h.fits socket asking hasking).sent _ hinbox).2
            exact absurd hcommand
              (h.not_release hasking (allocates_of_connect hconnect) hold hother)
          · refine .inr ?_
            simp only [Function.update_apply]
            split
            · rfl
            · exact hfree
          · exact .inr hfree
  waits := by
    intro other hother
    obtain ⟨hne, hwaiting⟩ := drop_eq_some hother
    have hsome := h.waits other hwaiting
    unfold deliver
    grind
  accounted := by
    intro port hport
    rcases serve_cases hserve with ⟨granted, rfl, rfl, _, rfl⟩ | ⟨released, rfl, rfl⟩ | ⟨hc, rfl, _⟩
    · by_cases hgranted : port = granted
      · -- the operation that asked is still waiting, with its socket open
        subst hgranted
        obtain ⟨asking, hasking⟩ := isSome_iff_exists.mp (h.waits socket hinbox)
        have hfits := h.fits socket asking hasking
        have hconnect := (hfits.sent _ hinbox).2
        have halloc := allocates_of_connect hconnect
        have hopen := hfits.intact halloc
        refine .inr ⟨h.running hasking halloc, .inl ⟨socket,
          { asking with phase := .answered (.granted port) }, ?_, hconnect, rfl⟩⟩
        simp [deliver, hasking, hopen]
      · have hold : s.allocated port = true := by
          simpa [Function.update_apply, hgranted] using hport
        exact (h.accounted port hold).serve h hinbox (by simp)
    · have hne : port ≠ released := by
        intro heq
        simp [heq] at hport
      have hold : s.allocated port = true := by simpa [Function.update_apply, hne] using hport
      exact (h.accounted port hold).serve h hinbox (by simpa using Ne.symm hne)
    · exact (h.accounted port hport).serve h hinbox (hc port)

/-! ### Commands begin and end -/

/-- A command ends, but no `CONNECT` that waits for its answer. -/
theorem Tidy.close (h : s.Tidy) (hlookup : s.tasks.lookup socket = some task)
    (hdone : task.await.command = .connect → task.phase ≠ .reading) : (s.close socket).Tidy where
  one := by
    intro first second one two hone htwo
    exact h.one first second one two (drop_eq_some hone).2 (drop_eq_some htwo).2
  fits := by
    intro other found hfound
    exact (h.fits other found (drop_eq_some hfound).2).congr rfl rfl rfl rfl
  waits := by
    intro other hother
    have hne : other ≠ socket := by
      intro heq
      subst heq
      obtain ⟨hreading, hconnect⟩ := (h.fits other task hlookup).sent _ hother
      exact hdone hconnect hreading
    exact (drop_ne s.tasks hne).symm ▸ h.waits other hother

/-- When the allocation that is under way ends, none is. -/
theorem Tidy.idle_close (h : s.Tidy) (hlookup : s.tasks.lookup socket = some task)
    (halloc : task.await.allocates = true) : (s.close socket).Idle := by
  intro other found hfound
  obtain ⟨hne, hold⟩ := drop_eq_some hfound
  by_contra hnot
  exact hne (h.one socket other task found hlookup hold halloc (by simpa using hnot))

/-- A command begins; an allocation only if none is under way. -/
theorem Tidy.send (h : s.Tidy) (hfresh : s.Fresh socket)
    (halloc : await.allocates = true → s.stopped = false ∧ s.Idle)
    (hstops : ∀ port, await = .stopRelease port → s.stopped = true ∧ s.endpoint = some port) :
    (s.send socket await).Tidy where
  one := by
    intro first second one two hone htwo hfirst hsecond
    rcases put_eq_some hone with ⟨rfl, rfl⟩ | ⟨_, hold⟩ <;>
      rcases put_eq_some htwo with ⟨rfl, rfl⟩ | ⟨_, hold'⟩
    · rfl
    · exact nomatch hsecond.symm.trans ((halloc hfirst).2 second two hold')
    · exact nomatch hfirst.symm.trans ((halloc hsecond).2 first one hold)
    · exact h.one first second one two hold hold' hfirst hsecond
  fits := by
    intro other found hfound
    rcases put_eq_some hfound with ⟨rfl, rfl⟩ | ⟨_, hold⟩
    · refine ⟨fun _ => rfl, ?_, hstops, fun _ _ hreply => (nomatch hreply), ?_,
        fun _ _ hsent => (nomatch hsent)⟩
      · intro hstopped
        by_contra hnot
        exact nomatch hstopped.symm.trans (halloc (by simpa using hnot)).1
      · intro command hcommand
        exact nomatch hfresh.2.symm.trans hcommand
    · exact (h.fits other found hold).congr rfl rfl rfl rfl
  waits := by
    intro other hother
    have hold := h.waits other hother
    show ((s.tasks.put socket _).lookup other).isSome = true
    grind

theorem destroy_eq_some (h : s.destroySockets.tasks.lookup socket = some found) :
    ∃ old, s.tasks.lookup socket = some old ∧ found.await = old.await ∧
      found.phase = old.phase := by
  have hmap : (s.tasks.lookup socket).map destroy = some found :=
    (lookup_map _ _ _).symm.trans h
  obtain ⟨old, hold, rfl⟩ := map_eq_some_iff.mp hmap
  refine ⟨old, hold, ?_⟩
  unfold destroy
  split <;> exact ⟨rfl, rfl⟩

theorem Idle.destroySockets (h : s.Idle) : s.destroySockets.Idle := by
  intro socket found hfound
  obtain ⟨old, hold, hawait, _⟩ := destroy_eq_some hfound
  exact hawait ▸ h socket old hold

theorem Tidy.destroySockets (h : s.Tidy) (hidle : s.Idle) : s.destroySockets.Tidy where
  one := by
    intro first second one two hone _ hfirst
    exact nomatch hfirst.symm.trans (hidle.destroySockets first one hone)
  fits := by
    intro socket found hfound
    obtain ⟨old, hold, hawait, hphase⟩ := destroy_eq_some hfound
    have hfits := h.fits socket old hold
    have hunsent : found.unsent = old.unsent := by rw [unsent, hphase, unsent]
    refine ⟨?_, hawait ▸ hfits.quiet, hawait ▸ hfits.stops, ?_, ?_, ?_⟩
    · intro halloc
      exact nomatch halloc.symm.trans (hidle.destroySockets socket found hfound)
    · rw [hawait, hphase]
      exact hfits.pongs
    · rw [hawait, hphase]
      exact hfits.sent
    · rw [hawait, hunsent]
      exact hfits.served
  waits := by
    intro socket hsocket
    show ((s.tasks.map destroy).lookup socket).isSome = true
    rw [lookup_map, isSome_map]
    exact h.waits socket hsocket

theorem Releasing.close (h : s.Releasing port) (hlookup : s.tasks.lookup socket = some task)
    (hsent : task.await.command = .release port → task.unsent = false) :
    (s.close socket).Releasing port := by
  refine h.imp_left (fun htasks => htasks.drop hlookup ?_)
  intro hP
  exact nomatch hP.2.1.symm.trans (hsent hP.1)

theorem Releasing.send (h : s.Releasing port) (hfresh : s.Fresh socket) :
    (s.send socket await).Releasing port :=
  h.imp_left (fun htasks => htasks.put (fun _ hold _ => nomatch hfresh.1.symm.trans hold))

/-- Without an allocation, a port is being released or is the endpoint. -/
theorem Sound.of_idle (h : s.Sound) (hidle : s.Idle) (hport : s.allocated port = true) :
    s.Releasing port ∨ s.stopped = false ∧ s.endpoint = some port := by
  rcases h.accounted port hport with
    hrel | ⟨hrunning, ⟨other, found, hfound, hconnect, _⟩ | ⟨hend, _⟩⟩
  · exact .inl hrel
  · exact nomatch (allocates_of_connect hconnect).symm.trans (hidle other found hfound)
  · exact .inr ⟨hrunning, hend⟩

/-- Without an allocation under way, only a stopped client sends `RELEASE`. -/
theorem Tidy.releasing_idle (h : s.Tidy) (hidle : s.Idle) (hrel : s.Releasing port) :
    s.inbox.Any (fun command => command = .release port) ∨
      s.stopped = true ∧ s.endpoint = some port := by
  rcases hrel with ⟨other, found, hfound, hcommand, _⟩ | hinbox
  · have hquiet := hidle other found hfound
    cases hawait : found.await with
    | stopRelease p =>
      rw [hawait] at hcommand
      cases hcommand
      exact .inr ((h.fits other found hfound).stops port hawait)
    | refreshRelease p => simp [hawait, ShareAwait.allocates] at hquiet
    | startStats | startToken | startConnect | heartbeatPing | refreshConnect =>
      rw [hawait] at hcommand
      cases hcommand
  · exact .inl hinbox

/-! ## Operations -/

/-- An allocation may begin, or go on with its next command: it holds no port. -/
structure Between (s : ShareClient) : Prop extends Tidy s where
  running : s.stopped = false
  idle : s.Idle
  releasing : ∀ port, s.allocated port = true → s.Releasing port

theorem Between.sound (h : s.Between) : s.Sound :=
  ⟨h.toTidy, fun port hport => .inl (h.releasing port hport)⟩

theorem Between.proceed (h : s.Between) (hfresh : s.Fresh socket)
    (hawait : ∀ port, await ≠ .stopRelease port) : (s.send socket await).Sound :=
  ⟨h.toTidy.send hfresh (fun _ => ⟨h.running, h.idle⟩) (fun port heq => absurd heq (hawait port)),
    fun port hport => .inl ((h.releasing port hport).send hfresh)⟩

theorem Sound.start (h : s.Sound) (hfresh : s.Fresh socket) (hrunning : s.stopped = false)
    (hnone : s.endpoint = none) (hidle : s.Idle) : (s.send socket .startStats).Sound := by
  refine Between.proceed ⟨h.toTidy, hrunning, hidle, ?_⟩ hfresh (fun _ hawait => nomatch hawait)
  intro port hport
  exact (h.of_idle hidle hport).resolve_right (fun hheld => nomatch hnone.symm.trans hheld.2)

theorem Sound.heartbeat (h : s.Sound) (hfresh : s.Fresh socket) :
    (s.send socket .heartbeatPing).Sound := by
  refine ⟨h.toTidy.send hfresh (fun halloc => nomatch halloc) (fun _ hawait => nomatch hawait), ?_⟩
  intro port hport
  rcases h.accounted port hport with hrel | ⟨hrunning, hgranted | ⟨hend, hidle⟩⟩
  · exact .inl (hrel.send hfresh)
  · exact .inr ⟨hrunning, .inl (hgranted.put (fun old hold _ => nomatch hfresh.1.symm.trans hold))⟩
  · exact .inr ⟨hrunning, .inr ⟨hend, All.put hidle rfl⟩⟩

theorem Tidy.halt (h : s.Tidy) (hidle : s.Idle) : s.halt.Tidy where
  one := h.one
  fits := by
    intro other found hfound
    have hfits := h.fits other found hfound
    exact ⟨hfits.intact, fun _ => hidle other found hfound,
      fun port hawait => ⟨rfl, (hfits.stops port hawait).2⟩, hfits.pongs, hfits.sent, hfits.served⟩
  waits := h.waits

/-- The client stops, and releases its port. -/
theorem Sound.stop (h : s.Sound) (hfresh : s.Fresh socket) (hidle : s.Idle) :
    (s.stop socket).Sound := by
  have htidy := h.toTidy.halt hidle
  unfold ShareClient.stop
  split
  · next held hend =>
    refine ⟨htidy.send hfresh (fun halloc => nomatch halloc) ?_, ?_⟩
    · intro port hawait
      cases hawait
      exact ⟨rfl, hend⟩
    · intro port hport
      rcases h.of_idle hidle hport with hrel | ⟨_, heq⟩
      · exact .inl (Releasing.send hrel hfresh)
      · cases hend.symm.trans heq
        exact .inl (.inl ⟨socket, _, put_self _ _ _, rfl, rfl, rfl⟩)
  · next hend =>
    refine ⟨htidy.destroySockets hidle, ?_⟩
    intro port hport
    rcases h.of_idle hidle hport with hrel | ⟨_, heq⟩
    · rcases h.toTidy.releasing_idle hidle hrel with hinbox | ⟨_, heq⟩
      · exact .inl (.inr hinbox)
      · exact nomatch hend.symm.trans heq
    · exact nomatch hend.symm.trans heq

section

variable (h : s.Sound) (hlookup : s.tasks.lookup socket = some task)

include h hlookup

/-- A command of an allocation ends without having got a port. -/
theorem Sound.between (halloc : task.await.allocates = true)
    (hnone : task.await.command = .connect →
      task.phase ≠ .reading ∧ ∀ port, task.phase ≠ .answered (.granted port))
    (hsent : ∀ port, task.await.command = .release port →
      task.unsent = false ∨ s.allocated port = false) : (s.close socket).Between := by
  refine ⟨h.toTidy.close hlookup (fun hconnect => (hnone hconnect).1), h.running hlookup halloc,
    h.idle_close hlookup halloc, ?_⟩
  intro port hport
  rcases h.releasing hlookup halloc hport with hrel | ⟨hconnect, hphase⟩
  · exact hrel.close hlookup (fun hcommand => (hsent port hcommand).resolve_right
      (ne_of_eq_of_ne hport Bool.noConfusion))
  · exact absurd hphase ((hnone hconnect).2 port)

/-- `stop` has waited for its `RELEASE`. -/
theorem Sound.stopped (hawait : task.await = .stopRelease port)
    (hsent : task.unsent = false ∨ s.allocated port = false) :
    (s.close socket).destroySockets.Sound := by
  have hfits := h.fits socket task hlookup
  have hcommand : task.await.command = .release port := by rw [hawait]; rfl
  obtain ⟨hstopped, hend⟩ := hfits.stops port hawait
  have hidle : s.Idle := fun other found hfound => (h.fits other found hfound).quiet hstopped
  refine ⟨(h.toTidy.close hlookup ?_).destroySockets (All.drop hidle), ?_⟩
  · intro hconnect
    exact nomatch hcommand.symm.trans hconnect
  · intro other hother
    have hown : s.inbox.Any (fun command => command = .release port) ∨
        s.allocated port = false := by
      rcases hsent with hsent | hfree
      · exact (hfits.served port hcommand hsent).imp_left (fun hinbox => ⟨socket, _, hinbox, rfl⟩)
      · exact .inr hfree
    rcases h.of_idle hidle hother with hrel | ⟨hrunning, _⟩
    · rcases h.toTidy.releasing_idle hidle hrel with hinbox | ⟨_, hsame⟩
      · exact .inl (.inr hinbox)
      · cases hend.symm.trans hsame
        exact .inl (.inr (hown.resolve_right (ne_of_eq_of_ne hother Bool.noConfusion)))
    · exact nomatch hrunning.symm.trans hstopped

theorem Sound.pong (hawait : task.await = .heartbeatPing) : (s.close socket).Sound := by
  have hcommand : task.await.command = .ping := by rw [hawait]; rfl
  refine ⟨h.toTidy.close hlookup (fun hconnect => nomatch hcommand.symm.trans hconnect), ?_⟩
  intro port hport
  rcases h.accounted port hport with hrel | ⟨hrunning, hgranted | ⟨hend, hidle⟩⟩
  · exact .inl (hrel.close hlookup (fun hrelease => nomatch hcommand.symm.trans hrelease))
  · exact .inr ⟨hrunning, .inl (hgranted.drop hlookup
      (fun hconnect => nomatch hcommand.symm.trans hconnect.1))⟩
  · exact .inr ⟨hrunning, .inr ⟨hend, All.drop hidle⟩⟩

end

/-- The heartbeat asks for a new port. -/
theorem Sound.refresh (h : s.Sound) (hfresh : s.Fresh socket) (hrunning : s.stopped = false)
    (hidle : s.Idle) : (s.refreshRelayAllocation socket).Sound := by
  have htidy : Tidy { s with reconnecting := true }.destroySockets :=
    Tidy.destroySockets ⟨h.one, fun other found hfound =>
      (h.fits other found hfound).congr rfl rfl rfl rfl, h.waits⟩ hidle
  have hquiet : Idle { s with reconnecting := true }.destroySockets := Idle.destroySockets hidle
  have hfree : Fresh { s with reconnecting := true }.destroySockets socket := by
    refine ⟨?_, hfresh.2⟩
    exact (lookup_map _ _ _).trans (by rw [hfresh.1]; rfl)
  have hports : ∀ port, s.allocated port = true →
      s.inbox.Any (fun command => command = .release port) ∨ s.endpoint = some port := by
    intro port hport
    rcases h.of_idle hidle hport with hrel | ⟨_, hend⟩
    · rcases h.toTidy.releasing_idle hidle hrel with hinbox | ⟨hstopped, _⟩
      · exact .inl hinbox
      · exact nomatch hrunning.symm.trans hstopped
    · exact .inr hend
  unfold refreshRelayAllocation
  split
  · next held hend =>
    refine ⟨htidy.send hfree (fun _ => ⟨hrunning, hquiet⟩) (fun _ heq => nomatch heq), ?_⟩
    intro port hport
    rcases hports port hport with hinbox | hheld
    · exact .inl (.inr hinbox)
    · cases hend.symm.trans hheld
      exact .inl (.inl ⟨socket, _, put_self _ _ _, rfl, rfl, rfl⟩)
  · next hend =>
    refine Between.proceed ⟨htidy, hrunning, hquiet, ?_⟩ hfree (fun _ heq => nomatch heq)
    intro port hport
    exact .inr ((hports port hport).resolve_right (by simp [hend]))

theorem Fresh.close {next : Nat} (h : s.Fresh next) : (s.close socket).Fresh next := by
  refine ⟨?_, h.2⟩
  show (s.tasks.drop socket).lookup next = none
  rw [lookup_drop, h.1]
  split <;> rfl

section

variable (h : s.Sound) (hlookup : s.tasks.lookup socket = some task)

include h hlookup

variable {timer busy : Bool}

/-- `allocateRelayEndpoint` throws. -/
theorem Sound.refused (hconnect : task.await.command = .connect) (hdone : task.phase ≠ .reading)
    (hnone : ∀ port, task.phase ≠ .answered (.granted port)) :
    (s.settle socket s.endpoint timer busy).Sound := by
  obtain ⟨⟨hone, hfits, hwaits⟩, _, _, hrel⟩ := h.between hlookup (allocates_of_connect hconnect)
    (fun _ => ⟨hdone, hnone⟩) (fun _ hrelease => nomatch hconnect.symm.trans hrelease)
  exact ⟨⟨hone, fun other found hfound => (hfits other found hfound).congr rfl rfl rfl rfl, hwaits⟩,
    fun port hport => .inl (hrel port hport)⟩

/-- `allocateRelayEndpoint` returns. -/
theorem Sound.granted {granted : Nat} (hconnect : task.await.command = .connect)
    (hphase : task.phase = .answered (.granted granted)) :
    (s.settle socket (some granted) timer busy).Sound := by
  have halloc := allocates_of_connect hconnect
  have htidy := h.toTidy.close hlookup (fun _ => by simp [hphase])
  have hrunning := h.running hlookup halloc
  have hidle := h.idle_close hlookup halloc
  refine ⟨⟨htidy.one, ?_, htidy.waits⟩, ?_⟩
  · intro other found hfound
    have hfits := htidy.fits other found hfound
    exact ⟨hfits.intact, fun _ => hidle other found hfound,
      fun port hawait => (nomatch hrunning.symm.trans (hfits.stops port hawait).1),
      hfits.pongs, hfits.sent, hfits.served⟩
  · intro port hport
    rcases h.releasing hlookup halloc hport with hrel | ⟨_, heq⟩
    · exact .inl (hrel.close hlookup (fun hcommand => nomatch hconnect.symm.trans hcommand))
    · cases hphase.symm.trans heq
      exact .inr ⟨hrunning, .inr ⟨rfl, hidle⟩⟩

/-- `allocateRelayEndpoint` returns or throws. -/
theorem Sound.answered {reply : Option RelayReply} (hconnect : task.await.command = .connect)
    (hreply : ∀ answer, reply = some answer → task.phase = .answered answer)
    (hfail : reply = none → task.unsent = true) :
    (s.settle socket (match reply with
      | some (.granted port) => some port
      | _ => s.endpoint) timer busy).Sound := by
  cases reply with
  | none =>
    have hunsent := hfail rfl
    refine h.refused hlookup hconnect (fun hphase => ?_) (fun port hphase => ?_)
    all_goals simp [unsent, hphase] at hunsent
  | some answer =>
    have hphase := hreply answer rfl
    cases answer with
    | granted port => exact h.granted hlookup hconnect hphase
    | accepted | refused =>
      exact h.refused hlookup hconnect (by simp [hphase]) (by simp [hphase])

/-- What an operation does after an answer or a failure. -/
theorem Sound.resume {next : Nat} {reply : Option RelayReply} (hfresh : s.Fresh next)
    (hreply : ∀ answer, reply = some answer → task.phase = .answered answer)
    (hfail : reply = none → s.MayFail task) :
    ((s.close socket).resume hasToken next reply task.await).Sound := by
  have hsent : ∀ answer, reply = some answer → task.unsent = false := by
    intro answer hanswer
    rw [unsent, hreply answer hanswer]
  cases hawait : task.await with
  | startStats | startToken =>
    have hbetween := h.between hlookup (by rw [hawait]; rfl) (by rw [hawait]; nofun)
      (by rw [hawait]; nofun)
    rw [ShareClient.resume]
    split
    · exact hbetween.proceed hfresh.close (by cases hasToken <;> nofun)
    · exact hbetween.sound
  | startConnect | refreshConnect =>
    have hconnect : task.await.command = .connect := by rw [hawait]; rfl
    have hunsent : reply = none → task.unsent = true := by simpa [MayFail, hawait] using hfail
    cases reply with
    | none => exact h.answered hlookup hconnect hreply hunsent
    | some answer => cases answer <;> exact h.answered hlookup hconnect hreply hunsent
  | stopRelease port =>
    refine h.stopped hlookup hawait ?_
    cases reply with
    | none => simpa [MayFail, hawait] using hfail rfl
    | some answer => exact .inl (hsent answer rfl)
  | heartbeatPing =>
    rw [ShareClient.resume]
    split
    · exact h.pong hlookup hawait
    · next hnot =>
      have hnone : reply = none := by
        cases reply with
        | none => rfl
        | some answer =>
          have hpong := (h.fits socket task hlookup).pongs hawait answer (hreply answer rfl)
          exact absurd (congrArg some hpong) hnot
      have hmay := hfail hnone
      simp only [MayFail, hawait] at hmay
      exact (h.pong hlookup hawait).refresh hfresh.close hmay.1 (All.drop hmay.2)
  | refreshRelease port =>
    refine (h.between hlookup (by rw [hawait]; rfl) (by rw [hawait]; nofun) ?_).proceed
      hfresh.close nofun
    rw [hawait]
    intro own hown
    cases hown
    cases reply with
    | none => simpa [MayFail, hawait] using hfail rfl
    | some answer => exact .inl (hsent answer rfl)

end

/-- Every step of an orderly run. -/
theorem Sound.step {event : ShareEvent} (h : s.Sound) (horderly : s.Orderly event)
    (hstep : s.step hasToken event = some t) : t.Sound := by
  cases event with
  | start socket =>
    obtain ⟨hfresh, hstep⟩ := ite_none_right_eq_some.mp hstep
    cases hstep
    exact h.start hfresh horderly.1 horderly.2.1 horderly.2.2
  | stop socket =>
    obtain ⟨hfresh, hstep⟩ := ite_none_right_eq_some.mp hstep
    cases hstep
    exact h.stop hfresh horderly
  | heartbeat socket =>
    obtain ⟨⟨_, hfresh⟩, hstep⟩ := ite_none_right_eq_some.mp hstep
    cases hstep
    split
    · exact h
    · exact h.heartbeat hfresh
  | connected socket =>
    obtain ⟨task, hlookup, hstep⟩ := bind_eq_some_iff.mp hstep
    obtain ⟨hphase, hstep⟩ := ite_none_right_eq_some.mp hstep
    cases hstep
    exact h.connected hlookup hphase
  | wrote socket =>
    obtain ⟨task, hlookup, hstep⟩ := bind_eq_some_iff.mp hstep
    obtain ⟨⟨hphase, _⟩, hstep⟩ := ite_none_right_eq_some.mp hstep
    cases hstep
    exact h.wrote hlookup hphase
  | replied socket next =>
    obtain ⟨task, hlookup, hstep⟩ := bind_eq_some_iff.mp hstep
    cases hphase : task.phase with
    | answered reply =>
      rw [hphase] at hstep
      obtain ⟨hfresh, hstep⟩ := ite_none_right_eq_some.mp hstep
      cases hstep
      refine h.resume hlookup hfresh ?_ (fun hnone => nomatch hnone)
      intro answer hanswer
      cases hanswer
      exact hphase
    | connecting | writing | reading =>
      rw [hphase] at hstep
      cases hstep
  | failed socket next =>
    obtain ⟨task, hlookup, hstep⟩ := bind_eq_some_iff.mp hstep
    obtain ⟨hfresh, hstep⟩ := ite_none_right_eq_some.mp hstep
    cases hstep
    exact h.resume hlookup hfresh (fun _ hsome => nomatch hsome) (fun _ => horderly task hlookup)
  | serve socket reply =>
    obtain ⟨command, hinbox, hstep⟩ := bind_eq_some_iff.mp hstep
    obtain ⟨after, hserve, rfl⟩ := map_eq_some_iff.mp hstep
    exact h.serve hinbox hserve

theorem sound_initial : Sound {} where
  one := fun _ _ _ _ hlookup => nomatch hlookup
  fits := fun _ _ hlookup => nomatch hlookup
  waits := fun _ hlookup => nomatch hlookup
  accounted := fun _ hport => nomatch hport

/-- Every operation has finished, and the relay has answered every command it received. -/
structure AtRest (s : ShareClient) : Prop where
  tasks : s.tasks.entries = []
  inbox : s.inbox.entries = []

end ShareClient

open ShareClient

/-- **A stopped client holds no port** when nothing is in flight, if allocations do not overlap each
other or a `stop`, and `RELEASE` reaches the relay. -/
theorem stopped_holds_nothing {hasToken : Bool} {events : List ShareEvent} {s : ShareClient}
    (hrun : run (step hasToken) {} events = some s)
    (horderly : Guarded (step hasToken) Orderly {} events)
    (hrest : s.AtRest) (hstopped : s.stopped = true) (port : Nat) : s.allocated port = false := by
  have hsound : s.Sound := (reaches_of_guarded horderly hrun).invariant sound_initial
    (fun _ _ _ h hok hstep => h.step hok hstep)
  by_contra hport
  rcases hsound.accounted port (by simpa using hport) with
    (⟨socket, task, hlookup, _⟩ | ⟨socket, command, hlookup, _⟩) | ⟨hrunning, _⟩
  · have hmem := AList.mem_lookup_iff.mp hlookup
    rw [hrest.tasks] at hmem
    exact nomatch hmem
  · have hmem := AList.mem_lookup_iff.mp hlookup
    rw [hrest.inbox] at hmem
    exact nomatch hmem
  · exact nomatch hrunning.symm.trans hstopped

/-- A command over a socket, served and answered. -/
def exchange (socket next : Nat) (reply : RelayReply) : List ShareEvent :=
  [.connected socket, .wrote socket, .serve socket reply, .replied socket next]

/-- The client gets port 40000. -/
def started : List ShareEvent :=
  .start 0 :: exchange 0 1 .accepted ++ exchange 1 2 (.granted 40000)

/-- The port is refreshed to 40001, and then the client is stopped. -/
def refreshedAndStopped : List ShareEvent :=
  started ++ [.heartbeat 2, .failed 2 3] ++ exchange 3 4 .accepted ++
    exchange 4 5 (.granted 40001) ++ .stop 5 :: exchange 5 6 .accepted

/-- A refresh, and a stop after it. -/
theorem stopped_holds_nothing_after_refresh :
    ∃ s, run (step false) {} refreshedAndStopped = some s ∧
      s.endpoint = some 40001 ∧ ∀ port, s.allocated port = false :=
  ⟨_, rfl, rfl, @stopped_holds_nothing false refreshedAndStopped _ rfl (by decide) ⟨rfl, rfl⟩ rfl⟩

/-- A heartbeat fails and the client is stopped before the refresh asks for its new port. -/
theorem refresh_outlives_stop :
    ∃ s, run (step false) {}
        (started ++ [.heartbeat 2, .failed 2 3] ++ .stop 4 :: exchange 4 5 .accepted ++
          exchange 3 5 .accepted ++ exchange 5 6 (.granted 40001)) = some s ∧
      s.AtRest ∧ s.stopped = true ∧ s.allocated 40001 = true :=
  ⟨_, rfl, ⟨rfl, rfl⟩, rfl, rfl⟩

end FerrumProxy
