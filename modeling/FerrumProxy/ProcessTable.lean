import FerrumProxy.GuardedRuns
import FerrumProxy.TextStrings

/-!
# The process table of the GUI

`ProcessManager` lists a child under its instance before it looks whether the spawn worked, and
takes it off the list in the `exit` handler only.  A child is numbered by the order of the spawns;
what the operating system does to it and which of its events were handled is part of its state.
-/

namespace FerrumProxy

open Str Runs

/-- A child: its spawn failed and `error` is still to come, it lives, it is over and `exit` is
still to come, or all of its events were handled. -/
inductive ChildState
  | failed
  | live
  | exited
  | handled
  deriving DecidableEq

/-- A child process. -/
structure ManagedChild where
  instanceId : Text
  state : ChildState
  deriving DecidableEq

/-- What `spawn` does: throw, or return a child, whose pid is undefined if there is no process. -/
inductive Spawn
  | throws (message : Text)
  | child (pid : Option Nat)

/-- The table, and the children that were spawned. -/
structure ProcessManager where
  processes : Text → Option Nat
  startsBlocked : Bool
  children : List ManagedChild

namespace ProcessManager

def empty : ProcessManager := ⟨fun _ => none, false, []⟩

def isRunning (s : ProcessManager) (instanceId : Text) : Bool := (s.processes instanceId).isSome

/-- The child is listed, whether there is a process or not. -/
def addChild (s : ProcessManager) (instanceId : Text) (pid : Option Nat) : ProcessManager :=
  { s with
    processes := Function.update s.processes instanceId (some s.children.length)
    children := s.children ++ [⟨instanceId, if pid.isSome then .live else .failed⟩] }

def start (s : ProcessManager) (instanceId : Text) (spawn : Spawn) :
    Except Text Nat × ProcessManager :=
  if s.startsBlocked then (.error "GUI update is stopping managed processes".toList, s)
  else if s.isRunning instanceId then
    (.error ("Process for instance ".toList ++ instanceId ++ " is already running".toList), s)
  else
    match spawn with
    | .throws message => (.error message, s)
    | .child pid =>
      if pid.getD 0 = 0 then
        (.error "Failed to get process PID".toList, s.addChild instanceId pid)
      else (.ok (pid.getD 0), s.addChild instanceId pid)

/-- A signal is sent to the listed child; that it dies of it is another event. -/
def stop (s : ProcessManager) (instanceId : Text) : Except Text Unit × ProcessManager :=
  if s.isRunning instanceId then (.ok (), s)
  else (.error ("No running process found for instance ".toList ++ instanceId), s)

/-- The child is in the given state and goes on to the next one. -/
def moveChild (s : ProcessManager) (child : Nat) (state next : ChildState) :
    Option (Text × ProcessManager) :=
  match s.children[child]? with
  | none => none
  | some found =>
    if found.state = state then
      some (found.instanceId, { s with children := s.children.set child ⟨found.instanceId, next⟩ })
    else none

/-- Calls of the manager, the end of a process, and the two events of a child. -/
inductive Event
  | start (instanceId : Text) (spawn : Spawn)
  | stop (instanceId : Text)
  | blockStarts (blocked : Bool)
  | dies (child : Nat)
  | exit (child : Nat)
  | error (child : Nat)

def step (s : ProcessManager) : Event → Option ProcessManager
  | .start instanceId spawn => some (s.start instanceId spawn).2
  | .stop instanceId => some (s.stop instanceId).2
  | .blockStarts blocked => some { s with startsBlocked := blocked }
  | .dies child => (s.moveChild child .live .exited).map Prod.snd
  | .exit child => (s.moveChild child .exited .handled).map (fun (instanceId, t) =>
      { t with processes := Function.update t.processes instanceId none })
  | .error child => (s.moveChild child .failed .handled).map Prod.snd

/-- All events have been handled. -/
def Quiet (s : ProcessManager) : Prop := ∀ c ∈ s.children, c.state = .live ∨ c.state = .handled

/-- If nothing is left to handle, the running instances are those with a live child. -/
def Exact (s : ProcessManager) : Prop :=
  s.Quiet → ∀ instanceId, s.isRunning instanceId = true ↔ ⟨instanceId, .live⟩ ∈ s.children

/-- A start that throws leaves the running instances, and the step leads to an exact table. -/
def Right (s : ProcessManager) (event : Event) : Prop :=
  (∀ instanceId spawn, event = .start instanceId spawn → ∀ message,
    (s.start instanceId spawn).1 = .error message →
      (s.start instanceId spawn).2.isRunning = s.isRunning) ∧
  ∀ t, s.step event = some t → t.Exact

/-- A spawn that is reached throws or gives a child with a pid. -/
def SpawnWorks (s : ProcessManager) (event : Event) : Prop :=
  ∀ instanceId pid, event = .start instanceId (.child pid) → s.startsBlocked = false →
    s.isRunning instanceId = false → pid.getD 0 ≠ 0

/-- The table lists the children that were spawned and whose exit was not handled. -/
def Listed (s : ProcessManager) : Prop :=
  ∀ instanceId child, s.processes instanceId = some child ↔
    s.children[child]? = some ⟨instanceId, .live⟩ ∨ s.children[child]? = some ⟨instanceId, .exited⟩

variable {s t : ProcessManager} {event : Event} {instanceId : Text} {child : Nat}
  {state next : ChildState}

theorem Listed.exact (h : s.Listed) : s.Exact := by
  intro hquiet instanceId
  unfold isRunning
  rw [Option.isSome_iff_exists, List.mem_iff_getElem?]
  refine exists_congr (fun child => (h instanceId child).trans (or_iff_left (fun hexited => ?_)))
  rcases hquiet _ (List.mem_of_getElem? hexited) with hlive | hhandled
  · cases hlive
  · cases hhandled

theorem moveChild_eq_some {r : Text × ProcessManager} (h : s.moveChild child state next = some r) :
    s.children[child]? = some ⟨r.1, state⟩ ∧
      r.2 = { s with children := s.children.set child ⟨r.1, next⟩ } := by
  unfold moveChild at h
  split at h
  · cases h
  split at h
  · next found hfound hstate =>
    cases h
    exact ⟨hfound.trans (congrArg some (congrArg (ManagedChild.mk _) hstate)), rfl⟩
  · cases h

theorem stop_snd (s : ProcessManager) (instanceId : Text) : (s.stop instanceId).2 = s := by
  unfold stop
  split <;> rfl

/-- A start leaves everything as it is, or it lists a new child, and throws if there is no pid. -/
theorem start_cases (s : ProcessManager) (instanceId : Text) (spawn : Spawn) :
    (s.start instanceId spawn).2 = s ∨
      ∃ pid, spawn = .child pid ∧ s.startsBlocked = false ∧ s.isRunning instanceId = false ∧
        (s.start instanceId spawn).2 = s.addChild instanceId pid ∧
        (pid.getD 0 ≠ 0 → (s.start instanceId spawn).1 = .ok (pid.getD 0)) := by
  unfold start
  split
  · exact .inl rfl
  split
  · exact .inl rfl
  cases spawn with
  | throws message => exact .inl rfl
  | child pid =>
    refine .inr ⟨pid, rfl, Bool.eq_false_iff.mpr ‹_›, Bool.eq_false_iff.mpr ‹_›, ?_⟩
    dsimp only
    split
    · exact ⟨rfl, fun hpid => absurd ‹_› hpid⟩
    · exact ⟨rfl, fun _ => rfl⟩

theorem Listed.addChild (h : s.Listed) (hnew : s.isRunning instanceId = false) (pid : Nat) :
    (s.addChild instanceId (some pid)).Listed := by
  have hnone : s.processes instanceId = none := by simpa [isRunning] using hnew
  intro other child
  have hother := h other child
  simp only [ProcessManager.addChild, Option.isSome_some, if_true]
  grind [Function.update]

theorem Listed.moved (h : s.Listed) (hfound : s.children[child]? = some ⟨instanceId, state⟩)
    (hsame : (state = .live ∨ state = .exited) ↔ (next = .live ∨ next = .exited)) :
    Listed { s with children := s.children.set child ⟨instanceId, next⟩ } := by
  intro other k
  have hother := h other k
  grind

theorem Listed.exited (h : s.Listed) (hfound : s.children[child]? = some ⟨instanceId, .exited⟩) :
    Listed { s with
      processes := Function.update s.processes instanceId none
      children := s.children.set child ⟨instanceId, .handled⟩ } := by
  have hlisted := (h instanceId child).mpr (.inr hfound)
  intro other k
  have hother := h other k
  grind [Function.update]

theorem Listed.step (h : s.Listed) (hworks : s.SpawnWorks event) (hstep : s.step event = some t) :
    t.Listed := by
  cases event with
  | start instanceId spawn =>
    cases hstep
    rcases start_cases s instanceId spawn with hsame | ⟨pid, rfl, hfree, hnew, hadded, _⟩
    · rw [hsame]
      exact h
    · rw [hadded]
      cases pid with
      | none => exact absurd rfl (hworks instanceId none rfl hfree hnew)
      | some pid => exact h.addChild hnew pid
  | stop instanceId =>
    cases hstep
    rw [stop_snd]
    exact h
  | blockStarts blocked =>
    cases hstep
    exact h
  | dies child | error child =>
    obtain ⟨r, hr, rfl⟩ := Option.map_eq_some_iff.mp hstep
    obtain ⟨hfound, hmoved⟩ := moveChild_eq_some hr
    rw [hmoved]
    exact h.moved hfound (by decide)
  | exit child =>
    obtain ⟨r, hr, rfl⟩ := Option.map_eq_some_iff.mp hstep
    obtain ⟨hfound, hmoved⟩ := moveChild_eq_some hr
    dsimp only
    rw [hmoved]
    exact h.exited hfound

/-- Where the table is as it should be, a step is right exactly if its spawn works. -/
theorem Listed.right_iff (h : s.Listed) : s.Right event ↔ s.SpawnWorks event := by
  constructor
  · intro hright instanceId pid hevent hfree hnew hpid
    have hlist := hright.1 instanceId _ hevent "Failed to get process PID".toList
      (by simp [start, hfree, hnew, hpid])
    have hnow := congrFun hlist instanceId
    simp only [start, hfree, hnew, hpid, Bool.false_eq_true, if_false, if_true] at hnow
    simp [isRunning, ProcessManager.addChild] at hnow
  · intro hworks
    refine ⟨fun instanceId spawn hevent message herror => ?_,
      fun t hstep => (h.step hworks hstep).exact⟩
    subst hevent
    rcases start_cases s instanceId spawn with hsame | ⟨pid, rfl, hfree, hnew, _, hok⟩
    · rw [hsame]
    · rw [hok (hworks instanceId pid rfl hfree hnew)] at herror
      cases herror

theorem listed_empty : empty.Listed := fun _ _ => iff_of_false nofun (fun h => by simp [empty] at h)

/-- **The process table.**  In every run, a start that throws leaves the running instances and the
table is exact after every step, exactly if every spawn of the run that is reached works. -/
theorem table_exact_iff (events : List Event) :
    Guarded step Right empty events ↔ Guarded step SpawnWorks empty events :=
  guarded_congr (fun _ _ hs _ => hs.right_iff) (fun _ _ _ hs _ hok hstep => hs.step hok hstep)
    listed_empty (show Guarded step Always _ _ from guarded_of_forall (fun _ _ _ => trivial) _)

/-- The binary cannot be spawned: all is handled, nothing lives, and the instance is running and
cannot be started any more. -/
theorem failed_spawn_stays_listed :
    ∃ s, run step empty [.start "proxy".toList (.child none), .error 0] = some s ∧ s.Quiet ∧
      s.isRunning "proxy".toList = true ∧ (∀ c ∈ s.children, c.state ≠ .live) ∧
      (s.start "proxy".toList (.child (some 7))).1 =
        .error "Process for instance proxy is already running".toList :=
  ⟨_, rfl, by unfold Quiet; decide, by decide, by decide, by decide⟩

end ProcessManager

end FerrumProxy
