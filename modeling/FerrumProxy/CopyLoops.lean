import FerrumProxy.GuardedRuns

/-!
# Copy loops that stop together

A copy loop reads what its source has sent, at most a buffer at a time, and writes it to its sink;
when the source has ended its stream and everything is written, it ends the sink's.  Every poll of a
read, a write or a shutdown is one step, and any of them may fail.

Several loops run side by side until a rule `isOver` of the program says that they stop; from then
on what a source sends stays where it is.
-/

namespace Copying

open Runs

/-- Where a loop is. -/
inductive Phase (α : Type) where
  | reading
  /-- In a write, with this left to write. -/
  | writing (rest : List α)
  /-- The end of the stream has been read. -/
  | ending
  | ended
  | failed
  deriving DecidableEq

/-- A loop, and what its source has sent so far. -/
structure Pipe (α : Type) where
  sent : List α := []
  closed : Bool := false
  unread : List α := []
  phase : Phase α := .reading
  written : List α := []
  deriving DecidableEq

/-- What can happen to a loop. -/
inductive PipeEvent (α : Type) where
  /-- The source sends. -/
  | send (items : List α)
  /-- The source ends its stream. -/
  | close
  | read (count : Nat)
  /-- A read meets the end of the stream. -/
  | readEnd
  | write (count : Nat)
  | shutdown
  /-- The read, the write or the shutdown fails. -/
  | fail
  deriving DecidableEq

variable {α : Type}

/-- The events that the loop itself takes part in. -/
def PipeEvent.isOwn : PipeEvent α → Bool
  | .send _ | .close => false
  | _ => true

def PipeEvent.isFailure : PipeEvent α → Bool
  | .fail => true
  | _ => false

namespace Phase

/-- What the loop has read and not written. -/
def rest : Phase α → List α
  | .writing rest => rest
  | _ => []

/-- The loop has returned. -/
def isOver : Phase α → Bool
  | .ended | .failed => true
  | _ => false

/-- After a write that leaves `rest`. -/
def afterWrite (rest : List α) : Phase α := if rest.isEmpty then .reading else .writing rest

/-- A bound on the steps before the loop reads again or returns. -/
def weight : Phase α → Nat
  | .reading => 2
  | .writing rest => rest.length + 2
  | .ending => 1
  | .ended | .failed => 0

@[simp] theorem rest_afterWrite (rest : List α) : (afterWrite rest).rest = rest := by
  cases rest <;> rfl

theorem afterWrite_cases (rest : List α) :
    afterWrite rest ≠ .writing [] ∧ afterWrite rest ≠ .ending ∧ afterWrite rest ≠ .ended ∧
      afterWrite rest ≠ .failed := by
  cases rest <;> simp [afterWrite]

@[simp] theorem weight_afterWrite (rest : List α) : (afterWrite rest).weight = rest.length + 2 := by
  cases rest <;> rfl

/-- A failure; a loop may not care whether its last step succeeds. -/
def afterFailure (lenient : Bool) : Phase α → Option (Phase α)
  | .reading | .writing _ => some .failed
  | .ending => some (if lenient then .ended else .failed)
  | .ended | .failed => none

theorem weight_afterFailure {lenient : Bool} {phase next : Phase α}
    (h : phase.afterFailure lenient = some next) : next.weight < phase.weight := by
  cases phase with
  | reading | writing _ =>
    cases h
    simp [weight]
  | ending => cases lenient <;> cases h <;> simp [weight]
  | ended | failed => cases h

end Phase

open List

namespace Pipe

/-- What was sent and is not written. -/
def outstanding (pipe : Pipe α) : List α := pipe.phase.rest ++ pipe.unread

def step (cap : Nat) (lenient : Bool) (pipe : Pipe α) : PipeEvent α → Option (Pipe α)
  | .send items =>
    if pipe.closed || items.isEmpty then none
    else some { pipe with sent := pipe.sent ++ items, unread := pipe.unread ++ items }
  | .close => if pipe.closed then none else some { pipe with closed := true }
  | .read count =>
    match pipe.phase with
    | .reading =>
      if 0 < count ∧ count ≤ cap ∧ count ≤ pipe.unread.length then
        some { pipe with
          unread := pipe.unread.drop count
          phase := .writing (pipe.unread.take count) }
      else none
    | _ => none
  | .readEnd =>
    match pipe.phase with
    | .reading =>
      if pipe.closed && pipe.unread.isEmpty then some { pipe with phase := .ending } else none
    | _ => none
  | .write count =>
    match pipe.phase with
    | .writing rest =>
      if 0 < count ∧ count ≤ rest.length then
        some { pipe with
          written := pipe.written ++ rest.take count
          phase := .afterWrite (rest.drop count) }
      else none
    | _ => none
  | .shutdown =>
    match pipe.phase with
    | .ending => some { pipe with phase := .ended }
    | _ => none
  | .fail => (pipe.phase.afterFailure lenient).map (fun phase => { pipe with phase := phase })

variable {cap : Nat} {lenient : Bool} {pipe next : Pipe α} {event : PipeEvent α}

/-- What one event does. -/
inductive Change (cap : Nat) (lenient : Bool) (pipe : Pipe α) : PipeEvent α → Pipe α → Prop
  | send (items : List α) (hopen : pipe.closed = false) (hne : items ≠ []) :
      Change cap lenient pipe (.send items)
        { pipe with sent := pipe.sent ++ items, unread := pipe.unread ++ items }
  | close (hopen : pipe.closed = false) :
      Change cap lenient pipe .close { pipe with closed := true }
  | read (count : Nat) (hphase : pipe.phase = .reading) (hpos : 0 < count) (hcap : count ≤ cap)
      (hcount : count ≤ pipe.unread.length) :
      Change cap lenient pipe (.read count)
        { pipe with
          unread := pipe.unread.drop count
          phase := .writing (pipe.unread.take count) }
  | readEnd (hphase : pipe.phase = .reading) (hclosed : pipe.closed = true)
      (hempty : pipe.unread = []) :
      Change cap lenient pipe .readEnd { pipe with phase := .ending }
  | write (count : Nat) (rest : List α) (hphase : pipe.phase = .writing rest) (hpos : 0 < count)
      (hcount : count ≤ rest.length) :
      Change cap lenient pipe (.write count)
        { pipe with
          written := pipe.written ++ rest.take count
          phase := .afterWrite (rest.drop count) }
  | shutdown (hphase : pipe.phase = .ending) :
      Change cap lenient pipe .shutdown { pipe with phase := .ended }
  | fail (phase : Phase α) (hphase : pipe.phase.afterFailure lenient = some phase) :
      Change cap lenient pipe .fail { pipe with phase := phase }

/-- The steps of a pipe are its changes. -/
theorem step_iff :
    pipe.step cap lenient event = some next ↔ Change cap lenient pipe event next := by
  constructor
  · intro h
    cases event with
    | send items =>
      simp only [step, Option.ite_none_left_eq_some, Bool.or_eq_true, List.isEmpty_iff, not_or,
        Bool.not_eq_true] at h
      obtain ⟨⟨hopen, hne⟩, heq⟩ := h
      cases heq
      exact .send items hopen hne
    | close =>
      simp only [step, Option.ite_none_left_eq_some, Bool.not_eq_true] at h
      obtain ⟨hopen, heq⟩ := h
      cases heq
      exact .close hopen
    | read count =>
      simp only [step] at h
      split at h
      · rename_i hphase
        obtain ⟨⟨hpos, hcap, hcount⟩, heq⟩ := Option.ite_none_right_eq_some.mp h
        cases heq
        exact .read count hphase hpos hcap hcount
      · cases h
    | readEnd =>
      simp only [step] at h
      split at h
      · rename_i hphase
        simp only [Option.ite_none_right_eq_some, Bool.and_eq_true, List.isEmpty_iff] at h
        obtain ⟨⟨hclosed, hempty⟩, heq⟩ := h
        cases heq
        exact .readEnd hphase hclosed hempty
      · cases h
    | write count =>
      simp only [step] at h
      split at h
      · rename_i rest hphase
        obtain ⟨⟨hpos, hcount⟩, heq⟩ := Option.ite_none_right_eq_some.mp h
        cases heq
        exact .write count rest hphase hpos hcount
      · cases h
    | shutdown =>
      simp only [step] at h
      split at h <;> cases h
      next hphase => exact .shutdown hphase
    | fail =>
      obtain ⟨phase, hphase, heq⟩ := Option.map_eq_some_iff.mp h
      cases heq
      exact .fail phase hphase
  · intro h
    cases h with
    | send items hopen hne => simp [step, hopen, hne]
    | close hopen => simp [step, hopen]
    | read count hphase hpos hcap hcount => simp [step, hphase, hpos, hcap, hcount]
    | readEnd hphase hclosed hempty => simp [step, hphase, hclosed, hempty]
    | write count rest hphase hpos hcount => simp [step, hphase, hpos, hcount]
    | shutdown hphase | fail phase hphase => simp [step, hphase]

/-! ## Nothing is lost inside a loop -/

/-- A loop that has not failed. -/
structure Sound (initial : List α) (pipe : Pipe α) : Prop where
  /-- What is written, held and unread is what the loop began with and what was sent. -/
  whole : pipe.written ++ pipe.outstanding = initial ++ pipe.sent
  busy : pipe.phase ≠ .writing []
  /-- A loop that has read the end of the stream has read all of it. -/
  drained : pipe.phase = .ending ∨ pipe.phase = .ended → pipe.closed = true ∧ pipe.unread = []
  unfailed : pipe.phase ≠ .failed

section

variable {initial : List α} (h : pipe.Sound initial)

include h

/-- Steps without a failure keep a pipe sound. -/
theorem Sound.step (hstep : pipe.step cap lenient event = some next)
    (hok : event.isFailure = false) : next.Sound initial := by
  obtain ⟨hwhole, hbusy, hdrained, hunfailed⟩ := h
  unfold outstanding at hwhole
  cases step_iff.mp hstep with
  | send items hopen hne =>
    refine ⟨?_, hbusy, fun hphase => ?_, hunfailed⟩
    · simp only [outstanding, ← append_assoc] at hwhole ⊢
      rw [hwhole]
    · rw [(hdrained hphase).1] at hopen
      cases hopen
  | close hopen => exact ⟨hwhole, hbusy, fun hphase => ⟨rfl, (hdrained hphase).2⟩, hunfailed⟩
  | read count hphase hpos hcap hcount =>
    rw [hphase] at hwhole
    refine ⟨by simpa [outstanding, Phase.rest] using hwhole, fun hnil => ?_,
      fun h => by simp at h, by simp⟩
    have htake : pipe.unread.take count = [] := Phase.writing.inj hnil
    have hlen := congrArg length htake
    rw [length_take, length_nil] at hlen
    omega
  | readEnd hphase hclosed hempty =>
    rw [hphase] at hwhole
    exact ⟨hwhole, by simp, fun _ => ⟨hclosed, hempty⟩, by simp⟩
  | write count rest hphase hpos hcount =>
    rw [hphase] at hwhole
    have hleft := Phase.afterWrite_cases (rest.drop count)
    refine ⟨?_, hleft.1, fun h => ?_, hleft.2.2.2⟩
    · simp only [outstanding, Phase.rest_afterWrite]
      rw [append_assoc, ← append_assoc (rest.take count), take_append_drop]
      exact hwhole
    · exact absurd h (not_or.mpr ⟨hleft.2.1, hleft.2.2.1⟩)
  | shutdown hphase =>
    rw [hphase] at hwhole
    exact ⟨hwhole, by simp, fun _ => hdrained (.inl hphase), by simp⟩
  | fail phase hphase => cases hok

/-- A loop that has returned without a failure has written everything. -/
theorem Sound.written_of_ended (hended : pipe.phase = .ended) :
    pipe.written = initial ++ pipe.sent := by
  have hwhole := h.whole
  rw [outstanding, hended, (h.drained (.inr hended)).2] at hwhole
  simpa [Phase.rest] using hwhole

/-- All is written when nothing is outstanding. -/
theorem Sound.written_iff : pipe.written = initial ++ pipe.sent ↔ pipe.outstanding = [] := by
  rw [← h.whole]
  exact ⟨fun heq => append_right_eq_self.mp heq.symm, fun hnil => by rw [hnil]; simp⟩

end

/-! ## Work -/

/-- A bound on the events that the loop takes part in before its source sends again. -/
def work (pipe : Pipe α) : Nat := 2 * pipe.unread.length + pipe.phase.weight

/-- A pipe's own steps lessen its work. -/
theorem work_step (hstep : pipe.step cap lenient event = some next) (hown : event.isOwn = true) :
    next.work < pipe.work := by
  cases step_iff.mp hstep with
  | send | close => cases hown
  | read count hphase hpos hcap hcount =>
    simp only [work, hphase, Phase.weight, length_drop, length_take]
    omega
  | readEnd hphase hclosed hempty | shutdown hphase =>
    simp only [work, hphase, Phase.weight]
    omega
  | write count rest hphase hpos hcount =>
    have hbefore : pipe.phase.weight = rest.length + 2 := by rw [hphase]; rfl
    simp only [work, hbefore, Phase.weight_afterWrite, length_drop]
    omega
  | fail phase hphase =>
    have hless := Phase.weight_afterFailure hphase
    simp only [work]
    omega

/-- No event of the loop is possible, but for failures. -/
def AtRest (cap : Nat) (lenient : Bool) (pipe : Pipe α) : Prop :=
  ∀ event, event.isOwn = true → event.isFailure = false → pipe.step cap lenient event = none

/-- A loop at rest has returned, or it has written all that was sent and waits for more. -/
theorem Sound.of_atRest {initial : List α} (h : pipe.Sound initial) (hcap : 0 < cap)
    (hrest : pipe.AtRest cap lenient) :
    pipe.phase = .ended ∨ pipe.outstanding = [] ∧ pipe.closed = false := by
  have hnone : ∀ {event : PipeEvent α} {next : Pipe α}, event.isOwn = true →
      event.isFailure = false → ¬ Change cap lenient pipe event next := by
    intro event next hown hok hchange
    have hstep := hrest event hown hok
    rw [step_iff.mpr hchange] at hstep
    cases hstep
  cases hphase : pipe.phase with
  | reading =>
    have hempty : pipe.unread = [] := by
      by_contra hne
      have hpos := length_pos_of_ne_nil hne
      exact hnone rfl rfl (.read 1 hphase (by omega) (by omega) (by omega))
    refine .inr ⟨by rw [outstanding, hphase, hempty]; rfl, ?_⟩
    by_contra hclosed
    exact hnone rfl rfl (.readEnd hphase (Bool.not_eq_false _ ▸ hclosed) hempty)
  | writing rest =>
    exfalso
    have hne : rest ≠ [] := fun hnil => h.busy (hnil ▸ hphase)
    have hpos := length_pos_of_ne_nil hne
    exact hnone rfl rfl (.write 1 rest hphase (by omega) (by omega))
  | ending => exact absurd (.shutdown hphase) (hnone rfl rfl)
  | ended => exact .inl rfl
  | failed => exact absurd hphase h.unfailed

end Pipe

/-! ## Loops side by side -/

section Group

variable {ι : Type} [DecidableEq ι]

/-- An event at one of the loops.  No loop goes on when they are over. -/
def step (cap : Nat) (lenient : Bool) (isOver : (ι → Pipe α) → Bool) (pipes : ι → Pipe α)
    (event : ι × PipeEvent α) : Option (ι → Pipe α) :=
  if event.2.isOwn && isOver pipes then none
  else ((pipes event.1).step cap lenient event.2).map (Function.update pipes event.1)

variable {cap : Nat} {lenient : Bool} {isOver : (ι → Pipe α) → Bool} {pipes next : ι → Pipe α}
  {i : ι} {event : PipeEvent α}

theorem step_eq_some :
    step cap lenient isOver pipes (i, event) = some next ↔
      (event.isOwn = true → isOver pipes = false) ∧
        ∃ pipe, (pipes i).step cap lenient event = some pipe ∧
          next = Function.update pipes i pipe := by
  simp only [step, Option.ite_none_left_eq_some, Option.map_eq_some_iff, Bool.and_eq_true, not_and,
    Bool.not_eq_true]
  exact and_congr_right (fun _ => exists_congr (fun _ => and_congr_right (fun _ => eq_comm)))

/-- Neither loop meets a failure. -/
def Unfailing (_ : ι → Pipe α) (event : ι × PipeEvent α) : Prop := event.2.isFailure = false

/-- No loop has lost anything of what it began with and what was sent. -/
def AllSound (initial : ι → List α) (pipes : ι → Pipe α) : Prop :=
  ∀ i, (pipes i).Sound (initial i)

/-- A step of one pipe keeps all sound. -/
theorem AllSound.step {initial : ι → List α} {event : ι × PipeEvent α}
    (hsound : AllSound initial pipes) (hok : Unfailing pipes event)
    (hstep : step cap lenient isOver pipes event = some next) : AllSound initial next := by
  intro i
  obtain ⟨j, event⟩ := event
  obtain ⟨_, pipe, hpipe, rfl⟩ := step_eq_some.mp hstep
  by_cases hij : i = j
  · subst hij
    rw [Function.update_self]
    exact (hsound i).step hpipe hok
  · rw [Function.update_of_ne hij]
    exact hsound i

/-- No event of a loop is possible, but for failures. -/
def AtRest (cap : Nat) (lenient : Bool) (isOver : (ι → Pipe α) → Bool) (pipes : ι → Pipe α) : Prop :=
  ∀ i event, event.isOwn = true → event.isFailure = false →
    step cap lenient isOver pipes (i, event) = none

theorem atRest_of_over (h : isOver pipes = true) : AtRest cap lenient isOver pipes := by
  intro i event hown _
  simp [step, hown, h]

theorem AtRest.pipe (h : AtRest cap lenient isOver pipes) (hover : isOver pipes = false) (i : ι) :
    (pipes i).AtRest cap lenient := by
  intro event hown hok
  have hnone := h i event hown hok
  simpa [step, hover] using hnone

/-- **The loops come to rest** whatever they have been doing: a schedule of their own events
that is as long as it can be ends in a state of rest. -/
theorem exists_rest [Fintype ι] (pipes : ι → Pipe α) :
    ∃ events rest, (∀ event ∈ events, event.2.isOwn = true ∧ event.2.isFailure = false) ∧
      run (step cap lenient isOver) pipes events = some rest ∧ AtRest cap lenient isOver rest := by
  induction hwork : ∑ i, (pipes i).work using Nat.strong_induction_on generalizing pipes with
  | _ n ih =>
    by_cases hrest : AtRest cap lenient isOver pipes
    · exact ⟨[], pipes, by simp, rfl, hrest⟩
    · simp only [AtRest, not_forall] at hrest
      obtain ⟨i, event, hown, hok, hsome⟩ := hrest
      obtain ⟨next, hstep⟩ := Option.ne_none_iff_exists'.mp hsome
      obtain ⟨_, pipe, hpipe, rfl⟩ := step_eq_some.mp hstep
      have hless : ∑ j, (Function.update pipes i pipe j).work < n := by
        rw [← hwork]
        refine Finset.sum_lt_sum (fun j _ => ?_) ⟨i, Finset.mem_univ i, ?_⟩
        · by_cases hij : j = i
          · subst hij
            rw [Function.update_self]
            exact (Pipe.work_step hpipe hown).le
          · rw [Function.update_of_ne hij]
        · rw [Function.update_self]
          exact Pipe.work_step hpipe hown
      obtain ⟨events, rest, hevents, hrun, hat⟩ := ih _ hless _ rfl
      refine ⟨(i, event) :: events, rest, ?_, ?_, hat⟩
      · exact forall_mem_cons.mpr ⟨⟨hown, hok⟩, hevents⟩
      · rw [run, hstep]
        exact hrun

end Group

end Copying
