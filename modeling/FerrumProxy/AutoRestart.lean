import FerrumProxy.GuardedRuns

/-!
# Automatic restarts of an instance

The `exit` handler of the GUI counts the restarts of an instance in `restartAttempts` and gives up
after five within a minute; a restart that succeeds deletes the entry.  A handler is cut where it
awaits, and anything may happen in between.
-/

namespace FerrumProxy

open Runs

/-- An entry of `restartAttempts`. -/
structure RestartInfo where
  count : Nat
  firstAttemptAt : Nat
  deriving DecidableEq

/-- An instance, the handlers that wait, and a record of what was decided: each restart with its
time and backoff, and whether one was refused. -/
structure AutoRestart where
  running : Bool
  intentionalStop : Bool
  attempts : Option RestartInfo
  exiting : Nat
  timers : List Nat
  starting : Nat
  recording : Nat
  clock : Nat
  scheduled : List (Nat × Nat)
  gaveUp : Bool
  deriving DecidableEq

namespace AutoRestart

def new : AutoRestart := ⟨false, false, none, 0, [], 0, 0, 0, [], false⟩

def markIntentionalStop (s : AutoRestart) : AutoRestart :=
  { s with intentionalStop := true, attempts := none }

/-- The entry the handler goes by: the stored one, if its minute is not over. -/
def restartInfo (s : AutoRestart) : RestartInfo :=
  let info := s.attempts.getD ⟨0, s.clock⟩
  if 60000 < s.clock - info.firstAttemptAt then ⟨0, s.clock⟩ else info

/-- The rest of the `exit` handler; `wanted` says that no update is under way and that the instance
exists and has `autoRestart`. -/
def onExit (s : AutoRestart) (wanted : Bool) : AutoRestart :=
  if s.intentionalStop then { s with intentionalStop := false }
  else if !wanted then s
  else if 5 ≤ s.restartInfo.count then { s with gaveUp := true }
  else
    let count := s.restartInfo.count + 1
    let backoffMs := 1000 * count
    { s with
      attempts := some ⟨count, s.restartInfo.firstAttemptAt⟩
      timers := (s.clock + backoffMs) :: s.timers
      scheduled := s.scheduled ++ [(s.clock, backoffMs)] }

/-- The callback of the timer, up to its first `await`. -/
def onTimer (s : AutoRestart) (wanted : Bool) : AutoRestart :=
  if !wanted then s
  else if s.running then { s with attempts := none }
  else { s with starting := s.starting + 1 }

/-- Starts and stops by others, the end of the process, and the parts of the two handlers. -/
inductive Event
  | start
  | stop
  | exits
  | handled (wanted : Bool)
  | fires (due : Nat) (wanted : Bool)
  | starts (works : Bool)
  | recorded (works : Bool)

def act (s : AutoRestart) : Event → Option AutoRestart
  | .start => if s.running then none else some { s with running := true }
  | .stop => some s.markIntentionalStop
  | .exits =>
    if s.running then some { s with running := false, exiting := s.exiting + 1 } else none
  | .handled wanted =>
    if s.exiting = 0 then none else some (onExit { s with exiting := s.exiting - 1 } wanted)
  | .fires due wanted =>
    if due ∈ s.timers ∧ due ≤ s.clock then
      some (onTimer { s with timers := s.timers.erase due } wanted)
    else none
  | .starts works =>
    if s.starting = 0 then none
    -- `start` throws if the instance is running by now.
    else if works && !s.running then
      some { s with starting := s.starting - 1, running := true, recording := s.recording + 1 }
    else some { s with starting := s.starting - 1 }
  | .recorded works =>
    if s.recording = 0 then none
    else some { s with
      recording := s.recording - 1, attempts := if works then none else s.attempts }

/-- An event at its time; the clock does not go back. -/
def step (s : AutoRestart) (event : Nat × Event) : Option AutoRestart :=
  if event.1 < s.clock then none else act { s with clock := event.1 } event.2

/-- An entry is deleted only when its minute is over. -/
def keepsCount (s : AutoRestart) (event : Nat × Event) : Bool :=
  s.attempts.all (fun info =>
    ((s.step event).bind attempts).isSome || decide (info.firstAttemptAt + 60000 < event.1))

/-- No timer or callback is left. -/
def settled (s : AutoRestart) : Bool := s.timers.isEmpty && s.starting == 0 && s.recording == 0

/-- An exit is handled when the restart before it is over, and no restart fails. -/
def completes (s : AutoRestart) : Nat × Event → Bool
  | (_, .handled _) => s.settled
  | (_, .fires _ works) | (_, .recorded works) => works
  | (_, .starts works) => works && !s.running
  | _ => true

/-- The restarts in the minute from `time`. -/
def restartsFrom (scheduled : List (Nat × Nat)) (time : Nat) : Nat :=
  scheduled.countP (fun r => time ≤ r.1 ∧ r.1 ≤ time + 60000)

/-- There was no restart in the minute before `time`. -/
def QuietBefore (scheduled : List (Nat × Nat)) (time : Nat) : Prop :=
  ∀ r ∈ scheduled, r.1 < time → r.1 + 60000 < time

variable {s t : AutoRestart} {event : Nat × Event}

/-- The handler goes by the stored entry, or by a new one if that is too old. -/
theorem restartInfo_cases (s : AutoRestart) :
    s.attempts = some s.restartInfo ∧ s.clock ≤ s.restartInfo.firstAttemptAt + 60000 ∨
      s.restartInfo = ⟨0, s.clock⟩ ∧
        ∀ old, s.attempts = some old → old.firstAttemptAt + 60000 < s.clock := by
  unfold restartInfo
  cases s.attempts with
  | none => exact .inr ⟨by simp, by simp⟩
  | some info =>
    dsimp only [Option.getD_some]
    split
    · next hold =>
      refine .inr ⟨rfl, fun old heq => ?_⟩
      cases heq
      omega
    · exact .inl ⟨rfl, by omega⟩

/-- A step keeps or deletes the entry and schedules nothing, or it schedules a restart: the first
of a new entry, if a stored one is too old, or one more of the stored entry. -/
theorem step_cases (h : s.step event = some t) :
    t.clock = event.1 ∧ s.clock ≤ event.1 ∧
      ((t.attempts = s.attempts ∨ t.attempts = none) ∧ t.scheduled = s.scheduled ∨
        ∃ count first, t.attempts = some ⟨count + 1, first⟩ ∧ count < 5 ∧
          t.scheduled = s.scheduled ++ [(event.1, 1000 * (count + 1))] ∧
          (s.attempts = some ⟨count, first⟩ ∧ event.1 ≤ first + 60000 ∨
            count = 0 ∧ first = event.1 ∧
              ∀ old, s.attempts = some old → old.firstAttemptAt + 60000 < event.1)) := by
  obtain ⟨now, event⟩ := event
  obtain ⟨hnow, h⟩ := Option.ite_none_left_eq_some.mp h
  have hle : s.clock ≤ now := not_lt.mp hnow
  cases event with
  | start | exits =>
    simp only [act] at h
    split at h <;> cases h
    exact ⟨rfl, hle, .inl ⟨.inl rfl, rfl⟩⟩
  | stop =>
    cases h
    exact ⟨rfl, hle, .inl ⟨.inr rfl, rfl⟩⟩
  | handled wanted =>
    obtain ⟨_, h⟩ := Option.ite_none_left_eq_some.mp h
    cases h
    unfold onExit
    split
    · exact ⟨rfl, hle, .inl ⟨.inl rfl, rfl⟩⟩
    split
    · exact ⟨rfl, hle, .inl ⟨.inl rfl, rfl⟩⟩
    split
    · exact ⟨rfl, hle, .inl ⟨.inl rfl, rfl⟩⟩
    next hfew =>
    refine ⟨rfl, hle, .inr ⟨_, _, rfl, not_le.mp hfew, rfl, ?_⟩⟩
    rcases restartInfo_cases { s with clock := now, exiting := s.exiting - 1 } with hkept | hnew
    · exact .inl hkept
    · exact .inr ⟨congrArg RestartInfo.count hnew.1, congrArg RestartInfo.firstAttemptAt hnew.1,
        hnew.2⟩
  | fires due wanted =>
    obtain ⟨_, h⟩ := Option.ite_none_right_eq_some.mp h
    cases h
    unfold onTimer
    split
    · exact ⟨rfl, hle, .inl ⟨.inl rfl, rfl⟩⟩
    split
    · exact ⟨rfl, hle, .inl ⟨.inr rfl, rfl⟩⟩
    · exact ⟨rfl, hle, .inl ⟨.inl rfl, rfl⟩⟩
  | starts works =>
    obtain ⟨_, h⟩ := Option.ite_none_left_eq_some.mp h
    split at h <;> cases h <;> exact ⟨rfl, hle, .inl ⟨.inl rfl, rfl⟩⟩
  | recorded works =>
    obtain ⟨_, h⟩ := Option.ite_none_left_eq_some.mp h
    cases h
    cases works with
    | true => exact ⟨rfl, hle, .inl ⟨.inr rfl, rfl⟩⟩
    | false => exact ⟨rfl, hle, .inl ⟨.inl rfl, rfl⟩⟩

/-- The entry stands for the restarts since its first one. -/
structure Counted (s : AutoRestart) : Prop where
  past : ∀ r ∈ s.scheduled, r.1 ≤ s.clock
  first : ∀ info, s.attempts = some info → ∃ r ∈ s.scheduled, r.1 = info.firstAttemptAt
  burst : ∀ r ∈ s.scheduled, QuietBefore s.scheduled r.1 →
    restartsFrom s.scheduled r.1 ≤ 5 ∧
      (s.clock ≤ r.1 + 60000 → s.attempts = some ⟨restartsFrom s.scheduled r.1, r.1⟩)

theorem restartsFrom_append (scheduled : List (Nat × Nat)) (r : Nat × Nat) (time : Nat) :
    restartsFrom (scheduled ++ [r]) time =
      restartsFrom scheduled time + if time ≤ r.1 ∧ r.1 ≤ time + 60000 then 1 else 0 := by
  simp [restartsFrom, List.countP_append, List.countP_singleton]

/-- A step that schedules nothing deletes no entry whose minute is not over. -/
theorem Counted.quiet (h : s.Counted) (hkeeps : s.keepsCount event)
    (hstep : s.step event = some t) (hclock : t.clock = event.1) (hnow : s.clock ≤ event.1)
    (hattempts : t.attempts = s.attempts ∨ t.attempts = none)
    (hscheduled : t.scheduled = s.scheduled) : t.Counted := by
  refine ⟨fun r hr => ?_, fun info hinfo => ?_, fun r hr hquiet => ?_⟩
  · rw [hclock]
    exact (h.past r (hscheduled ▸ hr)).trans hnow
  · rcases hattempts with hkept | hnone
    · rw [hscheduled]
      exact h.first info (hkept.symm.trans hinfo)
    · cases hnone.symm.trans hinfo
  · rw [hscheduled] at hr hquiet ⊢
    obtain ⟨hfive, hentry⟩ := h.burst r hr hquiet
    refine ⟨hfive, fun hlate => ?_⟩
    rw [hclock] at hlate
    have hold := hentry (hnow.trans hlate)
    rcases hattempts with hkept | hnone
    · exact hkept.trans hold
    · simp [keepsCount, hstep, hold, hnone] at hkeeps
      omega

/-- One more restart is the next of its burst, or the first of a new one. -/
theorem Counted.scheduled {count first : Nat} (h : s.Counted) (hclock : t.clock = event.1)
    (hnow : s.clock ≤ event.1) (hattempts : t.attempts = some ⟨count + 1, first⟩) (hcount : count < 5)
    (hscheduled : t.scheduled = s.scheduled ++ [(event.1, 1000 * (count + 1))])
    (hentry : s.attempts = some ⟨count, first⟩ ∧ event.1 ≤ first + 60000 ∨
      count = 0 ∧ first = event.1 ∧
        ∀ old, s.attempts = some old → old.firstAttemptAt + 60000 < event.1) : t.Counted := by
  have hpast : ∀ r ∈ s.scheduled, r.1 ≤ event.1 := fun r hr => (h.past r hr).trans hnow
  refine ⟨fun r hr => ?_, fun info hinfo => ?_, fun r hr hquiet => ?_⟩
  · rw [hscheduled, List.mem_append, List.mem_singleton] at hr
    rcases hr with hr | rfl
    · exact hclock ▸ hpast r hr
    · exact hclock.ge
  · cases hattempts.symm.trans hinfo
    rw [hscheduled]
    rcases hentry with ⟨hstored, _⟩ | ⟨_, hfirst, _⟩
    · obtain ⟨r, hr, hsame⟩ := h.first _ hstored
      exact ⟨r, List.mem_append_left _ hr, hsame⟩
    · exact ⟨_, List.mem_append_right _ (List.mem_singleton_self _), hfirst.symm⟩
  · rw [hscheduled] at hr hquiet
    have hbefore : QuietBefore s.scheduled r.1 := fun r' hr' => hquiet r' (List.mem_append_left _ hr')
    rw [hscheduled, restartsFrom_append, hclock, hattempts]
    by_cases hold : ∃ r' ∈ s.scheduled, r'.1 = r.1
    · obtain ⟨r', hr', hsame⟩ := hold
      obtain ⟨hfive, hburst⟩ := h.burst r' hr' (hsame ▸ hbefore)
      rw [hsame] at hfive hburst
      by_cases hlate : event.1 ≤ r.1 + 60000
      · have hstored := hburst (hnow.trans hlate)
        rw [if_pos ⟨hsame ▸ hpast r' hr', hlate⟩]
        rcases hentry with ⟨hcounted, _⟩ | ⟨_, _, hexpired⟩
        · cases hstored.symm.trans hcounted
          exact ⟨hcount, fun _ => rfl⟩
        · exact absurd hlate (Nat.not_le.mpr (hexpired _ hstored))
      · rw [if_neg fun hin => hlate hin.2]
        exact ⟨hfive, fun hin => absurd hin hlate⟩
    · -- the first restart of a burst finds no entry, or one of an earlier minute
      have hnew : r.1 = event.1 := by
        rw [List.mem_append, List.mem_singleton] at hr
        rcases hr with hr | rfl
        · exact absurd ⟨r, hr, rfl⟩ hold
        · rfl
      have hearlier : ∀ r' ∈ s.scheduled, r'.1 < event.1 := fun r' hr' =>
        lt_of_le_of_ne (hpast r' hr') fun heq => hold ⟨r', hr', heq.trans hnew.symm⟩
      have hnone : restartsFrom s.scheduled r.1 = 0 := by
        refine List.countP_eq_zero.mpr fun r' hr' => ?_
        simpa using fun hin => absurd hin (Nat.not_le.mpr (hnew ▸ hearlier r' hr'))
      rw [hnone, if_pos ⟨hnew.le, hnew ▸ Nat.le_add_right ..⟩]
      refine ⟨by decide, fun _ => ?_⟩
      rcases hentry with ⟨hstored, hlate⟩ | ⟨rfl, hfirst, _⟩
      · obtain ⟨r', hr', hsame⟩ := h.first _ hstored
        have hover := hbefore r' hr' (hnew ▸ hearlier r' hr')
        rw [hsame, hnew] at hover
        exact absurd hlate (Nat.not_le.mpr hover)
      · rw [hfirst, hnew]

theorem Counted.step (h : s.Counted) (hkeeps : s.keepsCount event) (hstep : s.step event = some t) :
    t.Counted := by
  obtain ⟨hclock, hnow, ⟨hattempts, hscheduled⟩ |
    ⟨count, first, hattempts, hcount, hscheduled, hentry⟩⟩ := step_cases hstep
  · exact h.quiet hkeeps hstep hclock hnow hattempts hscheduled
  · exact h.scheduled hclock hnow hattempts hcount hscheduled hentry

/-- If no entry is deleted in its minute, there are at most five restarts in the minute from the
first one of a burst. -/
theorem at_most_five_restarts (h : Reaches step (keepsCount · ·) new s) :
    ∀ r ∈ s.scheduled, QuietBefore s.scheduled r.1 → restartsFrom s.scheduled r.1 ≤ 5 := by
  have hcounted : s.Counted :=
    h.invariant ⟨by simp [new], by simp [new], by simp [new]⟩ (fun _ _ _ => Counted.step)
  exact fun r hr hquiet => (hcounted.burst r hr hquiet).1

/-- Five restarts fail, each time the instance is started by hand, and the sixth is refused. -/
def failing : List (Nat × Event) := (List.range 6).flatMap (fun k =>
  let fails : List Event := if k = 5 then [] else [.fires (8000 * k + 1000) true, .starts false]
  [.start, .exits, .handled true].map (7000 * k, ·) ++ fails.map (7000 * k + 6000, ·))

/-- The limit holds where every restart fails. -/
theorem at_most_five_restarts_failing : ∃ s, run step new failing = some s ∧ s.gaveUp = true ∧
    ∀ r ∈ s.scheduled, QuietBefore s.scheduled r.1 → restartsFrom s.scheduled r.1 ≤ 5 := by
  have hrefused : (run step new failing).map gaveUp = some true := by decide
  obtain ⟨s, hrun, hgaveUp⟩ := Option.map_eq_some_iff.mp hrefused
  exact ⟨s, hrun, hgaveUp, at_most_five_restarts (reaches_of_guarded (by decide) hrun)⟩

/-- Without a restart under way there is no entry, and every restart so far came after a second. -/
def Fresh (s : AutoRestart) : Prop :=
  (s.settled = true → s.attempts = none) ∧ s.gaveUp = false ∧ ∀ r ∈ s.scheduled, r.2 = 1000

theorem Fresh.step (h : s.Fresh) (hok : s.completes event) (hstep : s.step event = some t) :
    t.Fresh := by
  obtain ⟨now, event⟩ := event
  obtain ⟨hnone, hgaveUp, hsecond⟩ := h
  unfold AutoRestart.step at hstep
  split at hstep
  · cases hstep
  cases event with
  | handled wanted =>
    have hentry : s.attempts = none := hnone hok
    simp only [act, onExit, restartInfo, hentry, Option.getD_none, Nat.sub_self] at hstep
    repeat' split at hstep
    all_goals cases hstep
    all_goals grind [settled, Fresh]
  | start | stop | exits | fires | starts | recorded =>
    simp only [act, onTimer, markIntentionalStop, completes] at hstep hok
    repeat' split at hstep
    all_goals cases hstep
    all_goals exact ⟨by simp_all [settled], hgaveUp, hsecond⟩

/-- **The limit does not stop a crash loop.**  If every restart is over when the next exit is
handled, none is refused and each comes after one second. -/
theorem crash_loop_unlimited (h : Reaches step (completes · ·) new s) :
    s.gaveUp = false ∧ ∀ r ∈ s.scheduled, r.2 = 1000 := by
  have hfresh : s.Fresh := h.invariant ⟨fun _ => rfl, rfl, by simp [new]⟩ (fun _ _ _ => Fresh.step)
  exact hfresh.2

def crashing : List (Nat × Event) := (0, .start) :: (List.range 6).flatMap (fun k =>
  let due := 1000 * k + 1000
  [(1000 * k, .exits), (1000 * k, .handled true), (due, .fires due true), (due, .starts true),
    (due, .recorded true)])

/-- Six crashes, and restarts that all succeed. -/
theorem crash_loop_unlimited_six : ∃ s, run step new crashing = some s ∧ s.scheduled.length = 6 ∧
    s.gaveUp = false ∧ ∀ r ∈ s.scheduled, r.2 = 1000 := by
  have hsix : (run step new crashing).map (·.scheduled.length) = some 6 := by decide
  obtain ⟨s, hrun, hlength⟩ := Option.map_eq_some_iff.mp hsix
  exact ⟨s, hrun, hlength, crash_loop_unlimited (reaches_of_guarded (by decide) hrun)⟩

end AutoRestart

end FerrumProxy
