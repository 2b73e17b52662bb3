import FerrumProxy.GuardedRuns
import FerrumProxy.JsValues
import FerrumProxy.TextLines

/-!
# Log lines of a process

`ProcessManager` cuts the output of a process into lines.  What follows the last line end of a
chunk is kept for the next one, and is a line of its own when the process exits.  Between the lines
stand the manager's own entries.
-/

namespace FerrumProxy

open Str List Runs

/-- The streams of a process that are read. -/
inductive OutputStream
  | stdout
  | stderr
  deriving DecidableEq

/-- The type of an entry: the stream it was read from, or `system`. -/
inductive LogType
  | output (stream : OutputStream)
  | system
  deriving DecidableEq

/-- One entry of the log, without its time. -/
structure LogEntry where
  type : LogType
  message : Text
  deriving DecidableEq

/-- What is kept for one instance, and the entries that `log` events were emitted for. -/
structure ProcessLog where
  running : Bool := false
  logs : List LogEntry := []
  logBuffers : OutputStream → Text := fun _ => []
  emitted : List LogEntry := []

/-- The calls that do not throw, and the events of the child process.  A `data` event may still
come after `exit`. -/
inductive ProcessEvent
  | start (pid : Option Nat)
  | data (stream : OutputStream) (chunk : Text)
  | stop (force : Bool)
  | error (message : Text)
  | exit (code : Option Int) (signal : Option String)
  | clearLogs

def startedMessage (pid : Option Nat) : Text :=
  let shown := (pid.map toString).getD "undefined"
  s!"Process started (PID: {shown})".toList

def stoppingMessage (force : Bool) : Text := s!"Stopping process (force: {force})".toList

def errorMessage (message : Text) : Text := "Process error: ".toList ++ message

def exitedMessage (code : Option Int) (signal : Option String) : Text :=
  let shown := (code.map toString).getD "null"
  let killed := signal.getD "null"
  s!"Process exited with code {shown}, signal {killed}".toList

namespace ProcessLog

variable (s : ProcessLog)

@[irreducible] def maxLogEntries : Nat := 1000

/-- The entries that a list keeps. -/
def lastEntries (entries : List LogEntry) : List LogEntry :=
  entries.drop (entries.length - maxLogEntries)

/-- The entry is stored and returned; no event is emitted. -/
def addLog (type : LogType) (message : Text) : LogEntry × ProcessLog :=
  let entry := ⟨type, Js.trim message⟩
  (entry, { s with logs := lastEntries (s.logs ++ [entry]) })

def emitLogEntry (entry : LogEntry) : ProcessLog := { s with emitted := s.emitted ++ [entry] }

/-- `emitLogEntry(instanceId, addLog(..))`. -/
def addEmitted (type : LogType) (message : Text) : ProcessLog :=
  (s.addLog type message).2.emitLogEntry (s.addLog type message).1

/-- A line that is not blank is logged. -/
def addLine (stream : OutputStream) (line : Text) : ProcessLog :=
  if (Js.trim line).isEmpty then s else s.addEmitted (.output stream) line

def setBuffer (stream : OutputStream) (text : Text) : ProcessLog :=
  { s with logBuffers := Function.update s.logBuffers stream text }

def addBufferedLogs (stream : OutputStream) (chunk : Text) : ProcessLog :=
  let buffered := lines (s.logBuffers stream ++ chunk)
  buffered.dropLast.foldl (addLine · stream) (s.setBuffer stream (buffered.getLastD []))

def flushBuffer (stream : OutputStream) : ProcessLog :=
  (s.addLine stream (s.logBuffers stream)).setBuffer stream []

def flushBufferedLogs : ProcessLog := (s.flushBuffer .stdout).flushBuffer .stderr

/-- The handlers of a child process and the methods of the manager. -/
def step : ProcessEvent → Option ProcessLog
  | .start pid =>
    if s.running then none
    else some ({ s with running := true, logs := [] }.addEmitted .system (startedMessage pid))
  | .data stream chunk => some (s.addBufferedLogs stream chunk)
  | .stop force =>
    -- this entry is stored, and no event is emitted for it
    if s.running then some (s.addLog .system (stoppingMessage force)).2 else none
  | .error message => some (s.addEmitted .system (errorMessage message))
  | .exit code signal =>
    let flushed := s.flushBufferedLogs.addEmitted .system (exitedMessage code signal)
    if s.running then some { flushed with running := false } else none
  | .clearLogs => some { s with logs := [], logBuffers := fun _ => [] }

/-- Output comes before `exit`. -/
def InTime : ProcessEvent → Prop
  | .data .. => s.running = true
  | _ => True

end ProcessLog

/-- What is logged of lines. -/
def nonBlank (lines : List Text) : List Text := (lines.map Js.trim).filter (!·.isEmpty)

theorem nonBlank_append (first second : List Text) :
    nonBlank (first ++ second) = nonBlank first ++ nonBlank second := by
  simp [nonBlank]

/-- The last line of a text is open: it goes on in what follows, even within a line end. -/
theorem exists_open_line (s : Text) :
    ∃ whole last, lines s = whole ++ [last] ∧ (whole = [] → last = s) ∧ '\n' ∉ last ∧
      ∀ rest, lines (s ++ rest) = whole ++ lines (last ++ rest) := by
  induction s using lines.induct with
  | case1 => exact ⟨[], [], rfl, fun _ => rfl, not_mem_nil, fun _ => rfl⟩
  | case2 s ih | case3 s ih =>
    obtain ⟨whole, last, hlines, _, hlast, happend⟩ := ih
    refine ⟨[] :: whole, last, congrArg ([] :: ·) hlines, fun h => ?_, hlast,
      fun rest => congrArg ([] :: ·) (happend rest)⟩
    cases h
  | case4 c s hline hfeed hnil ih => exact absurd hnil (lines_ne_nil s)
  | case5 c s hline hfeed line others hlines ih =>
    obtain ⟨whole, last, hsplit, hsingle, hlast, happend⟩ := ih
    cases whole with
    | nil =>
      refine ⟨[], c :: s, ?_, fun _ => rfl, ?_, fun _ => rfl⟩
      · rw [lines_cons hline hfeed hsplit, hsingle rfl]
        rfl
      · rw [hsingle rfl] at hlast
        simpa [eq_comm] using ⟨hfeed, hlast⟩
    | cons first whole =>
      refine ⟨(c :: first) :: whole, last, lines_cons hline hfeed hsplit, fun h => ?_, hlast,
        fun rest => lines_cons (fun rest' hc heq => ?_) hfeed (happend rest)⟩
      · cases h
      · cases s with
        | nil => cases whole <;> cases hsplit
        | cons d s => exact hline s hc (congrArg (· :: s) (cons.inj heq).1)

/-- An entry that was added, with whether a `log` event was emitted for it. -/
abbrev Addition : Type := Bool × LogEntry

namespace Addition

/-- The lines of a stream, as they are logged. -/
def ofLines (stream : OutputStream) (lines : List Text) : List Addition :=
  (nonBlank lines).map fun message => (true, ⟨.output stream, message⟩)

/-- The manager's own entries. -/
def system (added : List Addition) : List Addition := added.filter (·.2.type = .system)

/-- The messages that were logged of a stream. -/
def messages (added : List Addition) (stream : OutputStream) : List Text :=
  (added.filter (·.2.type = .output stream)).map (·.2.message)

variable {first second : List Addition} {stream other : OutputStream} {lines : List Text}

theorem messages_append :
    messages (first ++ second) stream = messages first stream ++ messages second stream := by
  simp [messages]

theorem system_append : system (first ++ second) = system first ++ system second := by
  simp [system]

theorem messages_ofLines :
    messages (ofLines stream lines) other = if stream = other then nonBlank lines else [] := by
  unfold messages ofLines
  split <;> simp [*, filter_map, Function.comp_def]

theorem system_ofLines : system (ofLines stream lines) = [] := by
  simp [system, ofLines]

end Addition

namespace ProcessEvent

/-- What happens between the start of a process and its exit. -/
def InRun : ProcessEvent → Prop
  | .data .. | .stop _ | .error _ => True
  | .start _ | .exit .. | .clearLogs => False

/-- A run of the process. -/
def wholeRun (pid : Option Nat) (body : List ProcessEvent) (code : Option Int)
    (signal : Option String) : List ProcessEvent :=
  .start pid :: body ++ [.exit code signal]

/-- What an event brings of the output of a stream. -/
def output (stream : OutputStream) : ProcessEvent → Text
  | .data source chunk => if source = stream then chunk else []
  | _ => []

/-- The manager's own entry for an event: that of `stop` is not emitted. -/
def entry : ProcessEvent → Option Addition
  | .start pid => some (true, ⟨.system, Js.trim (startedMessage pid)⟩)
  | .stop force => some (false, ⟨.system, Js.trim (stoppingMessage force)⟩)
  | .error message => some (true, ⟨.system, Js.trim (errorMessage message)⟩)
  | .exit code signal => some (true, ⟨.system, Js.trim (exitedMessage code signal)⟩)
  | .data .. | .clearLogs => none

end ProcessEvent

namespace ProcessLog

open ProcessEvent Addition

variable {s t : ProcessLog} {before : List LogEntry} {added : List Addition}
  {past : List ProcessEvent} {stream : OutputStream}

@[simp] theorem addEmitted_logBuffers (type : LogType) (message : Text) :
    (s.addEmitted type message).logBuffers = s.logBuffers := by
  simp only [addEmitted, emitLogEntry, addLog]

@[simp] theorem addEmitted_running (type : LogType) (message : Text) :
    (s.addEmitted type message).running = s.running := by
  simp only [addEmitted, emitLogEntry, addLog]

theorem lastEntries_append (earlier later : List LogEntry) :
    lastEntries (lastEntries earlier ++ later) = lastEntries (earlier ++ later) := by
  unfold lastEntries
  generalize maxLogEntries = most
  rw [← drop_append_of_le_length (Nat.sub_le _ _), drop_drop]
  congr 1
  simp only [length_drop, length_append]
  omega

/-- The list holds the last entries that were added, and an event was emitted for those that ask
for one. -/
structure Stored (s : ProcessLog) (before : List LogEntry) (added : List Addition) : Prop where
  logs : s.logs = lastEntries (added.map Prod.snd)
  emitted : s.emitted = before ++ (added.filter Prod.fst).map Prod.snd

theorem Stored.addLog (h : s.Stored before added) (type : LogType) (message : Text) :
    (s.addLog type message).2.Stored before (added ++ [(false, ⟨type, Js.trim message⟩)]) where
  logs := by simp [ProcessLog.addLog, h.logs, lastEntries_append]
  emitted := by simp [ProcessLog.addLog, h.emitted]

theorem Stored.addEmitted (h : s.Stored before added) (type : LogType) (message : Text) :
    (s.addEmitted type message).Stored before (added ++ [(true, ⟨type, Js.trim message⟩)]) where
  logs := by simp [ProcessLog.addEmitted, emitLogEntry, (h.addLog type message).logs]
  emitted := by simp [ProcessLog.addEmitted, emitLogEntry, ProcessLog.addLog, h.emitted]

theorem Stored.setBuffer (h : s.Stored before added) (stream : OutputStream) (text : Text) :
    (s.setBuffer stream text).Stored before added :=
  ⟨h.logs, h.emitted⟩

theorem Stored.addLine (h : s.Stored before added) (stream : OutputStream) (line : Text) :
    (s.addLine stream line).Stored before (added ++ ofLines stream [line]) := by
  unfold ProcessLog.addLine
  split
  · next hblank => simpa [ofLines, nonBlank, hblank] using h
  · next hline =>
    simpa [ofLines, nonBlank, hline] using h.addEmitted (.output stream) line

theorem Stored.flushBuffer (h : s.Stored before added) (stream : OutputStream) :
    (s.flushBuffer stream).Stored before
      (added ++ ofLines stream [s.logBuffers stream]) :=
  (h.addLine stream (s.logBuffers stream)).setBuffer stream []

theorem Stored.addLines (h : s.Stored before added) (stream : OutputStream) (lines : List Text) :
    (lines.foldl (ProcessLog.addLine · stream) s).Stored before
      (added ++ ofLines stream lines) := by
  induction lines generalizing s added with
  | nil => simpa [ofLines, nonBlank] using h
  | cons line lines ih =>
    have hrest := ih (h.addLine stream line)
    rwa [append_assoc, ofLines, ofLines, ← map_append, ← nonBlank_append]
      at hrest

/-- Logging a line changes neither the buffers nor whether the process runs. -/
theorem addLine_frame (s : ProcessLog) (stream : OutputStream) (line : Text) :
    (s.addLine stream line).logBuffers = s.logBuffers ∧
      (s.addLine stream line).running = s.running := by
  unfold addLine
  split <;> simp

theorem flushBuffer_logBuffers (s : ProcessLog) (stream : OutputStream) :
    (s.flushBuffer stream).logBuffers = Function.update s.logBuffers stream [] := by
  rw [flushBuffer, setBuffer, (addLine_frame s stream _).1]

theorem flushBufferedLogs_logBuffers (s : ProcessLog) :
    s.flushBufferedLogs.logBuffers = fun _ => [] := by
  rw [flushBufferedLogs, flushBuffer_logBuffers, flushBuffer_logBuffers]
  funext stream
  cases stream <;> rfl

theorem addLines_frame (s : ProcessLog) (stream : OutputStream) (lines : List Text) :
    (lines.foldl (addLine · stream) s).logBuffers = s.logBuffers ∧
      (lines.foldl (addLine · stream) s).running = s.running := by
  induction lines generalizing s with
  | nil => exact ⟨rfl, rfl⟩
  | cons line lines ih =>
    have hline := addLine_frame s stream line
    have hrest := ih (s.addLine stream line)
    exact ⟨hrest.1.trans hline.1, hrest.2.trans hline.2⟩

/-- What was added since a start, and what of the output is still to be logged: a buffer is the
open line of its stream, whatever follows it. -/
structure Accounts (s : ProcessLog) (before : List LogEntry) (past : List ProcessEvent)
    (added : List Addition) : Prop extends s.Stored before added where
  running : s.running = true
  system : Addition.system added = past.filterMap entry
  noLineEnd (stream : OutputStream) : '\n' ∉ s.logBuffers stream
  messages (stream : OutputStream) (rest : Text) :
    nonBlank (lines (past.flatMap (output stream) ++ rest)) =
      Addition.messages added stream ++ nonBlank (lines (s.logBuffers stream ++ rest))

/-- An event with an entry of its own, and no output. -/
theorem Accounts.addEntry {event : ProcessEvent} {addition : Addition}
    (h : s.Accounts before past added) (hstored : t.Stored before (added ++ [addition]))
    (hbuffers : t.logBuffers = s.logBuffers) (hrunning : t.running = s.running)
    (hentry : event.entry = some addition) (hsystem : addition.2.type = .system)
    (hsilent : ∀ stream, event.output stream = []) :
    t.Accounts before (past ++ [event]) (added ++ [addition]) where
  toStored := hstored
  running := hrunning.trans h.running
  system := by
    rw [system_append, h.system, filterMap_append]
    simp [Addition.system, hsystem, hentry]
  noLineEnd stream := hbuffers ▸ h.noLineEnd stream
  messages stream rest := by
    have hnone : Addition.messages [addition] stream = [] := by
      simp [Addition.messages, hsystem]
    rw [hbuffers, messages_append, hnone, append_nil, ← h.messages]
    simp [hsilent]

/-- A chunk ends some lines of its stream, and leaves the next one open. -/
theorem Accounts.addBufferedLogs (h : s.Accounts before past added) (stream : OutputStream)
    (chunk : Text) :
    ∃ added', (s.addBufferedLogs stream chunk).Accounts before (past ++ [.data stream chunk])
      added' := by
  obtain ⟨whole, last, hlines, _, hlast, happend⟩ :=
    exists_open_line (s.logBuffers stream ++ chunk)
  obtain ⟨hbuffers, hrunning⟩ := addLines_frame (s.setBuffer stream last) stream whole
  unfold ProcessLog.addBufferedLogs
  simp only [hlines, dropLast_concat, getLastD_concat]
  refine ⟨_, (h.setBuffer stream last).addLines stream whole, hrunning.trans h.running, ?_,
    fun other => ?_, fun other rest => ?_⟩
  · simp [system_append, system_ofLines, h.system, entry]
  all_goals
    rw [hbuffers]
    by_cases hother : other = stream
  · simpa [setBuffer, hother] using hlast
  · simpa [setBuffer, hother] using h.noLineEnd other
  · subst hother
    have hold := h.messages other (chunk ++ rest)
    rw [← append_assoc (s.logBuffers other), happend, nonBlank_append, ← append_assoc] at hold
    simpa [setBuffer, messages_append, messages_ofLines, output]
      using hold
  · simpa [setBuffer, hother, Ne.symm hother, messages_append,
      messages_ofLines, output] using h.messages other rest

/-- One event while the process runs. -/
theorem Accounts.step (h : s.Accounts before past added) {event : ProcessEvent}
    (hevent : event.InRun) :
    ∃ t added', s.step event = some t ∧ t.Accounts before (past ++ [event]) added' := by
  cases event with
  | data stream chunk =>
    obtain ⟨added', hdata⟩ := h.addBufferedLogs stream chunk
    exact ⟨_, added', rfl, hdata⟩
  | stop force =>
    exact ⟨_, _, if_pos h.running, h.addEntry (h.addLog _ _) (by simp only [addLog])
      (by simp only [addLog]) rfl rfl fun _ => rfl⟩
  | error message =>
    exact ⟨_, _, rfl, h.addEntry (h.addEmitted _ _) (by simp) (by simp) rfl rfl fun _ => rfl⟩
  | start | exit | clearLogs => exact hevent.elim

/-- What happens while the process runs. -/
theorem Accounts.run (h : s.Accounts before past added) {body : List ProcessEvent}
    (hbody : ∀ event ∈ body, event.InRun) :
    ∃ t added', run ProcessLog.step s body = some t ∧
      t.Accounts before (past ++ body) added' := by
  induction body generalizing s past added with
  | nil => exact ⟨s, added, rfl, by simpa using h⟩
  | cons event body ih =>
    obtain ⟨hevent, hrest⟩ := forall_mem_cons.mp hbody
    obtain ⟨middle, added', hstep, hmiddle⟩ := h.step hevent
    obtain ⟨t, added'', hrun, ht⟩ := ih hmiddle hrest
    refine ⟨t, added'', ?_, by simpa using ht⟩
    rw [run, hstep]
    exact hrun

/-- At the exit the open lines are logged. -/
theorem Accounts.exit (h : s.Accounts before past added) (code : Option Int)
    (signal : Option String) :
    ∃ t added', s.step (.exit code signal) = some t ∧ t.Stored before added' ∧
      Addition.system added' = (past ++ [ProcessEvent.exit code signal]).filterMap entry ∧
      ∀ stream, Addition.messages added' stream =
        nonBlank (lines (past.flatMap (output stream))) := by
  have hkept : (s.flushBuffer .stdout).logBuffers .stderr = s.logBuffers .stderr :=
    congrFun (flushBuffer_logBuffers s .stdout) .stderr
  have hflushed : s.flushBufferedLogs.Stored before _ := (h.flushBuffer .stdout).flushBuffer .stderr
  have hlast := hflushed.addEmitted .system (exitedMessage code signal)
  refine ⟨_, _, if_pos h.running, ⟨hlast.logs, hlast.emitted⟩, ?_, fun stream => ?_⟩
  · simp only [system_append, system_ofLines, h.system, filterMap_append,
      append_nil]
    rfl
  · have hlines := h.messages stream []
    rw [append_nil, append_nil, lines_line (h.noLineEnd stream)] at hlines
    rw [hlines, hkept]
    simp only [messages_append, messages_ofLines]
    cases stream <;> simp [Addition.messages]

/-- Output that comes in time is flushed when the process stops. -/
theorem buffers_flushed (hreach : Reaches step InTime {} s) (hstopped : s.running = false) :
    s.logBuffers = fun _ => [] := by
  have hkept := @Reaches.invariant _ _ _ _ _ _
    (fun s => s.running = true ∨ s.logBuffers = fun _ => []) hreach (.inr rfl) ?_
  · simpa [hstopped] using hkept
  intro s event t hkept htime hstep
  cases event with
  | start pid =>
    obtain ⟨_, hstep⟩ := Option.ite_none_left_eq_some.mp hstep
    cases hstep
    exact .inl (addEmitted_running ..)
  | stop force =>
    obtain ⟨hrunning, hstep⟩ := Option.ite_none_right_eq_some.mp hstep
    cases hstep
    exact .inl hrunning
  | exit code signal =>
    obtain ⟨_, hstep⟩ := Option.ite_none_right_eq_some.mp hstep
    cases hstep
    exact .inr (by simp [flushBufferedLogs_logBuffers])
  | data stream chunk =>
    cases hstep
    exact .inl ((addLines_frame _ stream _).2.trans htime)
  | error message =>
    cases hstep
    simpa using hkept
  | clearLogs =>
    cases hstep
    exact .inr rfl

/-- A run that leaves an open line. -/
def killedRun : List ProcessEvent :=
  wholeRun (some 7) [.data .stderr "x".toList, .error "y".toList] none (some "SIGTERM")

/-- Output that is cut within a line end, with an entry between. -/
def cutOutput : List ProcessEvent :=
  [.data .stdout "a\r".toList, .stop false, .data .stdout "\nb".toList]

/-- Output that comes after `exit` is joined to the first line of the next run. -/
example : ((run step {} ([.start (some 7), .exit (some 0) none, .data .stdout "x".toList] ++
    wholeRun (some 8) [.data .stdout "a\n".toList] (some 0) none)).map fun s =>
      s.emitted.any (· = ⟨.output .stdout, "xa".toList⟩)) = some true := by
  decide +kernel

end ProcessLog

end FerrumProxy
