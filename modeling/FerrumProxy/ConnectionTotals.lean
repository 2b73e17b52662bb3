import FerrumProxy.GuardedRuns
import FerrumProxy.KeyedLists
import FerrumProxy.TextStrings

/-!
# Connection totals across restarts

`ConnectionIpMapper` counts connections for each pair of an IP address and a protocol.  A process
reads the totals from `connectionIP.json` when it starts, or adds up what `playerIP.json` says about
all players.  Each call of `register_connection` takes a lock, changes the totals in memory, writes
all of them to a temporary file, renames it, and only then lets the lock go.

A step goes from one await to the next; a restart may come between any two of them.
-/

namespace FerrumProxy

open Str Runs Lists

/-- `u64::MAX`. -/
def u64Max : Nat := 2 ^ 64 - 1

/-- `u64::saturating_add`. -/
def saturatingAdd (a b : UInt64) : UInt64 := UInt64.ofNat (min (a.toNat + b.toNat) u64Max)

theorem toNat_saturatingAdd (a b : UInt64) :
    (saturatingAdd a b).toNat = min (a.toNat + b.toNat) u64Max := by
  rw [saturatingAdd, UInt64.toNat_ofNat']
  exact Nat.mod_eq_of_lt (by unfold u64Max; omega)

theorem toNat_le_u64Max (a : UInt64) : a.toNat ≤ u64Max := by
  have hlt := a.toNat_lt
  unfold u64Max
  omega

/-- What the records are about: an IP address and a protocol. -/
abbrev IpKey := Text × Text

/-- An entry of the totals in memory. -/
structure PlayerIpInfo where
  ip : Text
  protocol : Text
  lastSeen : Int64
  connections : UInt64
  deriving DecidableEq

def PlayerIpInfo.key (info : PlayerIpInfo) : IpKey := (info.ip, info.protocol)

/-- A record in a file, where the count may be missing. -/
structure SavedIpInfo where
  ip : Text
  protocol : Text
  lastSeen : Int64
  connections : Option UInt64
  deriving DecidableEq

/-- A record is read; the default is `default_connection_count`. -/
def SavedIpInfo.read (saved : SavedIpInfo) : PlayerIpInfo :=
  ⟨saved.ip, saved.protocol, saved.lastSeen, saved.connections.getD 1⟩

def PlayerIpInfo.save (info : PlayerIpInfo) : SavedIpInfo :=
  ⟨info.ip, info.protocol, info.lastSeen, some info.connections⟩

theorem map_read_save (records : List PlayerIpInfo) :
    (records.map PlayerIpInfo.save).map SavedIpInfo.read = records := by
  rw [List.map_map]
  exact List.map_id records

/-- An entry of `playerIP.json`. -/
structure SavedPlayer where
  username : Text
  ips : List SavedIpInfo
  deriving DecidableEq

/-- The files, if they are there. -/
structure IpFiles where
  connectionIp : Option (List SavedIpInfo) := none
  temporary : Option (List SavedIpInfo) := none
  playerIp : Option (List SavedPlayer) := none

open Option

namespace ConnectionIpMapper

/-- An entry of a player joins the totals. -/
def mergeEntry (records : List PlayerIpInfo) (entry : PlayerIpInfo) : List PlayerIpInfo :=
  upsert PlayerIpInfo.key entry.key
    (fun existing => { existing with
      connections := saturatingAdd existing.connections entry.connections
      lastSeen := max existing.lastSeen entry.lastSeen })
    entry records

/-- All entries of all players. -/
def playerEntries (files : IpFiles) : List PlayerIpInfo :=
  ((files.playerIp.getD []).flatMap SavedPlayer.ips).map SavedIpInfo.read

/-- The records that `ConnectionIpMapper::new` begins with. -/
def new (files : IpFiles) (enabled : Bool) : List PlayerIpInfo :=
  if enabled then
    match files.connectionIp with
    | some saved => saved.map SavedIpInfo.read
    | none => (playerEntries files).foldl mergeEntry []
  else []

/-- The change that `register_connection` makes to the records. -/
def countConnection (records : List PlayerIpInfo) (key : IpKey) (now : Int64) :
    List PlayerIpInfo :=
  upsert PlayerIpInfo.key key
    (fun entry => { entry with connections := saturatingAdd entry.connections 1, lastSeen := now })
    ⟨key.1, key.2, now, 1⟩ records

/-- The total of a pair: the count of its first record. -/
def total (records : List PlayerIpInfo) (key : IpKey) : Nat :=
  (firstWith PlayerIpInfo.key key records).elim 0 (fun info => info.connections.toNat)

/-- The pairs are distinct. -/
def Distinct (records : List PlayerIpInfo) : Prop := (records.map PlayerIpInfo.key).Nodup

variable {records : List PlayerIpInfo} {key : IpKey}

theorem total_le_u64Max : total records key ≤ u64Max := by
  unfold total
  cases firstWith PlayerIpInfo.key key records with
  | none => exact Nat.zero_le _
  | some info => exact toNat_le_u64Max info.connections

/-- A number of connections is added to the record of a pair, which may be new. -/
theorem total_upsert {counted : IpKey} {change : PlayerIpInfo → PlayerIpInfo}
    {fresh : PlayerIpInfo} {amount : UInt64} (hkey : ∀ info, (change info).key = info.key)
    (hchange : ∀ info, (change info).connections = saturatingAdd info.connections amount)
    (hfresh : fresh.key = counted) (hamount : fresh.connections = amount) :
    total (upsert PlayerIpInfo.key counted change fresh records) key =
      min (total records key + if key = counted then amount.toNat else 0) u64Max := by
  unfold total
  by_cases hcounted : key = counted
  · subst hcounted
    rw [firstWith_upsert hkey hfresh, if_pos rfl]
    cases firstWith PlayerIpInfo.key key records with
    | none =>
      have hle := toNat_le_u64Max amount
      simp only [elim_some, elim_none, hamount]
      omega
    | some info =>
      simp only [elim_some, hchange, toNat_saturatingAdd]
  · rw [firstWith_upsert_ne hkey hfresh hcounted, if_neg hcounted]
    exact (min_eq_left total_le_u64Max).symm

/-- A connection counts once, up to the largest number. -/
theorem total_countConnection (counted : IpKey) (now : Int64) :
    total (countConnection records counted now) key =
      min (total records key + if key = counted then 1 else 0) u64Max := by
  have h : total (countConnection records counted now) key =
      min (total records key + if key = counted then (1 : UInt64).toNat else 0) u64Max :=
    total_upsert (fun _ => rfl) (fun _ => rfl) rfl rfl
  exact h

/-- An entry adds its count. -/
theorem total_mergeEntry (entry : PlayerIpInfo) :
    total (mergeEntry records entry) key =
      min (total records key + if key = entry.key then entry.connections.toNat else 0) u64Max :=
  total_upsert (fun _ => rfl) (fun _ => rfl) rfl rfl

/-- The connections that the entries of a pair have together. -/
def connectionSum (entries : List PlayerIpInfo) (key : IpKey) : Nat :=
  (entries.map (fun entry => if key = entry.key then entry.connections.toNat else 0)).sum

theorem connectionSum_cons (entry : PlayerIpInfo) (rest : List PlayerIpInfo) :
    connectionSum (entry :: rest) key =
      (if key = entry.key then entry.connections.toNat else 0) + connectionSum rest key := by
  rw [connectionSum, List.map_cons, List.sum_cons]
  rfl

/-- A file's entries add up. -/
theorem total_merged (entries : List PlayerIpInfo) :
    total (entries.foldl mergeEntry records) key =
      min (total records key + connectionSum entries key) u64Max := by
  induction entries generalizing records with
  | nil => exact (min_eq_left total_le_u64Max).symm
  | cons entry rest ih =>
    rw [List.foldl_cons, ih, total_mergeEntry, connectionSum_cons]
    omega

theorem distinct_countConnection (counted : IpKey) (now : Int64) (h : Distinct records) :
    Distinct (countConnection records counted now) :=
  nodup_upsert (fun _ => rfl) rfl h

theorem distinct_merged (entries : List PlayerIpInfo) (h : Distinct records) :
    Distinct (entries.foldl mergeEntry records) := by
  induction entries generalizing records with
  | nil => exact h
  | cons entry rest ih => exact ih (nodup_upsert (fun _ => rfl) rfl h)

end ConnectionIpMapper

open ConnectionIpMapper

/-- The initial total of a pair: from the file, or else from all players' entries. -/
def IpFiles.initialTotal (files : IpFiles) (key : IpKey) : Nat :=
  match files.connectionIp with
  | some saved => total (saved.map SavedIpInfo.read) key
  | none => min (connectionSum (playerEntries files) key) u64Max

theorem total_new (files : IpFiles) (key : IpKey) :
    total (new files true) key = files.initialTotal key := by
  unfold new IpFiles.initialTotal
  cases files.connectionIp with
  | some saved => rfl
  | none =>
    rw [if_pos rfl]
    exact total_merged _ |>.trans (by rw [show total [] key = 0 from rfl, Nat.zero_add])

/-- Where a call of `register_connection` is: before the lock, writing the temporary file, or
renaming it. -/
inductive IpCallPhase where
  | waiting
  | writing (text : List SavedIpInfo)
  | replacing
  deriving DecidableEq

/-- A call of `register_connection`. -/
structure IpCall where
  key : IpKey
  phase : IpCallPhase := .waiting
  deriving DecidableEq

/-- What has become of the calls for each pair, over all processes so far. -/
structure IpTally where
  /-- Calls of a process that saves totals. -/
  called : IpKey → Nat := fun _ => 0
  /-- Calls that have renamed their file. -/
  completed : IpKey → Nat := fun _ => 0
  /-- Calls that a restart has cut off before. -/
  cutOff : IpKey → Nat := fun _ => 0
  /-- How many processes have migrated the totals of the players. -/
  migrations : Nat := 0

def countKey (counts : IpKey → Nat) (key : IpKey) : IpKey → Nat :=
  Function.update counts key (counts key + 1)

theorem countKey_apply (counts : IpKey → Nat) (key other : IpKey) :
    countKey counts key other = counts other + if other = key then 1 else 0 := by
  unfold countKey
  by_cases h : other = key
  · rw [h, Function.update_self, if_pos rfl]
  · rw [Function.update_of_ne h, if_neg h, Nat.add_zero]

/-- The running process and its files. -/
structure ConnectionIpSystem where
  files : IpFiles
  enabled : Bool
  records : List PlayerIpInfo
  lock : Option Nat := none
  calls : Pool IpCall := ∅
  tally : IpTally := {}

/-- The steps of the calls, and what happens around them. -/
inductive IpEvent where
  | call (id : Nat) (key : IpKey)
  | update (id : Nat) (now : Int64)
  | written (id : Nat)
  | renamed (id : Nat)
  /-- `playerIP.json` is written by the part of the program that owns it. -/
  | playersSaved (players : List SavedPlayer)
  | restart (enabled : Bool)

namespace ConnectionIpSystem

/-- The calls for the pair that are running. -/
def running (s : ConnectionIpSystem) (key : IpKey) : Nat :=
  s.calls.count (fun _ call => key = call.key)

/-- A process starts. -/
def boot (files : IpFiles) (enabled : Bool) (tally : IpTally) : ConnectionIpSystem where
  files := files
  enabled := enabled
  records := new files enabled
  tally := { tally with
    migrations := tally.migrations + if enabled && files.connectionIp.isNone then 1 else 0 }

/-- The first process. -/
def start (files : IpFiles) (enabled : Bool) : ConnectionIpSystem := boot files enabled {}

def step (s : ConnectionIpSystem) : IpEvent → Option ConnectionIpSystem
  | .call id key =>
    if s.calls.lookup id = none then
      some (if s.enabled then
        { s with
          calls := s.calls.put id { key }
          tally := { s.tally with called := countKey s.tally.called key } }
      else s)
    else none
  | .update id now =>
    (s.calls.lookup id).bind fun call =>
      if call.phase = .waiting ∧ s.lock = none then
        let records := countConnection s.records call.key now
        some { s with
          records
          lock := some id
          calls := s.calls.put id
            { call with phase := .writing (records.map PlayerIpInfo.save) } }
      else none
  | .written id =>
    (s.calls.lookup id).bind fun call =>
      match call.phase with
      | .writing text =>
        some { s with
          files := { s.files with temporary := some text }
          calls := s.calls.put id { call with phase := .replacing } }
      | _ => none
  | .renamed id =>
    (s.calls.lookup id).bind fun call =>
      s.files.temporary.bind fun text =>
        if call.phase = .replacing then
          some { s with
            files := { s.files with connectionIp := some text, temporary := none }
            lock := none
            calls := s.calls.drop id
            tally := { s.tally with completed := countKey s.tally.completed call.key } }
        else none
  | .playersSaved players => some { s with files := { s.files with playerIp := some players } }
  | .restart enabled =>
    some (boot s.files enabled
      { s.tally with cutOff := fun key => s.tally.cutOff key + s.running key })

/-- `playerIP.json` is not written before the first total is saved. -/
def KeepsPlayers (s : ConnectionIpSystem) : IpEvent → Prop
  | .playersSaved _ => s.files.connectionIp.isSome = true
  | _ => True

/-- What a step does, and when. -/
inductive Change (s : ConnectionIpSystem) : IpEvent → ConnectionIpSystem → Prop
  | ignored (id : Nat) (key : IpKey) : Change s (.call id key) s
  | called (id : Nat) (key : IpKey) (hnew : s.calls.lookup id = none) (hon : s.enabled = true) :
      Change s (.call id key)
        { s with
          calls := s.calls.put id { key }
          tally := { s.tally with called := countKey s.tally.called key } }
  | updated (id : Nat) (now : Int64) (key : IpKey)
      (hlookup : s.calls.lookup id = some { key }) (hfree : s.lock = none) :
      Change s (.update id now)
        { s with
          records := countConnection s.records key now
          lock := some id
          calls := s.calls.put id
            ⟨key, .writing ((countConnection s.records key now).map PlayerIpInfo.save)⟩ }
  | written (id : Nat) (key : IpKey) (text : List SavedIpInfo)
      (hlookup : s.calls.lookup id = some ⟨key, .writing text⟩) :
      Change s (.written id)
        { s with
          files := { s.files with temporary := some text }
          calls := s.calls.put id ⟨key, .replacing⟩ }
  | renamed (id : Nat) (key : IpKey) (text : List SavedIpInfo)
      (hlookup : s.calls.lookup id = some ⟨key, .replacing⟩)
      (htext : s.files.temporary = some text) :
      Change s (.renamed id)
        { s with
          files := { s.files with connectionIp := some text, temporary := none }
          lock := none
          calls := s.calls.drop id
          tally := { s.tally with completed := countKey s.tally.completed key } }
  | playersSaved (players : List SavedPlayer) :
      Change s (.playersSaved players) { s with files := { s.files with playerIp := some players } }
  | restarted (enabled : Bool) :
      Change s (.restart enabled)
        (boot s.files enabled
          { s.tally with cutOff := fun key => s.tally.cutOff key + s.running key })

variable {initial : IpKey → Nat} {s t : ConnectionIpSystem} {event : IpEvent}

/-- Every step is one of the changes. -/
theorem change_of_step (hstep : s.step event = some t) : Change s event t := by
  cases event with
  | call id key =>
    obtain ⟨hnew, hstep⟩ := ite_none_right_eq_some.mp hstep
    cases hstep
    split
    · next hon => exact .called id key hnew hon
    · exact .ignored id key
  | update id now =>
    obtain ⟨⟨key, phase⟩, hlookup, hstep⟩ := bind_eq_some_iff.mp hstep
    obtain ⟨⟨hphase, hfree⟩, hstep⟩ := ite_none_right_eq_some.mp hstep
    cases hphase
    cases hstep
    exact .updated id now key hlookup hfree
  | written id =>
    obtain ⟨⟨key, phase⟩, hlookup, hstep⟩ := bind_eq_some_iff.mp hstep
    cases phase with
    | writing text =>
      cases hstep
      exact .written id key text hlookup
    | waiting | replacing => cases hstep
  | renamed id =>
    obtain ⟨⟨key, phase⟩, hlookup, hstep⟩ := bind_eq_some_iff.mp hstep
    obtain ⟨text, htext, hstep⟩ := bind_eq_some_iff.mp hstep
    obtain ⟨hphase, hstep⟩ := ite_none_right_eq_some.mp hstep
    cases hphase
    cases hstep
    exact .renamed id key text hlookup htext
  | playersSaved players =>
    cases hstep
    exact .playersSaved players
  | restart enabled =>
    cases hstep
    exact .restarted enabled

/-! ## The lock -/

/-- What the lock protects: a call that has changed the records is the only one, and is about
to save them. -/
def Holds (s : ConnectionIpSystem) (id : Nat) (call : IpCall) : Prop :=
  match call.phase with
  | .waiting => True
  | .writing text => s.lock = some id ∧ text = s.records.map PlayerIpInfo.save
  | .replacing => s.lock = some id ∧ s.files.temporary = some (s.records.map PlayerIpInfo.save)

/-- A call has the lock, only a process that saves totals has calls, and they keep to the
lock. -/
structure Locked (s : ConnectionIpSystem) : Prop where
  held : ∀ id, s.lock = some id → ∃ call, s.calls.lookup id = some call
  enabled : ∀ id call, s.calls.lookup id = some call → s.enabled = true
  holds : ∀ id call, s.calls.lookup id = some call → s.Holds id call

variable {id : Nat} {call : IpCall}

theorem Locked.waiting (h : Locked s) (hlookup : s.calls.lookup id = some call)
    (hlock : s.lock ≠ some id) : call.phase = .waiting := by
  have hholds := h.holds id call hlookup
  unfold Holds at hholds
  split at hholds
  · next hphase => exact hphase
  · exact absurd hholds.1 hlock
  · exact absurd hholds.1 hlock

theorem holds_of_waiting (hphase : call.phase = .waiting) : t.Holds id call := by
  unfold Holds
  rw [hphase]
  trivial

theorem Locked.holds_other (h : Locked s) {other : Nat} (hlock : s.lock = none ∨ s.lock = some id)
    (hne : other ≠ id) (hlookup : s.calls.lookup other = some call) : t.Holds other call := by
  refine holds_of_waiting (h.waiting hlookup ?_)
  intro hother
  rcases hlock with hfree | hown
  · cases hfree.symm.trans hother
  · exact hne (Option.some.inj (hother.symm.trans hown))

/-- A call that has the lock is not a new one. -/
theorem Locked.ne_of_new (h : Locked s) {other : Nat} (hlock : s.lock = some other)
    (hnew : s.calls.lookup id = none) : other ≠ id := by
  intro heq
  obtain ⟨call, hcall⟩ := h.held other hlock
  cases hnew.symm.trans (heq ▸ hcall)

theorem locked_boot (files : IpFiles) (enabled : Bool) (tally : IpTally) :
    Locked (boot files enabled tally) :=
  ⟨fun _ hlock => (nomatch hlock), fun _ _ hlookup => (nomatch hlookup),
    fun _ _ hlookup => (nomatch hlookup)⟩

/-- One call at a time has the lock. -/
theorem Locked.step (h : Locked s) (hchange : Change s event t) : Locked t := by
  cases hchange with
  | ignored id key => exact h
  | called id key hnew hon =>
    refine ⟨fun other hlock => ?_, fun _ _ _ => hon, fun other call hlookup => ?_⟩
    · obtain ⟨call, hcall⟩ := h.held other hlock
      exact ⟨call, (Pool.put_ne s.calls _ (h.ne_of_new hlock hnew)).trans hcall⟩
    rcases Pool.put_eq_some hlookup with ⟨_, rfl⟩ | ⟨_, hold⟩
    · exact holds_of_waiting rfl
    · exact h.holds other call hold
  | updated id now key hlookup hfree =>
    refine ⟨fun other hother => ?_, fun _ _ _ => h.enabled id _ hlookup,
      fun other call hother => ?_⟩
    · cases hother
      exact ⟨_, Pool.put_self s.calls id _⟩
    rcases Pool.put_eq_some hother with ⟨rfl, rfl⟩ | ⟨hne, hold⟩
    · exact ⟨rfl, rfl⟩
    · exact h.holds_other (.inl hfree) hne hold
  | written id key text hlookup =>
    obtain ⟨hlock, htext⟩ : s.lock = some id ∧ text = _ := h.holds id _ hlookup
    refine ⟨fun other hother => ?_, fun _ _ _ => h.enabled id _ hlookup,
      fun other call hother => ?_⟩
    · cases hlock.symm.trans hother
      exact ⟨_, Pool.put_self s.calls id _⟩
    rcases Pool.put_eq_some hother with ⟨rfl, rfl⟩ | ⟨hne, hold⟩
    · exact ⟨hlock, congrArg some htext⟩
    · exact h.holds_other (.inr hlock) hne hold
  | renamed id key text hlookup htext =>
    obtain ⟨hlock, _⟩ : s.lock = some id ∧ _ := h.holds id _ hlookup
    refine ⟨fun _ hnone => (nomatch hnone), fun _ _ _ => h.enabled id _ hlookup,
      fun other call hother => ?_⟩
    obtain ⟨hne, hold⟩ := Pool.drop_eq_some hother
    exact h.holds_other (.inr hlock) hne hold
  | playersSaved players => exact ⟨h.held, h.enabled, h.holds⟩
  | restarted enabled => exact locked_boot _ _ _

/-- The file that is put in place has the records in memory. -/
theorem Locked.renames (h : Locked s) {key : IpKey} {text : List SavedIpInfo}
    (hlookup : s.calls.lookup id = some ⟨key, .replacing⟩) (htext : s.files.temporary = some text) :
    s.lock = some id ∧ text.map SavedIpInfo.read = s.records := by
  obtain ⟨hlock, htemporary⟩ : s.lock = some id ∧ s.files.temporary = some _ :=
    h.holds id _ hlookup
  rw [htemporary] at htext
  cases htext
  exact ⟨hlock, map_read_save s.records⟩

/-! ## The totals -/

/-- The calls whose effect is in the memory and not yet in the file. -/
def pending (s : ConnectionIpSystem) (key : IpKey) : Nat :=
  if (s.lock.bind s.calls.lookup).map IpCall.key = some key then 1 else 0

/-- The totals are counted from the initial ones. -/
structure Exact (initial : IpKey → Nat) (s : ConnectionIpSystem) : Prop where
  saved : ∀ text, s.files.connectionIp = some text → ∀ key,
    total (text.map SavedIpInfo.read) key = min (initial key + s.tally.completed key) u64Max
  unsaved : s.files.connectionIp = none → ∀ key,
    s.tally.completed key = 0 ∧ s.files.initialTotal key = initial key
  memory : s.enabled = true → ∀ key,
    total s.records key = min (initial key + s.tally.completed key + s.pending key) u64Max

theorem initialTotal_le (files : IpFiles) (key : IpKey) : files.initialTotal key ≤ u64Max := by
  unfold IpFiles.initialTotal
  split
  · exact total_le_u64Max
  · exact min_le_right _ _

/-- A process that starts has the totals of the file, or migrates the initial ones. -/
theorem Exact.boot {files : IpFiles} {tally : IpTally}
    (hsaved : ∀ text, files.connectionIp = some text → ∀ key,
      total (text.map SavedIpInfo.read) key = min (initial key + tally.completed key) u64Max)
    (hunsaved : files.connectionIp = none → ∀ key,
      tally.completed key = 0 ∧ files.initialTotal key = initial key) (enabled : Bool) :
    Exact initial (boot files enabled tally) where
  saved := hsaved
  unsaved := hunsaved
  memory := by
    intro henabled key
    cases henabled
    show total (new files true) key = min (initial key + tally.completed key + 0) u64Max
    rw [total_new]
    cases hfile : files.connectionIp with
    | some text =>
      rw [IpFiles.initialTotal, hfile]
      exact hsaved text hfile key
    | none =>
      obtain ⟨hzero, hinitial⟩ := hunsaved hfile key
      have hle := initialTotal_le files key
      omega

theorem exact_start (files : IpFiles) (enabled : Bool) :
    Exact files.initialTotal (start files enabled) := by
  refine Exact.boot ?_ (fun _ _ => ⟨rfl, rfl⟩) enabled
  intro text hfile key
  rw [IpFiles.initialTotal, hfile]
  exact (min_eq_left total_le_u64Max).symm

theorem pending_of_free (hfree : s.lock = none) (key : IpKey) : s.pending key = 0 := by
  rw [pending, hfree]
  rfl

theorem pending_of_held (hlock : s.lock = some id) (hlookup : s.calls.lookup id = some call)
    (key : IpKey) : s.pending key = if key = call.key then 1 else 0 := by
  rw [pending, hlock, bind_some, hlookup, map_some]
  simp only [Option.some.injEq, eq_comm]

/-- Calls that do not have the lock may come and go. -/
theorem pending_congr (hlock : t.lock = s.lock)
    (hkey : ∀ id, s.lock = some id →
      (t.calls.lookup id).map IpCall.key = (s.calls.lookup id).map IpCall.key) (key : IpKey) :
    t.pending key = s.pending key := by
  unfold pending
  rw [hlock]
  cases hheld : s.lock with
  | none => rfl
  | some id => rw [bind_some, bind_some, hkey id hheld]

/-- Totals stay exact while the players are kept. -/
theorem Exact.step (h : Exact initial s) (hlocked : Locked s) (hok : s.KeepsPlayers event)
    (hchange : Change s event t) : Exact initial t := by
  obtain ⟨saved, unsaved, memory⟩ := h
  cases hchange with
  | ignored id key => exact ⟨saved, unsaved, memory⟩
  | called id key hnew hon =>
    refine ⟨saved, unsaved, fun henabled other => ?_⟩
    rw [@pending_congr s]
    · exact memory henabled other
    · rfl
    · intro holder hheld
      have hne := hlocked.ne_of_new hheld hnew
      exact congrArg (Option.map IpCall.key) (Pool.put_ne s.calls _ hne)
  | updated id now key hlookup hfree =>
    refine ⟨saved, unsaved, fun henabled other => ?_⟩
    have hbefore := memory henabled other
    rw [pending_of_free hfree] at hbefore
    rw [pending_of_held rfl (Pool.put_self s.calls id _)]
    rw [total_countConnection, hbefore]
    show _ = min (initial other + s.tally.completed other + if other = key then 1 else 0) u64Max
    omega
  | written id key text hlookup =>
    refine ⟨saved, unsaved, fun henabled other => ?_⟩
    rw [@pending_congr s]
    · exact memory henabled other
    · rfl
    · intro holder hheld
      rw [Pool.lookup_put]
      split
      · next heq => rw [heq, hlookup]; rfl
      · rfl
  | renamed id key text hlookup htext =>
    obtain ⟨hlock, hrecords⟩ := hlocked.renames hlookup htext
    have htotal : ∀ other, total s.records other =
        min (initial other + countKey s.tally.completed key other) u64Max := by
      intro other
      have hbefore := memory (hlocked.enabled id _ hlookup) other
      rw [pending_of_held hlock hlookup] at hbefore
      rw [hbefore, countKey_apply, Nat.add_assoc]
    refine ⟨fun saved hsaved other => ?_, fun hnone => (nomatch hnone), fun _ other => ?_⟩
    · cases hsaved
      rw [hrecords]
      exact htotal other
    · rw [pending_of_free rfl]
      exact htotal other
  | playersSaved players =>
    refine ⟨saved, fun hnone => ?_, memory⟩
    have hsome : s.files.connectionIp.isSome = true := hok
    rw [show s.files.connectionIp = none from hnone] at hsome
    cases hsome
  | restarted enabled => exact .boot (by exact saved) (by exact unsaved) enabled

/-! ## The calls -/

/-- Every call has completed, was cut off by a restart, or is running. -/
def Accounted (s : ConnectionIpSystem) : Prop :=
  ∀ key, s.tally.called key = s.tally.completed key + s.tally.cutOff key + s.running key

theorem toNat_decide (p : Prop) [Decidable p] : (decide p).toNat = if p then 1 else 0 := by
  by_cases h : p <;> simp [h]

theorem running_put {changed : IpCall} (hlookup : s.calls.lookup id = some call)
    (hkey : changed.key = call.key) (key : IpKey) :
    (s.calls.put id changed).count (fun _ call => key = call.key) = s.running key := by
  have hput : (s.calls.put id changed).count (fun _ call => key = call.key) +
      (decide (key = call.key)).toNat = s.running key + (decide (key = changed.key)).toNat :=
    Pool.count_put hlookup
  rw [hkey] at hput
  exact Nat.add_right_cancel hput

/-- Calls stay accounted for. -/
theorem Accounted.step (h : Accounted s) (hchange : Change s event t) : Accounted t := by
  intro other
  have hbefore := h other
  cases hchange with
  | ignored | playersSaved => exact hbefore
  | called id key hnew hon =>
    show countKey s.tally.called key other = s.tally.completed other + s.tally.cutOff other +
      (s.calls.put id { key }).count (fun _ call => other = call.key)
    rw [Pool.count_put_new hnew, toNat_decide, countKey_apply, hbefore]
    exact Nat.add_assoc _ _ _
  | updated id now key hlookup hfree | written id key text hlookup =>
    rw [← running_put hlookup rfl] at hbefore
    exact hbefore
  | renamed id key text hlookup htext =>
    have hdrop := Pool.count_drop (A := fun _ call => other = call.key) hlookup
    show s.tally.called other = countKey s.tally.completed key other + s.tally.cutOff other +
      (s.calls.drop id).count (fun _ call => other = call.key)
    rw [toNat_decide] at hdrop
    rw [countKey_apply, hbefore, running, ← hdrop]
    simp only
    omega
  | restarted enabled => exact hbefore.trans (Nat.add_assoc _ _ _)

/-! ## Distinct pairs -/

/-- The file and the memory have one record for each pair. -/
structure Tidy (s : ConnectionIpSystem) : Prop where
  saved : ∀ text, s.files.connectionIp = some text → Distinct (text.map SavedIpInfo.read)
  records : Distinct s.records

theorem tidy_boot {files : IpFiles} (enabled : Bool) (tally : IpTally)
    (h : ∀ text, files.connectionIp = some text → Distinct (text.map SavedIpInfo.read)) :
    Tidy (boot files enabled tally) := by
  refine ⟨h, ?_⟩
  show Distinct (new files enabled)
  unfold new
  split
  · split
    · next text hfile => exact h text hfile
    · exact distinct_merged _ List.nodup_nil
  · exact List.nodup_nil

/-- There stays one record for each pair. -/
theorem Tidy.step (h : Tidy s) (hlocked : Locked s) (hchange : Change s event t) : Tidy t := by
  cases hchange with
  | ignored id key => exact h
  | called | written | playersSaved => exact ⟨h.saved, h.records⟩
  | updated id now key hlookup hfree =>
    exact ⟨h.saved, distinct_countConnection key now h.records⟩
  | renamed id key text hlookup htext =>
    refine ⟨fun saved hsaved => ?_, h.records⟩
    cases hsaved
    rw [(hlocked.renames hlookup htext).2]
    exact h.records
  | restarted enabled => exact tidy_boot enabled _ h.saved

/-! ## The migration -/

/-- A file was saved when so many processes had migrated. -/
def Migrated (migrations : Nat) (s : ConnectionIpSystem) : Prop :=
  s.files.connectionIp.isSome = true ∧ s.tally.migrations = migrations

/-- A saved file is not migrated again. -/
theorem Migrated.step {migrations : Nat} (h : Migrated migrations s) (hchange : Change s event t) :
    Migrated migrations t := by
  obtain ⟨hsaved, hmigrations⟩ := h
  cases hchange with
  | ignored | called | updated | written | playersSaved => exact ⟨hsaved, hmigrations⟩
  | renamed id key text hlookup htext => exact ⟨rfl, hmigrations⟩
  | restarted enabled =>
    refine ⟨hsaved, ?_⟩
    have hnot : s.files.connectionIp.isNone = false := by
      rw [← not_isSome, hsaved]
      rfl
    show s.tally.migrations + (if enabled && s.files.connectionIp.isNone then 1 else 0) = _
    rw [hnot, Bool.and_false, hmigrations]
    rfl

section

variable {files : IpFiles} {enabled : Bool} {events : List IpEvent}

theorem exact_of_guarded (hrun : run step (start files enabled) events = some s)
    (hquiet : Guarded step KeepsPlayers (start files enabled) events) :
    Exact files.initialTotal s := by
  have h := @Reaches.invariant _ _ _ _ _ _ (fun s => Exact files.initialTotal s ∧ Locked s)
    (reaches_of_guarded hquiet hrun) ⟨exact_start files enabled, locked_boot _ _ _⟩
    (fun s event t h hok hstep =>
      ⟨h.1.step h.2 hok (change_of_step hstep), h.2.step (change_of_step hstep)⟩)
  exact h.1

theorem tidy_of_run
    (hdistinct : ∀ text, files.connectionIp = some text → Distinct (text.map SavedIpInfo.read))
    (hrun : run step (start files enabled) events = some s) : Tidy s := by
  have h := @Reaches.invariant _ _ _ _ _ _ (fun s => Tidy s ∧ Locked s) (reaches_of_run hrun)
    ⟨tidy_boot enabled _ hdistinct, locked_boot _ _ _⟩
    (fun s event t h _ hstep =>
      ⟨h.1.step h.2 (change_of_step hstep), h.2.step (change_of_step hstep)⟩)
  exact h.1

/-- In every saved file the total of each pair is the initial one and the calls that have
completed; no call is lost before the first file; a call that has not completed still runs or
was cut off by a restart; distinct pairs stay distinct; and a process that finds a saved file
does not migrate. -/
theorem connection_totals_exact
    (hrun : run step (start files enabled) events = some s)
    (hquiet : Guarded step KeepsPlayers (start files enabled) events) :
    (∀ text, s.files.connectionIp = some text → ∀ key,
      total (text.map SavedIpInfo.read) key =
        min (files.initialTotal key + s.tally.completed key) u64Max) ∧
    (s.files.connectionIp = none → ∀ key, s.tally.completed key = 0) ∧
    (∀ key, s.tally.called key = s.tally.completed key + s.tally.cutOff key + s.running key) ∧
    ((∀ text, files.connectionIp = some text → Distinct (text.map SavedIpInfo.read)) →
      ∀ text, s.files.connectionIp = some text → Distinct (text.map SavedIpInfo.read)) ∧
    (s.files.connectionIp.isSome = true → ∀ later t, run step s later = some t →
      t.tally.migrations = s.tally.migrations) := by
  have hexact := exact_of_guarded hrun hquiet
  have haccounted : Accounted s := (reaches_of_run hrun).invariant (fun _ => rfl)
    (fun s event t h _ hstep => h.step (change_of_step hstep))
  refine ⟨hexact.saved, fun hnone key => (hexact.unsaved hnone key).1, haccounted, ?_, ?_⟩
  · exact fun hdistinct => (tidy_of_run hdistinct hrun).saved
  · intro hsaved later t hlater
    have hmigrated : Migrated s.tally.migrations t := (reaches_of_run hlater).invariant
      ⟨hsaved, rfl⟩ (fun s event t h _ hstep => h.step (change_of_step hstep))
    exact hmigrated.2

end

/-- Two players have played from one address. -/
def legacyFiles : IpFiles where
  playerIp := some
    [⟨"Alex".toList, [⟨"203.0.113.1".toList, "UDP".toList, 1, some 3⟩]⟩,
      ⟨"Steve".toList, [⟨"203.0.113.1".toList, "UDP".toList, 2, none⟩]⟩]

/-- A restart cuts off a call after it has written its temporary file; the next process finds no
totals and migrates again, and one of its two calls completes. -/
def cutOffCall : List IpEvent :=
  let key := ("203.0.113.1".toList, "UDP".toList)
  [.call 0 key, .update 0 10, .written 0, .restart true, .call 0 key, .call 1 key, .update 1 20,
    .written 1, .renamed 1, .restart true]

/-- A restart between the write and the rename. -/
theorem connection_totals_after_cut_off_call :
    ∃ s, run step (start legacyFiles true) cutOffCall = some s ∧
      s.files.connectionIp = some [⟨"203.0.113.1".toList, "UDP".toList, 20, some 5⟩] ∧
      s.tally.completed ("203.0.113.1".toList, "UDP".toList) = 1 ∧
      (∀ text, s.files.connectionIp = some text → ∀ key,
        total (text.map SavedIpInfo.read) key =
          min (legacyFiles.initialTotal key + s.tally.completed key) u64Max) := by
  have hquiet : Guarded step KeepsPlayers (start legacyFiles true) cutOffCall :=
    ⟨trivial, trivial, trivial, trivial, trivial, trivial, trivial, trivial, trivial, trivial,
      trivial⟩
  refine ⟨_, rfl, ?_, ?_, (connection_totals_exact rfl hquiet).1⟩
  · rfl
  · rfl

end ConnectionIpSystem

end FerrumProxy
