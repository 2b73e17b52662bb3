import FerrumProxy.BatchWindows
import FerrumProxy.ConfigTypes
import FerrumProxy.GuardedRuns
import FerrumProxy.TextLines

/-!
# Grouped webhook notifications

`WebhookGroupNotifier` collects connections and disconnections for a webhook, a protocol and a
target during three seconds and sends them as one message.  An add looks under a lock whether
its group exists, and puts its IP address and port in.  If there was no group it spawns a task
that sleeps, takes the group out of the map under the lock, and sends it to the webhook of the
add that has spawned it.  A step goes from one lock to the next.
-/

namespace FerrumProxy

open Str Runs Batches

/-- The name that the callers of `add_connect_group` and `add_disconnect_group` give. -/
def Protocol.label : Protocol → Text
  | .tcp => "TCP".toList
  | .udp => "UDP".toList

/-! ## The message -/

/-- A field of an embed. -/
structure DiscordField where
  name : Text
  value : Text
  inline : Option Bool
  deriving DecidableEq

/-- The footer of an embed. -/
structure DiscordFooter where
  text : Text
  deriving DecidableEq

/-- What is sent to a webhook. -/
structure DiscordEmbed where
  title : Text
  description : Text
  color : UInt32
  timestamp : Text
  fields : List DiscordField
  footer : DiscordFooter
  deriving DecidableEq

def joinPorts (ports : List UInt16) : Text :=
  ", ".toList.intercalate (ports.map (fun port => Nat.toDigits 10 port.toNat))

def groupedLine (target protocol : Text) (group : Text × List UInt16) : Text :=
  "[".toList ++ protocol ++ "] ".toList ++ group.1 ++ ":".toList ++ joinPorts group.2 ++
    " => ".toList ++ target

def groupedEmbed (title fieldName description : Text) (color : UInt32) (target protocol : Text)
    (groups : List (Text × List UInt16)) (timestamp : Text) : DiscordEmbed where
  title := title
  description := description ++ " (".toList ++ protocol ++ ")".toList
  color := color
  timestamp := timestamp
  fields :=
    [⟨fieldName, "\n".toList.intercalate (groups.map (groupedLine target protocol)), some false⟩]
  footer := ⟨"FerrumProxy".toList⟩

def groupedConnectionEmbed := groupedEmbed "接続確立".toList "接続一覧".toList "通知".toList 0x3498db

def groupedDisconnectionEmbed := groupedEmbed "接続終了".toList "切断一覧".toList "通知".toList 0xe74c3c

/-- The request that `send_discord_webhook` makes, if any. -/
def sendDiscordWebhook (webhook : Text) (embed : DiscordEmbed) : Option (Text × DiscordEmbed) :=
  if (trim webhook).isEmpty then none else some (webhook, embed)

/-! ## The notifier -/

/-- Connects or disconnects: the two maps of the notifier. -/
inductive GroupKind where
  | connect
  | disconnect
  deriving DecidableEq

/-- The addresses of a group, each with its set of ports. -/
abbrev PortGroup := AList (fun _ : Text => List UInt16)

abbrev GroupMap := AList (fun _ : Text => PortGroup)

/-- The arguments of an add. -/
structure GroupEntry where
  webhook : Text
  target : Text
  ip : Text
  port : UInt16
  protocol : Protocol
  deriving DecidableEq

def makeGroupKey (webhook protocol target : Text) : Text :=
  webhook ++ "::".toList ++ protocol ++ "::".toList ++ target

def GroupEntry.groupKey (entry : GroupEntry) : Text :=
  makeGroupKey entry.webhook entry.protocol.label entry.target

/-- `entry(ip).or_default().insert(port)`. -/
def PortGroup.insertPort (group : PortGroup) (ip : Text) (port : UInt16) : PortGroup :=
  group.insert ip (((group.lookup ip).getD []).insert port)

/-- The port is in the set of the address. -/
def PortGroup.Contains (group : PortGroup) (ip : Text) (port : UInt16) : Prop :=
  ∃ ports, group.lookup ip = some ports ∧ port ∈ ports

/-- A task that is going to flush a group, with what it has captured from its add. -/
structure GroupTask where
  kind : GroupKind
  webhook : Text
  target : Text
  protocol : Protocol
  /-- Whether the add has spawned it. -/
  spawned : Bool := false
  deriving DecidableEq

def GroupTask.groupKey (task : GroupTask) : Text :=
  makeGroupKey task.webhook task.protocol.label task.target

/-- What a flush sends. -/
structure GroupMessage where
  kind : GroupKind
  webhook : Text
  target : Text
  protocol : Protocol
  grouped : List (Text × List UInt16)
  timestamp : Text
  deriving DecidableEq

namespace GroupMessage

def groupKey (message : GroupMessage) : Text :=
  makeGroupKey message.webhook message.protocol.label message.target

def embed (message : GroupMessage) : DiscordEmbed :=
  match message.kind with
  | .connect =>
    groupedConnectionEmbed message.target message.protocol.label message.grouped message.timestamp
  | .disconnect =>
    groupedDisconnectionEmbed message.target message.protocol.label message.grouped
      message.timestamp

def send (message : GroupMessage) : Option (Text × DiscordEmbed) :=
  sendDiscordWebhook message.webhook message.embed

/-- The message lists the port under the address. -/
def Lists (message : GroupMessage) (item : Text × UInt16) : Prop :=
  ∃ group ∈ message.grouped, group.1 = item.1 ∧ item.2 ∈ group.2

instance (message : GroupMessage) (item : Text × UInt16) : Decidable (message.Lists item) :=
  inferInstanceAs (Decidable (∃ group ∈ message.grouped, group.1 = item.1 ∧ item.2 ∈ group.2))

end GroupMessage

/-- An entry of the log: an add with its map, and whether it has found no group, or a flush. -/
abbrev GroupLog := Entry (GroupKind × GroupEntry) GroupMessage

/-- The groups, the tasks that flush them, and a log. -/
structure GroupSystem where
  /-- The maps `connects` and `disconnects`. -/
  groups : GroupKind → GroupMap := fun _ => ∅
  tasks : Pool GroupTask := ∅
  log : List GroupLog := []

/-- The steps of the adds and of the tasks. -/
inductive GroupEvent where
  | add (id : Nat) (kind : GroupKind) (entry : GroupEntry)
  | spawn (id : Nat)
  /-- The window is over; the map of the group is walked in some order. -/
  | expire (id : Nat) (order : List (Text × List UInt16)) (timestamp : Text)

/-- The ports of each address are sorted. -/
def sortGroups (order : List (Text × List UInt16)) : List (Text × List UInt16) :=
  order.map (fun group => (group.1, group.2.insertionSort (· ≤ ·)))

def PortGroup.walk (group : PortGroup) : List (Text × List UInt16) :=
  group.entries.map (fun entry => (entry.1, entry.2))

/-- The message that the task makes of its group. -/
def GroupTask.message (task : GroupTask) (order : List (Text × List UInt16)) (timestamp : Text) :
    GroupMessage :=
  ⟨task.kind, task.webhook, task.target, task.protocol, sortGroups order, timestamp⟩

/-- The flush that an add spawns. -/
def GroupEntry.flush (entry : GroupEntry) (kind : GroupKind) : GroupTask where
  kind := kind
  webhook := entry.webhook
  target := entry.target
  protocol := entry.protocol

open List Option Function

namespace GroupSystem

def step (s : GroupSystem) : GroupEvent → Option GroupSystem
  | .add id kind entry =>
    if s.tasks.lookup id = none then
      let found := (s.groups kind).lookup entry.groupKey
      let group := PortGroup.insertPort (found.getD ∅) entry.ip entry.port
      some { s with
        groups := Function.update s.groups kind ((s.groups kind).insert entry.groupKey group)
        tasks := if found.isNone then s.tasks.put id (entry.flush kind) else s.tasks
        log := s.log ++ [.added (kind, entry) found.isNone] }
    else none
  | .spawn id =>
    (s.tasks.lookup id).bind fun task =>
      if task.spawned then none
      else some { s with tasks := s.tasks.put id { task with spawned := true } }
  | .expire id order timestamp =>
    (s.tasks.lookup id).bind fun task =>
      if task.spawned then
        match (s.groups task.kind).lookup task.groupKey with
        | none => some { s with tasks := s.tasks.drop id }
        | some group =>
          if order.Perm group.walk then
            some { s with
              groups := Function.update s.groups task.kind
                ((s.groups task.kind).erase task.groupKey)
              tasks := s.tasks.drop id
              log := s.log ++ [.flushed (task.message order timestamp)] }
          else none
      else none

/-- The flushes of a group that are pending: spawned, or about to be. -/
def pendingFlushes (s : GroupSystem) (kind : GroupKind) (key : Text) : Nat :=
  s.tasks.count (fun _ task => task.kind = kind ∧ task.groupKey = key)

/-- What a step does, and when. -/
inductive Change (s : GroupSystem) : GroupEvent → GroupSystem → Prop
  | opened (id : Nat) (kind : GroupKind) (entry : GroupEntry) (hnew : s.tasks.lookup id = none)
      (hnone : (s.groups kind).lookup entry.groupKey = none) :
      Change s (.add id kind entry)
        { groups := Function.update s.groups kind
            ((s.groups kind).insert entry.groupKey (PortGroup.insertPort ∅ entry.ip entry.port))
          tasks := s.tasks.put id (entry.flush kind)
          log := s.log ++ [.added (kind, entry) true] }
  | joined (id : Nat) (kind : GroupKind) (entry : GroupEntry) (group : PortGroup)
      (hgroup : (s.groups kind).lookup entry.groupKey = some group) :
      Change s (.add id kind entry)
        { groups := Function.update s.groups kind
            ((s.groups kind).insert entry.groupKey (group.insertPort entry.ip entry.port))
          tasks := s.tasks
          log := s.log ++ [.added (kind, entry) false] }
  | spawned (id : Nat) (task : GroupTask) (hlookup : s.tasks.lookup id = some task) :
      Change s (.spawn id) { s with tasks := s.tasks.put id { task with spawned := true } }
  | vanished (id : Nat) (order : List (Text × List UInt16)) (timestamp : Text) (task : GroupTask)
      (hlookup : s.tasks.lookup id = some task)
      (hnone : (s.groups task.kind).lookup task.groupKey = none) :
      Change s (.expire id order timestamp) { s with tasks := s.tasks.drop id }
  | flushed (id : Nat) (order : List (Text × List UInt16)) (timestamp : Text) (task : GroupTask)
      (group : PortGroup) (hlookup : s.tasks.lookup id = some task)
      (hgroup : (s.groups task.kind).lookup task.groupKey = some group)
      (horder : order.Perm group.walk) :
      Change s (.expire id order timestamp)
        { groups := Function.update s.groups task.kind
            ((s.groups task.kind).erase task.groupKey)
          tasks := s.tasks.drop id
          log := s.log ++ [.flushed (task.message order timestamp)] }

variable {s t : GroupSystem} {event : GroupEvent}

/-- Every step is one of the changes. -/
theorem change_of_step (hstep : s.step event = some t) : Change s event t := by
  cases event with
  | add id kind entry =>
    obtain ⟨hnew, hstep⟩ := ite_none_right_eq_some.mp hstep
    cases hstep
    cases hfound : (s.groups kind).lookup entry.groupKey with
    | none => exact .opened id kind entry hnew hfound
    | some group => exact .joined id kind entry group hfound
  | spawn id =>
    obtain ⟨task, hlookup, hstep⟩ := bind_eq_some_iff.mp hstep
    obtain ⟨_, hstep⟩ := ite_none_left_eq_some.mp hstep
    cases hstep
    exact .spawned id task hlookup
  | expire id order timestamp =>
    obtain ⟨task, hlookup, hstep⟩ := bind_eq_some_iff.mp hstep
    obtain ⟨_, hstep⟩ := ite_none_right_eq_some.mp hstep
    cases hfound : (s.groups task.kind).lookup task.groupKey with
    | none =>
      rw [hfound] at hstep
      cases hstep
      exact .vanished id order timestamp task hlookup hfound
    | some group =>
      rw [hfound] at hstep
      obtain ⟨horder, hstep⟩ := ite_none_right_eq_some.mp hstep
      cases hstep
      exact .flushed id order timestamp task group hlookup hfound horder

/-! ## Pending flushes -/

/-- A group is in its map exactly when one flush of it is pending. -/
def Paired (s : GroupSystem) : Prop :=
  ∀ kind key, s.pendingFlushes kind key = ((s.groups kind).lookup key).isSome.toNat

section Lookup

variable (groups : GroupKind → GroupMap) (kind other : GroupKind) (key found : Text)

variable {value : Option PortGroup}

theorem lookup_update {map : GroupMap} (hkey : map.lookup key = value)
    (hne : ∀ found, found ≠ key → map.lookup found = (groups kind).lookup found) :
    (update groups kind map other).lookup found =
      if kind = other ∧ key = found then value else (groups other).lookup found := by
  by_cases hkind : kind = other
  · subst hkind
    rw [update_self]
    by_cases hsame : key = found
    · subst hsame
      rw [hkey, if_pos ⟨rfl, rfl⟩]
    · rw [hne found (Ne.symm hsame), if_neg (fun h => hsame h.2)]
  · rw [update_of_ne (Ne.symm hkind), if_neg (fun h => hkind h.1)]

theorem lookup_update_insert (group : PortGroup) :
    (update groups kind ((groups kind).insert key group) other).lookup found =
      if kind = other ∧ key = found then some group else (groups other).lookup found :=
  lookup_update groups kind other key found (AList.lookup_insert _)
    (fun _ hne => AList.lookup_insert_ne hne)

theorem lookup_update_erase :
    (update groups kind ((groups kind).erase key) other).lookup found =
      if kind = other ∧ key = found then none else (groups other).lookup found :=
  lookup_update groups kind other key found (AList.lookup_erase _ _)
    (fun _ hne => AList.lookup_erase_ne hne)

end Lookup

variable {id : Nat} {task : GroupTask} {group : PortGroup} {value : Option PortGroup}

/-- A waiting task finds its group. -/
theorem Paired.finds (h : Paired s) (hlookup : s.tasks.lookup id = some task) :
    ∃ group, (s.groups task.kind).lookup task.groupKey = some group := by
  cases hfound : (s.groups task.kind).lookup task.groupKey with
  | some group => exact ⟨group, rfl⟩
  | none =>
    have hzero := h task.kind task.groupKey
    rw [hfound] at hzero
    have hpos : 0 < s.pendingFlushes task.kind task.groupKey :=
      Pool.count_pos hlookup (decide_eq_true ⟨rfl, rfl⟩)
    exact absurd hzero (Nat.ne_of_gt hpos)

/-- Every step keeps groups and flushes paired. -/
theorem Paired.step (h : Paired s) (hchange : Change s event t) : Paired t := by
  intro kind key
  have hbefore := h kind key
  cases hchange with
  | opened id other entry hnew hnone =>
    have hcount : (s.tasks.put id (entry.flush other)).count
        (fun _ task => task.kind = kind ∧ task.groupKey = key) = s.pendingFlushes kind key +
          (decide (other = kind ∧ entry.groupKey = key)).toNat := Pool.count_put_new hnew
    rw [pendingFlushes, hcount, hbefore, lookup_update_insert]
    by_cases hsame : other = kind ∧ entry.groupKey = key
    · obtain ⟨rfl, rfl⟩ := hsame
      simp [hnone]
    · simp [hsame]
  | joined id other entry group hgroup =>
    show s.pendingFlushes kind key = _
    rw [hbefore, lookup_update_insert]
    by_cases hsame : other = kind ∧ entry.groupKey = key
    · obtain ⟨rfl, rfl⟩ := hsame
      simp [hgroup]
    · rw [if_neg hsame]
  | spawned id task hlookup =>
    have hcount : (s.tasks.put id { task with spawned := true }).count
        (fun _ task => task.kind = kind ∧ task.groupKey = key) +
          (decide (task.kind = kind ∧ task.groupKey = key)).toNat = s.pendingFlushes kind key +
          (decide (task.kind = kind ∧ task.groupKey = key)).toNat := Pool.count_put hlookup
    exact (Nat.add_right_cancel hcount).trans hbefore
  | vanished id order timestamp task hlookup hnone =>
    obtain ⟨group, hgroup⟩ := h.finds hlookup
    cases hnone.symm.trans hgroup
  | flushed id order timestamp task group hlookup hgroup horder =>
    have hcount : (s.tasks.drop id).count
        (fun _ task => task.kind = kind ∧ task.groupKey = key) +
          (decide (task.kind = kind ∧ task.groupKey = key)).toNat = s.pendingFlushes kind key :=
      Pool.count_drop hlookup
    rw [hbefore] at hcount
    rw [pendingFlushes, lookup_update_erase]
    by_cases hsame : task.kind = kind ∧ task.groupKey = key
    · rw [decide_eq_true hsame, ← hsame.1, ← hsame.2, hgroup] at hcount
      rw [if_pos hsame, ← hsame.1, ← hsame.2]
      exact Nat.add_right_cancel hcount
    · rw [decide_eq_false hsame] at hcount
      rw [if_neg hsame]
      exact hcount

/-! ## The batches -/

/-- How adds and messages belong to groups. -/
def scheme : Scheme (GroupKind × GroupEntry) GroupMessage (GroupKind × Text) (Text × UInt16) where
  addKey add := (add.1, add.2.groupKey)
  item add := (add.2.ip, add.2.port)
  messageKey message := (message.kind, message.groupKey)
  carries := GroupMessage.Lists

/-- A group as a set of addresses with ports. -/
def items (group : PortGroup) : Set (Text × UInt16) := fun item => group.Contains item.1 item.2

def batches (s : GroupSystem) (group : GroupKind × Text) : Option (Set (Text × UInt16)) :=
  ((s.groups group.1).lookup group.2).map items

theorem items_empty : items ∅ = ∅ := by
  ext item
  constructor
  · intro h
    obtain ⟨ports, hlookup, _⟩ := h
    cases hlookup
  · exact fun h => h.elim

theorem items_insertPort (group : PortGroup) (ip : Text) (port : UInt16) :
    items (group.insertPort ip port) = insert (ip, port) (items group) := by
  ext ⟨other, found⟩
  rw [Set.mem_insert_iff, Prod.mk.injEq]
  show (group.insertPort ip port).Contains other found ↔ _ ∨ group.Contains other found
  unfold PortGroup.Contains PortGroup.insertPort
  by_cases hip : other = ip
  · subst hip
    rw [AList.lookup_insert]
    cases group.lookup other <;> simp
  · rw [AList.lookup_insert_ne hip]
    simp [hip]

/-- A message lists what its group has. -/
theorem lists_message {order : List (Text × List UInt16)} (horder : order.Perm group.walk)
    (timestamp : Text) (item : Text × UInt16) :
    (task.message order timestamp).Lists item ↔ group.Contains item.1 item.2 := by
  constructor
  · intro h
    obtain ⟨listed, hlisted, hip, hport⟩ := h
    obtain ⟨walked, hwalked, rfl⟩ := List.mem_map.mp hlisted
    obtain ⟨entry, hentry, rfl⟩ := List.mem_map.mp (horder.mem_iff.mp hwalked)
    refine ⟨entry.2, ?_, (mem_insertionSort _).mp hport⟩
    rw [← hip]
    exact AList.mem_lookup_iff.mpr hentry
  · intro h
    obtain ⟨ports, hlookup, hport⟩ := h
    have hentry : (⟨item.1, ports⟩ : Sigma _) ∈ group.entries := AList.mem_lookup_iff.mp hlookup
    have hwalked : (item.1, ports) ∈ order :=
      horder.mem_iff.mpr (List.mem_map.mpr ⟨_, hentry, rfl⟩)
    exact ⟨_, List.mem_map.mpr ⟨_, hwalked, rfl⟩, rfl, (mem_insertionSort _).mpr hport⟩

theorem batches_update {groups : GroupKind → GroupMap} {kind : GroupKind} {key : Text}
    (tasks : Pool GroupTask) (log : List GroupLog)
    (h : ∀ other found, (groups other).lookup found =
      if kind = other ∧ key = found then value else (s.groups other).lookup found) :
    batches ⟨groups, tasks, log⟩ = update s.batches (kind, key) (value.map items) := by
  funext ⟨other, found⟩
  rw [batches, h]
  by_cases hsame : kind = other ∧ key = found
  · obtain ⟨rfl, rfl⟩ := hsame
    rw [update_self, if_pos ⟨rfl, rfl⟩]
  · rw [update_of_ne, if_neg hsame]
    · rfl
    · intro heq
      cases heq
      exact hsame ⟨rfl, rfl⟩

theorem batches_insert (kind : GroupKind) (key : Text) (group : PortGroup) (tasks : Pool GroupTask)
    (log : List GroupLog) :
    batches ⟨update s.groups kind ((s.groups kind).insert key group), tasks, log⟩ =
      update s.batches (kind, key) (some (items group)) :=
  batches_update tasks log
    (fun other found => lookup_update_insert s.groups kind other key found group)

theorem batches_erase (kind : GroupKind) (key : Text) (tasks : Pool GroupTask)
    (log : List GroupLog) :
    batches ⟨update s.groups kind ((s.groups kind).erase key), tasks, log⟩ =
      update s.batches (kind, key) none :=
  batches_update tasks log (fun other found => lookup_update_erase s.groups kind other key found)

/-- Each step follows the batching scheme. -/
theorem kept_step (hkept : scheme.Kept s.log s.batches) (hchange : Change s event t) :
    scheme.Kept t.log t.batches := by
  cases hchange with
  | opened id kind entry hnew hnone =>
    have hbatch : s.batches (scheme.addKey (kind, entry)) = none :=
      congrArg (Option.map items) hnone
    have hadded := hkept.added (kind, entry)
    rw [hbatch] at hadded
    rw [batches_insert, items_insertPort, items_empty]
    exact hadded
  | joined id kind entry group hgroup =>
    have hbatch : s.batches (scheme.addKey (kind, entry)) = some (items group) :=
      congrArg (Option.map items) hgroup
    have hadded := hkept.added (kind, entry)
    rw [hbatch] at hadded
    rw [batches_insert, items_insertPort]
    exact hadded
  | spawned | vanished => exact hkept
  | flushed id order timestamp task group hlookup hgroup horder =>
    rw [batches_erase]
    exact .flushed (task.message order timestamp) hkept (congrArg (Option.map items) hgroup)
      (lists_message horder timestamp)

/-! ## The webhook -/

/-- The text contains no double colon. -/
def Plain (webhook : Text) : Prop := ¬ "::".toList <:+: webhook

/-- Plain webhooks have keys of their own. -/
theorem makeGroupKey_inj {webhook webhook' target target' : Text} {protocol protocol' : Protocol}
    (hplain : Plain webhook) (hplain' : Plain webhook')
    (h : makeGroupKey webhook protocol.label target =
      makeGroupKey webhook' protocol'.label target') :
    webhook = webhook' ∧ protocol = protocol' ∧ target = target' := by
  have hfield : ∀ protocol : Protocol, protocol.label ≠ [] ∧ ':' ∉ protocol.label := by
    intro protocol
    cases protocol <;> exact ⟨by decide, by decide⟩
  have hjoin : ∀ webhook target : Text, ∀ protocol : Protocol,
      makeGroupKey webhook protocol.label target =
        webhook ++ ':' :: ':' :: (protocol.label ++ ':' :: ':' :: target) := by
    intro webhook target protocol
    simp [makeGroupKey]
  rw [hjoin, hjoin] at h
  obtain ⟨hwebhook, hlabel, htarget⟩ := join_double_inj hplain hplain' (hfield protocol).1
    (hfield protocol).2 (hfield protocol').1 (hfield protocol').2 h
  refine ⟨hwebhook, ?_, htarget⟩
  revert hlabel
  cases protocol <;> cases protocol' <;> decide

/-- The webhook of an add or a message. -/
def logWebhook : GroupLog → Text
  | .added add _ => add.2.webhook
  | .flushed message => message.webhook

/-- No webhook contains a double colon. -/
structure AllPlain (s : GroupSystem) : Prop where
  tasks : s.tasks.All (fun task => Plain task.webhook)
  log : ∀ entry ∈ s.log, Plain (logWebhook entry)

/-- The webhook of an add contains no double colon. -/
def GoodWebhook (_ : GroupSystem) : GroupEvent → Prop
  | .add _ _ entry => Plain entry.webhook
  | _ => True

theorem AllPlain.step (h : AllPlain s) (hgood : s.GoodWebhook event) (hchange : Change s event t) :
    AllPlain t := by
  obtain ⟨htasks, hlog⟩ := h
  have hsnoc (last) (hlast : Plain (logWebhook last)) :
      ∀ entry ∈ s.log ++ [last], Plain (logWebhook entry) :=
    forall_mem_append.mpr ⟨hlog, forall_mem_singleton.mpr hlast⟩
  cases hchange with
  | opened id kind entry hnew hnone => exact ⟨htasks.put hgood, hsnoc _ hgood⟩
  | joined id kind entry group hgroup => exact ⟨htasks, hsnoc _ hgood⟩
  | spawned id task hlookup =>
    have htask : Plain task.webhook := htasks id task hlookup
    exact ⟨htasks.put htask, hlog⟩
  | vanished id order timestamp task hlookup hnone => exact ⟨htasks.drop, hlog⟩
  | flushed id order timestamp task group hlookup hgroup horder =>
    exact ⟨htasks.drop, hsnoc _ (htasks id task hlookup)⟩

/-! ## Every add is delivered once -/

/-- The message contains what was added and goes where it should. -/
structure Delivers (message : GroupMessage) (kind : GroupKind) (entry : GroupEntry) : Prop where
  kind : message.kind = kind
  webhook : message.webhook = entry.webhook
  target : message.target = entry.target
  protocol : message.protocol = entry.protocol
  lists : message.Lists (entry.ip, entry.port)

instance (message : GroupMessage) (kind : GroupKind) (entry : GroupEntry) :
    Decidable (Delivers message kind entry) :=
  decidable_of_iff (message.kind = kind ∧ message.webhook = entry.webhook ∧
      message.target = entry.target ∧ message.protocol = entry.protocol ∧
      message.Lists (entry.ip, entry.port))
    ⟨fun h => ⟨h.1, h.2.1, h.2.2.1, h.2.2.2.1, h.2.2.2.2⟩,
      fun h => ⟨h.kind, h.webhook, h.target, h.protocol, h.lists⟩⟩

/-- A line of the embed names the address with the port, the protocol and the target. -/
def Names (message : GroupMessage) (entry : GroupEntry) : Prop :=
  ∃ name lines ports, message.embed.fields = [⟨name, "\n".toList.intercalate lines, some false⟩] ∧
    groupedLine entry.target entry.protocol.label (entry.ip, ports) ∈ lines ∧ entry.port ∈ ports

variable {message : GroupMessage} {kind : GroupKind} {entry : GroupEntry}

theorem Delivers.messageKey (h : Delivers message kind entry) :
    scheme.messageKey message = scheme.addKey (kind, entry) := by
  show (message.kind, message.groupKey) = (kind, entry.groupKey)
  rw [GroupMessage.groupKey, GroupEntry.groupKey, h.kind, h.webhook, h.protocol, h.target]

/-- The message names the address and the port. -/
theorem Delivers.names (h : Delivers message kind entry) : Names message entry := by
  obtain ⟨⟨ip, ports⟩, hgroup, rfl, hport⟩ := h.lists
  have hline : groupedLine entry.target entry.protocol.label (entry.ip, ports) ∈
      message.grouped.map (groupedLine message.target message.protocol.label) := by
    rw [h.target, h.protocol]
    exact List.mem_map.mpr ⟨_, hgroup, rfl⟩
  unfold Names GroupMessage.embed
  cases message.kind <;> exact ⟨_, _, ports, rfl, hline, hport⟩

theorem Delivers.send (h : Delivers message kind entry) (hblank : trim entry.webhook ≠ []) :
    message.send = some (entry.webhook, message.embed) := by
  rw [GroupMessage.send, sendDiscordWebhook, h.webhook, if_neg (by simpa using hblank)]

theorem delivers_of_flush (hwebhook : Plain entry.webhook) (hmessage : Plain message.webhook)
    (hkey : scheme.messageKey message = scheme.addKey (kind, entry))
    (hlists : message.Lists (entry.ip, entry.port)) : Delivers message kind entry := by
  obtain ⟨hkind, hgroup⟩ := Prod.mk.inj hkey
  obtain ⟨hsame, hprotocol, htarget⟩ := makeGroupKey_inj hmessage hwebhook hgroup
  exact ⟨hkind, hsame, htarget, hprotocol, hlists⟩

theorem filter_delivers (log : List GroupLog) :
    (messages log).filter (fun message => Delivers message kind entry) =
      (scheme.flushes (scheme.addKey (kind, entry)) log).filter
        (fun message => Delivers message kind entry) := by
  rw [Scheme.flushes, List.filter_filter]
  refine filter_congr (fun message _ => ?_)
  by_cases h : Delivers message kind entry
  · simp [h, h.messageKey]
  · simp [h]

/-- A group that expires is gone. -/
theorem expire_runs (hlookup : s.tasks.lookup id = some task) (hspawned : task.spawned = true)
    (hgroup : (s.groups task.kind).lookup task.groupKey = some group) :
    ∃ t, s.step (.expire id group.walk []) = some t ∧
      (t.groups task.kind).lookup task.groupKey = none := by
  rw [step, hlookup, bind_some, if_pos hspawned, hgroup]
  refine ⟨_, if_pos (Perm.refl _), ?_⟩
  rw [lookup_update_erase, if_pos ⟨rfl, rfl⟩]

/-- A pending flush can spawn, wake up and take its group. -/
theorem flush_can_run (h : Paired s) {key : Text}
    (hgroup : (s.groups kind).lookup key = some group) :
    ∃ later t, run step s later = some t ∧ (t.groups kind).lookup key = none := by
  have hone := h kind key
  rw [hgroup] at hone
  have hpos : 0 < s.pendingFlushes kind key := hone ▸ Nat.one_pos
  obtain ⟨⟨id, task⟩, hmem, htask⟩ := countP_pos_iff.mp hpos
  have hlookup : s.tasks.lookup id = some task := AList.mem_lookup_iff.mpr hmem
  obtain ⟨rfl, rfl⟩ : task.kind = kind ∧ task.groupKey = key := of_decide_eq_true htask
  cases hspawned : task.spawned with
  | true =>
    obtain ⟨t, hstep, hgone⟩ := expire_runs hlookup hspawned hgroup
    exact ⟨[.expire id group.walk []], t, by rw [run, hstep]; rfl, hgone⟩
  | false =>
    let u := { s with tasks := s.tasks.put id { task with spawned := true } }
    have hspawn : s.step (.spawn id) = some u := by
      rw [step, hlookup, bind_some, hspawned]
      rfl
    obtain ⟨t, hstep, hgone⟩ := @expire_runs u id { task with spawned := true } group
      (Pool.put_self s.tasks id _) rfl hgroup
    refine ⟨[.spawn id, .expire id group.walk []], t, ?_, hgone⟩
    rw [run, hspawn, bind_some, run, hstep]
    rfl

def visit (ip : String) (port : UInt16) (protocol : Protocol) : GroupEntry :=
  ⟨"https://hooks.example/1".toList, "mc.example:25565".toList, ip.toList, port, protocol⟩

/-- Two connections are grouped, the second before the first has spawned the flush; a third one
has another protocol. -/
def twoVisits : List GroupEvent :=
  [.add 0 .connect (visit "192.0.2.1" 7 .tcp), .add 1 .connect (visit "192.0.2.2" 8 .tcp),
    .spawn 0, .add 2 .connect (visit "192.0.2.1" 9 .udp),
    .expire 0 [("192.0.2.1".toList, [7]), ("192.0.2.2".toList, [8])] []]

end GroupSystem

end FerrumProxy
