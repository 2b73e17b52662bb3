import FerrumProxy.Histories
import FerrumProxy.TextStrings

/-!
# The list of players

`TimestampPlayerMapper` keeps the players that the management API was told of in a map whose keys
are the timestamps of the logins.  A logout walks the map in whatever order the hash map has, and
removes the first entry of that user whose login is less than half a minute away from it.
Timestamps are 64-bit integers with wrapping arithmetic, as in a release build.
-/

namespace FerrumProxy

open Str Runs List

/-- `TIMESTAMP_TOLERANCE_MS`. -/
def timestampToleranceMs : Int64 := 30000

/-- Timestamps that a logout and a login may have to belong together. -/
def near (existing timestamp : Int64) : Bool :=
  decide ((existing - timestamp).abs < timestampToleranceMs)

abbrev TimestampPlayerMapper := AList (fun _ : Int64 => Text × Int64)

namespace TimestampPlayerMapper

/-- An entry of the map, as an iteration meets it. -/
abbrev Entry := Sigma (fun _ : Int64 => Text × Int64)

def registerLogin (players : TimestampPlayerMapper) (timestamp : Int64) (username : Text) :
    TimestampPlayerMapper :=
  players.insert timestamp (username, timestamp)

/-- The entry belongs to the user and is near the logout. -/
def isFor (timestamp : Int64) (username : Text) (entry : Entry) : Bool :=
  entry.2.1 == username && near entry.2.2 timestamp

/-- `register_logout`, which meets the entries of the map in the order of the walk. -/
def registerLogout (players : TimestampPlayerMapper) (walk : List Entry) (timestamp : Int64)
    (username : Text) : TimestampPlayerMapper :=
  match walk.find? (isFor timestamp username) with
  | some entry => players.erase entry.1
  | none => players

/-- `all_players`, up to the order of the map. -/
def allPlayers (players : TimestampPlayerMapper) : List (Text × Int64) :=
  players.entries.map Sigma.snd

end TimestampPlayerMapper

/-- What the management API is told. -/
inductive PlayerEvent where
  | login (timestamp : Int64) (username : Text)
  | logout (timestamp : Int64) (username : Text)
  deriving DecidableEq

/-- The login or logout that the event is for a user; a login with its time. -/
def PlayerEvent.seenBy (username : Text) : PlayerEvent → Option (Option Int64)
  | .login timestamp name => if name = username then some (some timestamp) else none
  | .logout _ name => if name = username then some none else none

/-- The time of the user's latest event, if it is a login. -/
def lastLogin (events : List PlayerEvent) (username : Text) : Option Int64 :=
  lastOf (PlayerEvent.seenBy username) none events

/-- The map together with the events so far. -/
structure PlayerLog where
  players : TimestampPlayerMapper := ∅
  events : List PlayerEvent := []

/-- A call of the management API, with the order in which a logout walks the map. -/
inductive PlayerCall where
  | login (timestamp : Int64) (username : Text)
  | logout (timestamp : Int64) (username : Text) (walk : List TimestampPlayerMapper.Entry)

namespace PlayerLog

open TimestampPlayerMapper

def step (s : PlayerLog) : PlayerCall → Option PlayerLog
  | .login timestamp username =>
    some ⟨s.players.registerLogin timestamp username, s.events ++ [.login timestamp username]⟩
  | .logout timestamp username walk =>
    if walk.Perm s.players.entries then
      some ⟨s.players.registerLogout walk timestamp username,
        s.events ++ [.logout timestamp username]⟩
    else none

/-- Each user whose latest event is a login is listed once, and nobody else is. -/
def Right (s : PlayerLog) : Prop :=
  ∀ username, (s.players.allPlayers.map Prod.fst).count username =
    if (lastLogin s.events username).isSome then 1 else 0

/-- A login is the user's only one and does not have the time of another player's; a logout
comes soon after the login. -/
def Fitting (s : PlayerLog) : PlayerCall → Prop
  | .login timestamp username =>
    (∀ other, lastLogin s.events other = some timestamp → other = username) ∧
      ∀ earlier, lastLogin s.events username = some earlier → earlier = timestamp
  | .logout timestamp username _ =>
    ∀ earlier, lastLogin s.events username = some earlier → near earlier timestamp = true

/-- The entries are the latest logins. -/
def Tracks (s : PlayerLog) : Prop :=
  ∀ key value, s.players.lookup key = some value ↔
    value.2 = key ∧ lastLogin s.events value.1 = some key

variable {s t : PlayerLog} {timestamp : Int64} {username other : Text}

theorem lastLogin_snoc (events : List PlayerEvent) (event : PlayerEvent) (username : Text) :
    lastLogin (events ++ [event]) username =
      (event.seenBy username).getD (lastLogin events username) :=
  lastOf_snoc _ _ _ _

@[simp]
theorem lastLogin_login (events : List PlayerEvent) :
    lastLogin (events ++ [.login timestamp username]) other =
      if username = other then some timestamp else lastLogin events other := by
  rw [lastLogin_snoc, PlayerEvent.seenBy]
  split <;> rfl

@[simp]
theorem lastLogin_logout (events : List PlayerEvent) :
    lastLogin (events ++ [.logout timestamp username]) other =
      if username = other then none else lastLogin events other := by
  rw [lastLogin_snoc, PlayerEvent.seenBy]
  split <;> rfl

/-! ## Entries and names -/

theorem count_name (players : TimestampPlayerMapper) (username : Text) :
    (players.allPlayers.map Prod.fst).count username =
      players.entries.countP (fun entry => entry.2.1 == username) := by
  rw [allPlayers, map_map, count, countP_map]
  rfl

variable {players : TimestampPlayerMapper} {walk : List Entry} {call : PlayerCall}

/-- The name of a user with one entry is listed once. -/
theorem count_eq_one {key : Int64} {value : Text × Int64}
    (hlookup : players.lookup key = some value)
    (hone : ∀ other found, players.lookup other = some found → found.1 = value.1 → other = key) :
    (players.allPlayers.map Prod.fst).count value.1 = 1 := by
  have hmem : (⟨key, value⟩ : Entry) ∈ players.entries := AList.mem_lookup_iff.mp hlookup
  have hsame : players.entries.countP (fun entry => entry.2.1 == value.1) =
      players.entries.count ⟨key, value⟩ := by
    refine countP_congr ?_
    intro entry hentry
    have hentry : players.lookup entry.1 = some entry.2 := AList.mem_lookup_iff.mpr hentry
    simp only [beq_iff_eq]
    constructor
    · intro hname
      obtain ⟨other, found⟩ := entry
      cases hone other found hentry hname
      cases hlookup.symm.trans hentry
      rfl
    · intro heq
      rw [heq]
  rw [count_name, hsame]
  exact count_eq_one_of_mem players.nodupKeys.nodup hmem

/-- The name of a user with two entries is listed more than once. -/
theorem two_le_count {first second : Int64} {one two : Text × Int64}
    (hone : players.lookup first = some one) (htwo : players.lookup second = some two)
    (hne : first ≠ second) (hname : two.1 = one.1) :
    2 ≤ (players.allPlayers.map Prod.fst).count one.1 := by
  have hsub : Subperm [(⟨first, one⟩ : Entry), ⟨second, two⟩] players.entries := by
    refine subperm_of_subset ?_ ?_
    · simpa using fun h => absurd h hne
    · intro entry hentry
      rcases mem_pair.mp hentry with rfl | rfl
      · exact AList.mem_lookup_iff.mp hone
      · exact AList.mem_lookup_iff.mp htwo
  have hcount := hsub.countP_le (fun entry => entry.2.1 == one.1)
  rw [count_name]
  simpa [hname] using hcount

theorem count_eq_zero (h : ∀ key value, players.lookup key = some value → value.1 ≠ username) :
    (players.allPlayers.map Prod.fst).count username = 0 := by
  rw [count_name, countP_eq_zero]
  intro entry hentry
  simpa using h entry.1 entry.2 (AList.mem_lookup_iff.mpr hentry)

theorem Tracks.right (h : s.Tracks) : s.Right := by
  intro username
  cases hlast : lastLogin s.events username with
  | none =>
    refine count_eq_zero ?_
    intro key value hlookup hname
    rw [hname.symm, ((h key value).mp hlookup).2] at hlast
    cases hlast
  | some key =>
    have hlookup : s.players.lookup key = some (username, key) := (h _ _).mpr ⟨rfl, hlast⟩
    refine count_eq_one hlookup ?_
    intro other found hfound hname
    have hother := ((h other found).mp hfound).2
    rw [hname, hlast] at hother
    exact (Option.some.inj hother).symm

/-! ## One event -/

theorem lookup_registerLogin (players : TimestampPlayerMapper) (key : Int64) :
    (players.registerLogin timestamp username).lookup key =
      if key = timestamp then some (username, timestamp) else players.lookup key := by
  split
  · next h =>
    rw [h]
    exact AList.lookup_insert players
  · next h => exact AList.lookup_insert_ne h

theorem Tracks.login (h : s.Tracks) (hfits : s.Fitting (.login timestamp username)) :
    Tracks ⟨s.players.registerLogin timestamp username,
      s.events ++ [.login timestamp username]⟩ := by
  intro key value
  obtain ⟨hother, hown⟩ := hfits
  have hold := h key value
  have htime := hother value.1
  rw [lookup_registerLogin, lastLogin_login]
  grind

theorem Tracks.login_wrong (h : s.Tracks) (hnot : ¬ s.Fitting (.login timestamp username)) :
    ¬ Right ⟨s.players.registerLogin timestamp username,
      s.events ++ [.login timestamp username]⟩ := by
  intro hright
  have hkeep : ∀ key, key ≠ timestamp →
      (s.players.registerLogin timestamp username).lookup key = s.players.lookup key := by
    intro key hkey
    rw [lookup_registerLogin, if_neg hkey]
  refine hnot ⟨fun other hlast => ?_, fun earlier hlast => ?_⟩
  · -- the entry of another player with the same time would be overwritten
    by_contra hne
    have hcount := hright other
    rw [lastLogin_login, if_neg (Ne.symm hne), hlast, count_eq_zero] at hcount
    · cases hcount
    · intro key value hlookup hname
      by_cases hkey : key = timestamp
      · subst hkey
        rw [lookup_registerLogin, if_pos rfl] at hlookup
        cases hlookup
        exact hne hname.symm
      · have hlogin := ((h key value).mp ((hkeep key hkey).symm.trans hlookup)).2
        rw [hname, hlast] at hlogin
        exact hkey (Option.some.inj hlogin).symm
  · -- an earlier login of the same user would stay
    by_contra hne
    have hcount := hright username
    have htwo := @two_le_count (s.players.registerLogin timestamp username) timestamp earlier
      (username, timestamp) (username, earlier)
      (by rw [lookup_registerLogin, if_pos rfl])
      ((hkeep earlier hne).trans ((h _ _).mpr ⟨rfl, hlast⟩)) (Ne.symm hne) rfl
    rw [lastLogin_login, if_pos rfl] at hcount
    exact absurd (hcount ▸ htwo) (by simp)

section

variable (h : s.Tracks) (hwalk : walk.Perm s.players.entries)

include h hwalk

theorem Tracks.isFor_iff {entry : Entry} (hentry : entry ∈ walk) :
    isFor timestamp username entry = true ↔
      lastLogin s.events username = some entry.1 ∧ near entry.1 timestamp = true := by
  have hlookup : s.players.lookup entry.1 = some entry.2 :=
    AList.mem_lookup_iff.mpr (hwalk.mem_iff.mp hentry)
  obtain ⟨htime, hlast⟩ := (h _ _).mp hlookup
  rw [isFor, Bool.and_eq_true, beq_iff_eq, htime]
  refine and_congr_left (fun _ => ?_)
  constructor
  · intro hname
    exact hname ▸ hlast
  · intro hlogin
    have hsame := (h entry.1 (username, entry.1)).mpr ⟨rfl, hlogin⟩
    exact congrArg Prod.fst (Option.some.inj (hlookup.symm.trans hsame))

/-- A logout soon after the login removes the user's entry, in whatever order it looks. -/
theorem Tracks.registerLogout_near {earlier : Int64}
    (hlast : lastLogin s.events username = some earlier) (hnear : near earlier timestamp = true) :
    s.players.registerLogout walk timestamp username = s.players.erase earlier := by
  have hmem : (⟨earlier, (username, earlier)⟩ : Entry) ∈ walk :=
    hwalk.mem_iff.mpr (AList.mem_lookup_iff.mp ((h _ _).mpr ⟨rfl, hlast⟩))
  have hsome : (walk.find? (isFor timestamp username)).isSome = true :=
    find?_isSome.mpr ⟨_, hmem, (h.isFor_iff hwalk hmem).mpr ⟨hlast, hnear⟩⟩
  obtain ⟨entry, hentry⟩ := Option.isSome_iff_exists.mp hsome
  have hfor := (h.isFor_iff hwalk (mem_of_find?_eq_some hentry)).mp (find?_some hentry)
  have hkey : entry.1 = earlier := Option.some.inj (hfor.1.symm.trans hlast)
  rw [registerLogout, hentry]
  exact congrArg s.players.erase hkey

/-- Any other logout removes nothing. -/
theorem Tracks.registerLogout_far
    (hfar : ∀ earlier, lastLogin s.events username = some earlier → near earlier timestamp = false) :
    s.players.registerLogout walk timestamp username = s.players := by
  have hnone : walk.find? (isFor timestamp username) = none := by
    refine find?_eq_none.mpr ?_
    intro entry hentry hfor
    obtain ⟨hlast, hnear⟩ := (h.isFor_iff hwalk hentry).mp hfor
    exact nomatch (hfar _ hlast).symm.trans hnear
  rw [registerLogout, hnone]

theorem Tracks.logout (hfits : s.Fitting (.logout timestamp username walk)) :
    Tracks ⟨s.players.registerLogout walk timestamp username,
      s.events ++ [.logout timestamp username]⟩ := by
  intro key value
  have hold := h key value
  rw [lastLogin_logout]
  cases hlast : lastLogin s.events username with
  | none =>
    rw [h.registerLogout_far hwalk (fun _ hsome => nomatch hlast.symm.trans hsome)]
    grind
  | some earlier =>
    rw [h.registerLogout_near hwalk hlast (hfits earlier hlast)]
    have hown := h earlier value
    have hlogin := h earlier (username, earlier)
    by_cases hkey : key = earlier
    · subst hkey
      rw [AList.lookup_erase]
      grind
    · rw [AList.lookup_erase_ne hkey]
      grind

theorem Tracks.logout_wrong (hnot : ¬ s.Fitting (.logout timestamp username walk)) :
    ¬ Right ⟨s.players.registerLogout walk timestamp username,
      s.events ++ [.logout timestamp username]⟩ := by
  intro hright
  refine hnot (fun earlier hlast => ?_)
  by_contra hfar
  have hkept : s.players.registerLogout walk timestamp username = s.players := by
    refine h.registerLogout_far hwalk ?_
    intro other hother
    cases hlast.symm.trans hother
    simpa using hfar
  -- the user is still listed, as before
  have hcount := hright username
  rw [hkept, h.right username, hlast, lastLogin_logout, if_pos rfl] at hcount
  cases hcount

end

theorem tracks_initial : Tracks {} := by
  intro key value
  constructor
  · intro hlookup
    cases hlookup
  · intro hlast
    cases hlast.2

theorem Tracks.step (h : s.Tracks) (hfits : s.Fitting call) (hstep : s.step call = some t) :
    t.Tracks := by
  cases call with
  | login timestamp username =>
    cases hstep
    exact h.login hfits
  | logout timestamp username walk =>
    obtain ⟨hwalk, hstep⟩ := Option.ite_none_right_eq_some.mp hstep
    cases hstep
    exact h.logout hwalk hfits

theorem Tracks.step_wrong (h : s.Tracks) (hnot : ¬ s.Fitting call) (hstep : s.step call = some t) :
    ¬ t.Right := by
  cases call with
  | login timestamp username =>
    cases hstep
    exact h.login_wrong hnot
  | logout timestamp username walk =>
    obtain ⟨hwalk, hstep⟩ := Option.ite_none_right_eq_some.mp hstep
    cases hstep
    exact h.logout_wrong hwalk hnot

end PlayerLog

open PlayerLog

/-- **When the list of players is right.**  After every beginning of a history the list names the
users whose latest event is a login, each once, exactly when every event fits those before it. -/
theorem players_right_iff {calls : List PlayerCall} {s : PlayerLog}
    (hrun : run PlayerLog.step {} calls = some s) :
    (∀ n t, run PlayerLog.step {} (calls.take n) = some t → t.Right) ↔
      Guarded PlayerLog.step Fitting {} calls :=
  guarded_iff_prefixes tracks_initial (fun _ h => h.right) (fun _ _ _ h => h.step)
    (fun _ _ _ h => h.step_wrong) hrun

/-- A player comes and goes within half a minute, and another one comes. -/
def shortVisit : List PlayerCall :=
  [.login 0 "alex".toList, .logout 20000 "alex".toList [⟨0, ("alex".toList, 0)⟩],
    .login 20000 "steve".toList]

/-- The list is right after a visit that ends in time. -/
theorem players_right_after_short_visit :
    ∃ s, run PlayerLog.step {} shortVisit = some s ∧ s.Right := by
  have hnobody : ∀ other,
      lastLogin ([.login 0 "alex".toList] ++ [.logout 20000 "alex".toList]) other = none := by
    intro other
    rw [lastLogin_logout, ← nil_append [_], lastLogin_login]
    split <;> rfl
  refine ⟨_, rfl, (@players_right_iff shortVisit _ rfl).mpr ⟨⟨nofun, nofun⟩, ?_, ⟨?_, ?_⟩, trivial⟩
    3 _ rfl⟩
  · intro earlier hlast
    cases hlast
    decide
  · intro other hlast
    exact nomatch (hnobody other).symm.trans hlast
  · intro earlier hlast
    exact nomatch (hnobody _).symm.trans hlast

/-- A logout after a minute finds no login. -/
theorem player_stays :
    ∃ s, run PlayerLog.step {}
        [.login 0 "alex".toList, .logout 60000 "alex".toList [⟨0, ("alex".toList, 0)⟩]] = some s ∧
      s.players.allPlayers = [("alex".toList, 0)] ∧ lastLogin s.events "alex".toList = none :=
  ⟨_, rfl, rfl, rfl⟩

end FerrumProxy
