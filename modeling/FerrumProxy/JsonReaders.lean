import FerrumProxy.JsValues

/-!
# Reading records from JSON values

A reader turns a JSON value into a value of a type, or refuses it.  Records are read from objects,
one property after the other; properties that are not mentioned are ignored, and a property with a
default may be absent.
-/

namespace Js

variable {α β : Type}

/-- The reader takes the value. -/
def Reads (read : Json → Option α) (json : Json) : Prop := (read json).isSome = true

def IsObject (json : Json) : Prop := ∃ fields, json = .obj fields

/-- A natural number below the bound. -/
def IsNatBelow (bound : Nat) (json : Json) : Prop := ∃ n : Nat, json = .num n ∧ n < bound

def IsU16 : Json → Prop := IsNatBelow 65536

def IsU64 : Json → Prop := IsNatBelow (2 ^ 64)

/-- Each of the properties is absent or as stated. -/
def Fits (specs : List (String × (Json → Prop))) (json : Json) : Prop :=
  ∀ spec ∈ specs, Optional spec.2 (json.get spec.1)

variable {json : Json} {key : String} {P : Json → Prop} {specs : List (String × (Json → Prop))}
  {f : α → Option β} {read : Json → Option α} {default a : α} {values : List α}

@[simp]
theorem fits_nil : Fits [] json ↔ True :=
  iff_of_true (fun _ h => (nomatch h)) trivial

@[simp]
theorem fits_cons : Fits ((key, P) :: specs) json ↔ Optional P (json.get key) ∧ Fits specs json :=
  List.forall_mem_cons

/-! ## Readers -/

def asObject : Json → Option Unit
  | .obj _ => some ()
  | _ => none

def readBool : Json → Option Bool
  | .bool value => some value
  | _ => none

def readNat (bound : Nat) : Json → Option Nat
  | .num value =>
    if isInteger value && decide (0 ≤ value) && decide (value.num.toNat < bound) then
      some value.num.toNat
    else none
  | _ => none

def readU16 (json : Json) : Option UInt16 := (readNat 65536 json).map UInt16.ofNat

def readU64 : Json → Option Nat := readNat (2 ^ 64)

/-- `null` is none. -/
def readOption (read : Json → Option α) : Json → Option (Option α)
  | .null => some none
  | json => (read json).map some

def readList (read : Json → Option α) : Json → Option (List α)
  | .arr items => items.mapM read
  | _ => none

/-- A property that may be absent. -/
def field (read : Json → Option α) (default : α) (json : Json) (key : String) : Option α :=
  match json.get key with
  | none => some default
  | some value => read value

/-! ## What they take -/

theorem isSome_bind {x : Option α} {P Q : Prop} (hx : x.isSome = true ↔ P)
    (hf : ∀ a, (f a).isSome = true ↔ Q) : (x >>= f).isSome = true ↔ P ∧ Q := by
  rw [← hx]
  cases x with
  | none => simp
  | some a => simpa using hf a

theorem isSome_asObject : (asObject json).isSome = true ↔ IsObject json := by
  cases json <;> simp [asObject, IsObject]

theorem isSome_field :
    (field read default json key).isSome = true ↔ Optional (Reads read) (json.get key) := by
  unfold field
  cases json.get key <;> simp [Reads]

/-- One property of a record, and the others. -/
theorem isSome_field_bind (hread : Reads read = P)
    (hf : ∀ a, (f a).isSome = true ↔ Fits specs json) :
    (field read default json key >>= f).isSome = true ↔ Fits ((key, P) :: specs) json := by
  rw [fits_cons, ← hread]
  exact isSome_bind isSome_field hf

theorem isSome_pure_fits : (pure a : Option α).isSome = true ↔ Fits [] json :=
  iff_of_true rfl (fits_nil.mpr trivial)

theorem reads_eq (h : ∀ json, (read json).isSome = true ↔ P json) : Reads read = P :=
  funext (fun json => propext (h json))

@[simp]
theorem reads_bool : Reads readBool = IsBoolean := by
  refine reads_eq (fun json => ?_)
  cases json <;> simp [readBool, IsBoolean]

theorem readNat_num {bound n : Nat} (h : n < bound) : readNat bound (.num n) = some n := by
  have hint : isInteger (n : ℚ) = true := isInteger_iff.mpr ⟨n, rfl⟩
  have hpos : (0 : ℚ) ≤ n := by exact_mod_cast Nat.zero_le n
  have hnum : ((n : ℚ).num).toNat = n := by simp
  simp only [readNat, hint, hpos, hnum, h, decide_true, Bool.and_self, if_true]

theorem reads_nat (bound : Nat) : Reads (readNat bound) = IsNatBelow bound := by
  refine reads_eq (fun json => ⟨fun h => ?_, fun ⟨n, hjson, hn⟩ => ?_⟩)
  · cases json with
    | num value =>
      simp only [readNat, Option.isSome_ite, Bool.and_eq_true, decide_eq_true_eq] at h
      obtain ⟨n, rfl⟩ := exists_nat_of_isInteger h.1.1 h.1.2
      exact ⟨n, rfl, by simpa using h.2⟩
    | _ => cases h
  · rw [hjson, readNat_num hn]
    rfl

@[simp]
theorem reads_u64 : Reads readU64 = IsU64 := reads_nat _

@[simp]
theorem reads_u16 : Reads readU16 = IsU16 := by
  rw [IsU16, ← reads_nat]
  exact reads_eq (fun json => by simp [readU16, Reads])

@[simp]
theorem reads_option (read : Json → Option α) : Reads (readOption read) = NullOr (Reads read) := by
  refine reads_eq (fun json => ?_)
  cases json <;> simp [Reads, readOption, NullOr]

theorem mapM_eq_some {read : β → Option α} {items : List β} :
    items.mapM read = some values ↔ List.Forall₂ (fun item value => read item = some value)
      items values := by
  induction items generalizing values with
  | nil =>
    simp only [List.mapM_nil, Option.pure_def, Option.some.injEq, List.forall₂_nil_left_iff]
    exact eq_comm
  | cons item rest ih =>
    simp only [List.mapM_cons, Option.pure_def, Option.bind_eq_bind, Option.bind_eq_some_iff,
      Option.some.injEq, List.forall₂_cons_left_iff, ih]
    constructor
    · intro ⟨value, hvalue, later, hlater, hvalues⟩
      exact ⟨value, later, hvalue, hlater, hvalues.symm⟩
    · intro ⟨value, later, hvalue, hlater, hvalues⟩
      exact ⟨value, hvalue, later, hlater, hvalues.symm⟩

theorem isSome_mapM {items : List Json} :
    (items.mapM read).isSome = true ↔ ∀ item ∈ items, Reads read item := by
  induction items with
  | nil => simp
  | cons item rest ih =>
    rw [List.mapM_cons, List.forall_mem_cons, ← ih]
    refine isSome_bind Iff.rfl (fun value => ?_)
    cases rest.mapM read <;> simp

/-- A list can be read if each item can. -/
@[simp]
theorem reads_list (read : Json → Option α) : Reads (readList read) = IsArrayOf (Reads read) := by
  refine reads_eq (fun json => ?_)
  cases json with
  | arr items =>
    refine isSome_mapM.trans ?_
    simp [IsArrayOf]
  | _ => simp [readList, IsArrayOf]

/-! ## What was read -/

/-- The default, or what the field has. -/
theorem field_eq_some {value : α} (h : field read default json key = some value) :
    (json.get key = none ∧ value = default) ∨
      ∃ inner, json.get key = some inner ∧ read inner = some value := by
  unfold field at h
  cases hget : json.get key with
  | none =>
    rw [hget] at h
    exact .inl ⟨rfl, (Option.some.inj h).symm⟩
  | some inner =>
    rw [hget] at h
    exact .inr ⟨inner, rfl, h⟩

theorem readList_eq_some (h : readList read json = some values) :
    ∃ items, json = .arr items ∧
      List.Forall₂ (fun item value => read item = some value) items values := by
  cases json with
  | arr items => exact ⟨items, rfl, mapM_eq_some.mp h⟩
  | _ => cases h

theorem field_congr {b : α} {other : Json} (ha : field read default json key = some a)
    (hb : field read default other key = some b) (hsame : other.get key = json.get key) :
    a = b := by
  unfold field at ha hb
  rw [hsame, ha] at hb
  exact Option.some.inj hb

theorem lists_of_read {α : Type} {read : Json → Option α} (step : Value → Except TypeError Value)
    (hnone : step none = .ok none)
    (harray : ∀ items result, step (some (.arr items)) = .ok result →
      ∃ items', result = some (.arr items')) {written : Json}
    (h : step (json.get key) = .ok (written.get key)) {before after : List α}
    (hbefore : field (readList read) [] json key = some before)
    (hafter : field (readList read) [] written key = some after) :
    before = [] ∧ after = [] ∨
      ∃ items items', json.get key = some (.arr items) ∧
        step (some (.arr items)) = .ok (some (.arr items')) ∧
        List.Forall₂ (fun item value => read item = some value) items before ∧
        List.Forall₂ (fun item value => read item = some value) items' after := by
  rcases field_eq_some hbefore with ⟨hget, hnil⟩ | ⟨inner, hget, hread⟩
  · rw [hget, hnone] at h
    rcases field_eq_some hafter with ⟨_, hnil'⟩ | ⟨inner, hget', _⟩
    · exact .inl ⟨hnil, hnil'⟩
    · rw [← Except.ok.inj h] at hget'
      cases hget'
  · obtain ⟨items, rfl, hitems⟩ := readList_eq_some hread
    rw [hget] at h
    obtain ⟨items', hwritten⟩ := harray items _ h
    rw [hwritten] at h
    rcases field_eq_some hafter with ⟨hnone', _⟩ | ⟨inner, hget', hread'⟩
    · rw [hwritten] at hnone'
      cases hnone'
    · rw [hwritten] at hget'
      obtain rfl := Option.some.inj hget'
      obtain ⟨_, heq, hitems'⟩ := readList_eq_some hread'
      obtain rfl := Json.arr.inj heq
      exact .inr ⟨items, items', hget, h, hitems, hitems'⟩

end Js
