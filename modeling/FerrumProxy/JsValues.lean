import FerrumProxy.ByteStrings
import FerrumProxy.TextStrings

/-!
# JSON values as JavaScript handles them

A program in JavaScript reads properties of values that may be anything: of `undefined` and `null`
that throws, of other values without the property it gives `undefined`.  A validator that collects
messages is a list of checks.
-/

namespace Js

open Str

/-- Property keys: array indices and names. -/
inductive Key where
  | name (text : String)
  | index (i : Nat)
  deriving DecidableEq

/-- JSON values. -/
inductive Json where
  | null
  | bool (value : Bool)
  | num (value : ℚ)
  | str (text : Text)
  | arr (items : List Json)
  | obj (fields : List (Key × Json))

/-- The properties of an object. -/
abbrev Fields := List (Key × Json)

/-- A JSON value, or `undefined`. -/
abbrev Value := Option Json

/-- What is thrown when `undefined` or `null` has no properties, or when something is
called that is no function. -/
structure TypeError where
  deriving DecidableEq

/-! ## Properties -/

/-- The property of an object. -/
def Fields.get (fields : Fields) (name : String) : Value := fields.lookup (.name name)

/-- The named properties of a value; only objects have any. -/
def Json.fields : Json → Fields
  | .obj fields => fields
  | _ => []

def Json.get (json : Json) (name : String) : Value := Fields.get json.fields name

/-- `value.name`. -/
def prop (value : Value) (name : String) : Except TypeError Value :=
  match value with
  | none => .error ⟨⟩
  | some .null => .error ⟨⟩
  | some json => .ok (json.get name)

/-- The own properties, as `...value` takes them. -/
def spread : Value → Fields
  | some (.obj fields) => fields
  | some (.arr items) => items.mapIdx (fun i item => (.index i, item))
  | some (.str text) => text.mapIdx (fun i c => (.index i, .str [c]))
  | _ => []

/-- Set a property; setting it to `undefined` amounts to removing it. -/
def Fields.set (fields : Fields) (name : String) (value : Value) : Fields :=
  (value.map (fun json => (Key.name name, json))).toList ++
    fields.filter (fun field => field.1 != .name name)

variable {json : Json} {name : String} {value result : Value} {fields : Fields}
  {updates : List (String × Value)} {P : Json → Prop} {items : List Json} {α : Type}

theorem prop_eq_ok : prop (some json) name = .ok value ↔ json ≠ .null ∧ json.get name = value := by
  cases json <;> simp [prop]

theorem prop_of_ne_null (h : json ≠ .null) (name : String) :
    prop (some json) name = .ok (json.get name) :=
  prop_eq_ok.mpr ⟨h, rfl⟩

open List

theorem lookup_filter_ne {key other : Key} (hne : key ≠ other) :
    (fields.filter (fun field => field.1 != other)).lookup key = fields.lookup key := by
  induction fields with
  | nil => rfl
  | cons field rest ih =>
    obtain ⟨k, json⟩ := field
    by_cases hk : k = other
    · have hkey : (key == k) = false := beq_false_of_ne (hk ▸ hne)
      simp [hk ▸ hkey, hk, lookup_cons, ih]
    · simp [hk, lookup_cons, ih]

theorem lookup_filter_self (fields : Fields) (key : Key) :
    (fields.filter (fun field => field.1 != key)).lookup key = none := by
  rw [lookup_eq_none_iff]
  intro field hfield
  have hne : field.1 ≠ key := bne_iff_ne.mp (mem_filter.mp hfield).2
  exact bne_iff_ne.mpr hne.symm

@[simp]
theorem get_set_self (fields : Fields) (name : String) (value : Value) :
    (fields.set name value).get name = value := by
  unfold Fields.get Fields.set
  cases value with
  | none => exact lookup_filter_self fields _
  | some json => simp

theorem get_set_ne (fields : Fields) {other : String} (value : Value) (hne : name ≠ other) :
    (fields.set other value).get name = fields.get name := by
  have hkey : Key.name name ≠ Key.name other := fun h => hne (Key.name.inj h)
  unfold Fields.get Fields.set
  cases value with
  | none => exact lookup_filter_ne hkey
  | some json =>
    have hbeq : (Key.name name == Key.name other) = false := beq_false_of_ne hkey
    simp only [Option.map_some, Option.toList_some, singleton_append, lookup_cons, hbeq]
    exact lookup_filter_ne hkey

theorem lookup_indices (h : ∀ field ∈ fields, ∃ i, field.1 = .index i) (name : String) :
    fields.lookup (.name name) = none := by
  rw [lookup_eq_none_iff]
  intro field hfield
  obtain ⟨i, hi⟩ := h field hfield
  simp [hi]

/-- Spreading keeps the named properties. -/
@[simp]
theorem get_spread (json : Json) (name : String) :
    Fields.get (spread (some json)) name = json.get name := by
  cases json with
  | obj | null | bool | num => rfl
  | arr | str =>
    refine lookup_indices (fun field hfield => ?_) name
    obtain ⟨i, hi, rfl⟩ := mem_mapIdx.mp hfield
    exact ⟨i, rfl⟩

/-- The properties of `{ ...fields, name: value, … }`. -/
def assign (fields : Fields) (updates : List (String × Value)) : Fields :=
  updates.foldl (fun fields update => fields.set update.1 update.2) fields

/-- `{ ...json, name: value, … }`. -/
def withProps (json : Json) (updates : List (String × Value)) : Json :=
  .obj (assign (spread (some json)) updates)

theorem get_assign_of_notMem (h : name ∉ updates.map Prod.fst) (fields : Fields) :
    (assign fields updates).get name = fields.get name := by
  induction updates generalizing fields with
  | nil => rfl
  | cons update rest ih =>
    rw [map_cons, mem_cons, not_or] at h
    exact (ih h.2 _).trans (get_set_ne fields update.2 h.1)

theorem get_assign_of_mem (hnodup : (updates.map Prod.fst).Nodup) (h : (name, value) ∈ updates)
    (fields : Fields) : (assign fields updates).get name = value := by
  induction updates generalizing fields with
  | nil => cases h
  | cons update rest ih =>
    rw [map_cons, nodup_cons] at hnodup
    rcases mem_cons.mp h with rfl | hrest
    · exact (get_assign_of_notMem hnodup.1 _).trans (get_set_self fields name value)
    · exact ih hnodup.2 hrest _

/-- Properties that are not listed are kept. -/
theorem get_withProps_of_notMem (h : name ∉ updates.map Prod.fst) (json : Json) :
    (withProps json updates).get name = json.get name :=
  (get_assign_of_notMem h _).trans (get_spread json name)

/-- Properties that are listed are set. -/
theorem get_withProps_of_mem (hnodup : (updates.map Prod.fst).Nodup) (h : (name, value) ∈ updates)
    (json : Json) : (withProps json updates).get name = value :=
  get_assign_of_mem hnodup h _

/-! ## Values -/

def truthy : Value → Bool
  | none => false
  | some .null => false
  | some (.bool value) => value
  | some (.num value) => value != 0
  | some (.str text) => !text.isEmpty
  | some (.arr _) => true
  | some (.obj _) => true

def isBoolean : Json → Bool
  | .bool _ => true
  | _ => false

def isString : Json → Bool
  | .str _ => true
  | _ => false

/-- `Number.isInteger`, on a number. -/
def isInteger (value : ℚ) : Bool := value.den == 1

/-- `===`; arrays and objects of a document are never the same one. -/
def strictEq : Value → Value → Bool
  | none, none => true
  | some .null, some .null => true
  | some (.bool a), some (.bool b) => a == b
  | some (.num a), some (.num b) => a == b
  | some (.str a), some (.str b) => a == b
  | _, _ => false

def IsText (json : Json) : Prop := ∃ text, json = .str text

def IsBoolean (json : Json) : Prop := ∃ value, json = .bool value

/-- An array with items that have the property. -/
def IsArrayOf (P : Json → Prop) (json : Json) : Prop :=
  ∃ items, json = .arr items ∧ ∀ item ∈ items, P item

def NullOr (P : Json → Prop) (json : Json) : Prop := json = .null ∨ P json

theorem isInteger_iff {value : ℚ} : isInteger value = true ↔ ∃ n : Int, value = n := by
  unfold isInteger
  rw [beq_iff_eq]
  constructor
  · intro h
    exact ⟨value.num, (Rat.coe_int_num_of_den_eq_one h).symm⟩
  · intro ⟨n, hn⟩
    rw [hn]
    rfl

theorem exists_nat_of_isInteger {value : ℚ} (h : isInteger value = true) (hpos : 0 ≤ value) :
    ∃ n : Nat, value = n := by
  obtain ⟨n, rfl⟩ := isInteger_iff.mp h
  have hn : 0 ≤ n := by exact_mod_cast hpos
  refine ⟨n.toNat, ?_⟩
  exact_mod_cast (Int.toNat_of_nonneg hn).symm

/-- White space of `String.prototype.trim`. -/
def isWhitespace (c : Char) : Bool :=
  (Str.isWhitespace c && c.toNat != 0x85) || c.toNat == 0xfeff

/-- `String.prototype.trim`. -/
def trim (text : Text) : Text := (text.dropWhile isWhitespace).rdropWhile isWhitespace

theorem trim_eq_self {text : Text} (h : ∀ c ∈ text, isWhitespace c = false) : trim text = text := by
  have hhead : text.dropWhile isWhitespace = text :=
    dropWhile_eq_self_of_head (fun c hc => by simp [h c (mem_of_mem_head? hc)])
  rw [trim, hhead]
  exact rdropWhile_eq_self_of_last (fun c hc => by simp [h c (mem_of_mem_getLast? hc)])

/-- `value.trim()`. -/
def callTrim : Value → Except TypeError Text
  | some (.str text) => .ok (trim text)
  | _ => .error ⟨⟩

/-- `value?.trim()`. -/
def optTrim : Value → Except TypeError Value
  | none => .ok none
  | some .null => .ok none
  | value => (callTrim value).map (fun text => some (.str text))

/-- `value?.trim() || undefined`. -/
def trimmed (value : Value) : Except TypeError Value :=
  (optTrim value).map (fun result => if truthy result then result else none)

/-- `value?.map(f)`. -/
def optMap (f : Json → Except TypeError Json) : Value → Except TypeError Value
  | none => .ok none
  | some .null => .ok none
  | some (.arr items) => do
      let mapped ← items.mapM f
      return some (.arr mapped)
  | _ => .error ⟨⟩

/-- The value is `undefined` or has the property. -/
def Optional (P : Json → Prop) (value : Value) : Prop := ∀ json, value = some json → P json

@[simp]
theorem optional_none : Optional P none := fun _ h => (nomatch h)

@[simp]
theorem optional_some : Optional P (some json) ↔ P json :=
  ⟨fun h => h json rfl, fun h _ heq => Option.some.inj heq ▸ h⟩

theorem callTrim_eq_ok {result : Text} (h : callTrim value = .ok result) :
    ∃ text, value = some (.str text) ∧ result = trim text := by
  cases value with
  | none => cases h
  | some json =>
    cases json with
    | str text => exact ⟨text, rfl, (Except.ok.inj h).symm⟩
    | _ => cases h

theorem callTrim_of_ne_str (h : ∀ text, value ≠ some (.str text)) : callTrim value = .error ⟨⟩ := by
  cases value with
  | none => rfl
  | some json =>
    cases json with
    | str text => exact absurd rfl (h text)
    | _ => rfl

theorem optTrim_eq_ok (h : optTrim value = .ok result) :
    Optional (NullOr IsText) value ∧ Optional IsText result := by
  cases value with
  | none =>
    cases h
    simp
  | some json =>
    cases json with
    | null =>
      cases h
      simp [NullOr]
    | str text =>
      cases h
      simp [NullOr, IsText]
    | _ => cases h

theorem trimmed_eq_ok (h : trimmed value = .ok result) :
    Optional (NullOr IsText) value ∧ Optional IsText result := by
  unfold trimmed at h
  cases htrim : optTrim value with
  | error e =>
    rw [htrim] at h
    cases h
  | ok inner =>
    rw [htrim] at h
    obtain ⟨hvalue, hinner⟩ := optTrim_eq_ok htrim
    refine ⟨hvalue, ?_⟩
    cases h
    dsimp only
    split
    · exact hinner
    · exact optional_none

/-- What counts as false has no properties. -/
theorem get_of_not_truthy (h : truthy (some json) = false) (name : String) :
    json.get name = none := by
  cases json with
  | obj fields => cases h
  | _ => rfl

theorem ne_null_of_truthy (h : truthy (some json) = true) : json ≠ .null := by
  intro hnull
  rw [hnull] at h
  cases h

/-! ## Arrays -/

/-- `items.filter(keep)`. -/
def filterItems (keep : Json → Except TypeError Bool) : List Json → Except TypeError (List Json)
  | [] => .ok []
  | item :: rest => do
      let kept ← keep item
      let later ← filterItems keep rest
      return if kept then item :: later else later

/-- What a predicate answers, if it does. -/
def holds : Except TypeError Bool → Bool
  | .ok value => value
  | .error _ => false

/-- No item throws, and those that hold are kept. -/
theorem filterItems_eq_ok {keep : Json → Except TypeError Bool} {kept : List Json} :
    filterItems keep items = .ok kept ↔
      (∀ item ∈ items, ∃ value, keep item = .ok value) ∧
        kept = items.filter (fun item => holds (keep item)) := by
  induction items generalizing kept with
  | nil => simp [filterItems, eq_comm]
  | cons item rest ih =>
    rw [filterItems, Wire.bind_eq_ok, forall_mem_cons]
    constructor
    · intro ⟨value, hvalue, hrest⟩
      obtain ⟨later, hlater, heq⟩ := Wire.bind_eq_ok.mp hrest
      obtain ⟨hall, rfl⟩ := ih.mp hlater
      refine ⟨⟨⟨value, hvalue⟩, hall⟩, ?_⟩
      rw [← Except.ok.inj heq, filter_cons, hvalue]
      rfl
    · intro ⟨⟨⟨value, hvalue⟩, hall⟩, hkept⟩
      refine ⟨value, hvalue, ?_⟩
      rw [ih.mpr ⟨hall, rfl⟩, hkept, filter_cons, hvalue]
      rfl

theorem mapM_eq_ok {f : Json → Except TypeError α} {mapped : List α} :
    items.mapM f = .ok mapped ↔ Forall₂ (fun item value => f item = .ok value) items mapped := by
  induction items generalizing mapped with
  | nil =>
    rw [mapM_nil, forall₂_nil_left_iff]
    exact ⟨fun h => (Except.ok.inj h).symm, fun h => h ▸ rfl⟩
  | cons item rest ih =>
    rw [mapM_cons, Wire.bind_eq_ok, forall₂_cons_left_iff]
    constructor
    · intro ⟨value, hvalue, hrest⟩
      obtain ⟨later, hlater, heq⟩ := Wire.bind_eq_ok.mp hrest
      exact ⟨value, later, hvalue, ih.mp hlater, (Except.ok.inj heq).symm⟩
    · intro ⟨value, later, hvalue, hlater, heq⟩
      refine ⟨value, hvalue, ?_⟩
      rw [ih.mpr hlater, heq]
      rfl

theorem exists_of_forall₂_right {β : Type} {R : α → β → Prop} {xs : List α} {ys : List β}
    (h : Forall₂ R xs ys) {y : β} (hy : y ∈ ys) : ∃ x ∈ xs, R x y := by
  induction h with
  | nil => cases hy
  | cons hfirst _ ih =>
    rcases mem_cons.mp hy with rfl | hrest
    · exact ⟨_, mem_cons_self, hfirst⟩
    · obtain ⟨x, hx, hR⟩ := ih hrest
      exact ⟨x, mem_cons_of_mem _ hx, hR⟩

/-! ## Checks that collect messages -/

abbrev Check := Except TypeError (List String)

def errorIf (condition : Bool) (message : String) : List String :=
  if condition then [message] else []

@[simp]
theorem errorIf_eq_nil {condition : Bool} {message : String} :
    errorIf condition message = [] ↔ condition = false := by
  cases condition <;> simp [errorIf]

/-- One check after the other; the messages are put together. -/
def allChecks : List Check → Check
  | [] => .ok []
  | check :: rest => do
      let first ← check
      let later ← allChecks rest
      return first ++ later

/-- **Nothing is reported if and only if every check passes.** -/
theorem allChecks_eq_nil {checks : List Check} :
    allChecks checks = .ok [] ↔ ∀ check ∈ checks, check = .ok [] := by
  induction checks with
  | nil => simp [allChecks]
  | cons check rest ih =>
    rw [forall_mem_cons, ← ih, allChecks, Wire.bind_eq_ok]
    constructor
    · intro ⟨first, hfirst, hrest⟩
      obtain ⟨later, hlater, heq⟩ := Wire.bind_eq_ok.mp hrest
      obtain ⟨rfl, rfl⟩ := append_eq_nil_iff.mp (Except.ok.inj heq)
      exact ⟨hfirst, hlater⟩
    · intro ⟨hfirst, hrest⟩
      refine ⟨[], hfirst, ?_⟩
      rw [hrest]
      rfl

/-- A check of each item of an array, with its index. -/
def eachItem (check : Nat → Json → Check) (items : List Json) : Check :=
  allChecks (items.mapIdx check)

end Js
