import Chainwatch.Proofs.Json.Layout

/-!
# Lawful codes

A type is coded lawfully if its values are read back from what is written of them, however the members of objects are
arranged, and so from their text. Numbers, texts, lists and values that may be absent are; a record is, field by field.
-/

namespace Chainwatch

open Json (Reorders IsOrdinary Key Record)

/-- A type whose values are read back from what is written, in any order of the members. -/
class Coded.Lawful (α : Type) [Coded α] : Prop where
  ordinary (a : α) : (toJson a).IsOrdinary
  ofJson?_of_reorders {a : α} {j : Json} (same : (toJson a).Reorders j) : ofJson? j = some a

/-- A type of whose values none is written as `null`. -/
class Coded.Present (α : Type) [Coded α] : Prop where
  toJson_ne_null (a : α) : toJson a ≠ .null

namespace Coded

variable {α : Type} [Coded α]

theorem ofJson?_toJson [Lawful α] (a : α) : ofJson? (toJson a) = some a :=
  Lawful.ofJson?_of_reorders (Lawful.ordinary a).reorders_refl

theorem toJson_injective [Lawful α] {a b : α} (same : toJson a = toJson b) : a = b := by
  have read := ofJson?_toJson a
  rw [same, ofJson?_toJson] at read
  exact (Option.some.inj read).symm

/-! ## Numbers, words and texts -/

theorem natBelow?_integer {bound n : Nat} (inside : n < bound) : Json.natBelow? bound (.integer n) = some n :=
  if_pos inside

instance : Lawful UInt64 where
  ordinary n := .integer n.toNat
  ofJson?_of_reorders {n} _ same := by
    cases same
    change (Json.natBelow? _ (.integer n.toNat)).map UInt64.ofNat = some n
    rw [natBelow?_integer n.toNat_lt, Option.map_some, UInt64.ofNat_toNat]

instance : Lawful UInt32 where
  ordinary n := .integer n.toNat
  ofJson?_of_reorders {n} _ same := by
    cases same
    change (Json.natBelow? _ (.integer n.toNat)).map UInt32.ofNat = some n
    rw [natBelow?_integer n.toNat_lt, Option.map_some, UInt32.ofNat_toNat]

instance : Lawful UInt8 where
  ordinary n := .integer n.toNat
  ofJson?_of_reorders {n} _ same := by
    cases same
    change (Json.natBelow? _ (.integer n.toNat)).map UInt8.ofNat = some n
    rw [natBelow?_integer n.toNat_lt, Option.map_some, UInt8.ofNat_toNat]

instance : Lawful Bool where
  ordinary := .bool
  ofJson?_of_reorders same := by
    cases same
    rfl

instance : Lawful String where
  ordinary := .string
  ofJson?_of_reorders same := by
    cases same
    rfl

instance : Present UInt64 := ⟨nofun⟩
instance : Present UInt32 := ⟨nofun⟩
instance : Present Bool := ⟨nofun⟩
instance : Present String := ⟨nofun⟩

/-! ## Lists and options -/

theorem mapM_ofJson? [Lawful α] {xs : List α} {items : List Json} (each : List.Forall₂ Reorders (xs.map toJson) items) :
    items.mapM ofJson? = some xs := by
  induction xs generalizing items with
  | nil =>
      cases each
      rfl
  | cons x xs ih =>
      obtain ⟨item, items, same, later, rfl⟩ := List.forall₂_cons_left_iff.mp each
      simp [List.mapM_cons, Lawful.ofJson?_of_reorders same, ih later]

instance [Lawful α] : Lawful (List α) where
  ordinary _ := .array (List.forall_mem_map.mpr fun x _ => Lawful.ordinary x)
  ofJson?_of_reorders same := by
    cases same with
    | array each => exact mapM_ofJson? each

theorem ofJson?_option {j : Json} (present : j ≠ .null) :
    (ofJson? j : Option (Option α)) = (ofJson? j : Option α).map some := by
  cases j <;> first | contradiction | rfl

instance [Lawful α] [Present α] : Lawful (Option α) where
  ordinary
    | none => .null
    | some a => Lawful.ordinary a
  ofJson?_of_reorders {a j} same := by
    cases a with
    | none =>
        cases same
        rfl
    | some a =>
        have present : j ≠ .null := by
          rintro rfl
          have null : toJson a = .null := by
            change (toJson a).Reorders .null at same
            generalize toJson a = written at same
            cases same
            rfl
          exact Present.toJson_ne_null a null
        rw [ofJson?_option present, Lawful.ofJson?_of_reorders (a := a) same]
        rfl

end Coded

/-! ## Names -/

/-- A name of a finite type is read back. -/
theorem Json.name?_of_reorders {α : Type} {ofName? : String → Option α} {name : String} {a : α}
    (named : ofName? name = some a) {j : Json} (same : (Json.string name).Reorders j) : j.name? ofName? = some a := by
  cases same
  exact named

/-! ## Records -/

namespace Json

variable {members usual kept : List (Key × Json)} {name : String} {j : Json}

/-- An object without some of the members that it shares with the usual one. -/
inductive OmitsDefaults : Json → Json → Json → Prop
  | object {usual members kept : List (Key × Json)} (part : kept.Sublist members)
      (rest : ∀ m ∈ members, m ∈ kept ∨ m ∈ usual) : OmitsDefaults (.object usual) (.object members) (.object kept)

theorem omitsDefaults_refl (usual members : List (Key × Json)) :
    OmitsDefaults (.object usual) (.object members) (.object members) :=
  .object (List.Sublist.refl _) fun _ mem => Or.inl mem

theorem mem_named_iff {item : Json} :
    (name, item) ∈ named members ↔ ∃ key, key.text = name ∧ (key, item) ∈ members := by
  simp [named, and_comm]

theorem lookup_named_iff {item : Json} (distinct : (texts members).Nodup) :
    (named members).lookup name = some item ↔ ∃ key, key.text = name ∧ (key, item) ∈ members := by
  rw [← map_fst_named] at distinct
  rw [lookup_eq_some_iff_mem distinct, mem_named_iff]

namespace Record

open Coded (Lawful)

variable {r : Record} {α β : Type} [Coded α] [Lawful α] {a : α} {b : β}

/-- A record is read from the members of an object in any order. -/
theorem bind_of_reorders {names : List String} {f : Record → Option β} (distinct : (texts members).Nodup)
    (same : Reorders (.object members) j) (each : ∀ r : Record, r.Holds members → f r = some b) :
    (Record.ofJson? names j).bind f = some b := by
  obtain ⟨r, read, holds⟩ := exists_holds distinct same
  rw [read]
  exact each r holds

theorem Holds.bind_get {f : α → Option β} (holds : r.Holds members)
    (given : (named members).lookup name = some (toJson a)) (later : f a = some b) : (r.get name).bind f = some b := by
  obtain ⟨item, found, same⟩ := holds.exists_of_some given
  have read : r.get name = some a := by
    rw [get, found]
    exact Lawful.ofJson?_of_reorders same
  rw [read]
  exact later

/-- An optional part is read as absent where it was left out. -/
theorem Holds.bind_getOptional [Coded.Present α] {a : Option α} {f : Option α → Option β} (holds : r.Holds members)
    (given : (named members).lookup name = some (toJson a)) (later : f a = some b) :
    (r.getOptional name).bind f = some b := by
  obtain ⟨item, found, same⟩ := holds.exists_of_some given
  have read : r.getOptional name = some a := by
    rw [getOptional, found]
    exact Lawful.ofJson?_of_reorders same
  rw [read]
  exact later

theorem Holds.bind_getD {d : α} {f : α → Option β} (holds : r.Holds kept) (part : kept.Sublist members)
    (rest : ∀ m ∈ members, m ∈ kept ∨ m ∈ usual) (distinct : (texts members).Nodup) (distinct' : (texts usual).Nodup)
    (given : (named members).lookup name = some (toJson a)) (usually : (named usual).lookup name = some (toJson d))
    (later : f a = some b) : (r.getD name d).bind f = some b := by
  have distinctKept : (texts kept).Nodup := distinct.sublist (part.map _)
  have read : r.getD name d = some a := by
    cases found : (named kept).lookup name with
    | some item =>
        obtain ⟨key, called, mem⟩ := (lookup_named_iff distinctKept).mp found
        have also := (lookup_named_iff distinct).mpr ⟨key, called, part.subset mem⟩
        rw [given] at also
        obtain rfl := Option.some.inj also
        obtain ⟨item, found', same⟩ := holds.exists_of_some found
        rw [getD, found']
        exact Lawful.ofJson?_of_reorders same
    | none =>
        obtain ⟨key, called, mem⟩ := (lookup_named_iff distinct).mp given
        have left : (key, toJson a) ∈ usual := by
          refine (rest _ mem).resolve_left fun mem' => ?_
          have present := (lookup_named_iff distinctKept).mpr ⟨key, called, mem'⟩
          rw [found] at present
          cases present
        have also := (lookup_named_iff distinct').mpr ⟨key, called, left⟩
        rw [usually] at also
        rw [getD, holds.eq_none found, Coded.toJson_injective (Option.some.inj also)]
  rw [read]
  exact later

end Record

end Json

end Chainwatch
