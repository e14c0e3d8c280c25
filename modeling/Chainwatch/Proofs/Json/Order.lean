import Chainwatch.Json.Writer
import Mathlib.Data.List.Forall2
import Mathlib.Data.List.Perm.Basic

/-!
# The order of members

The members of an object have no order that counts: what reads a value gives the same for every arrangement of them,
at any depth. A record whose names are distinct has each part under its name, wherever it stands.
-/

namespace Chainwatch

namespace Json

variable {members members' : List (Key × Json)} {names : List String} {name : String} {item j : Json}

/-- The same value with the members of its objects in any order. -/
inductive Reorders : Json → Json → Prop
  | null : Reorders .null .null
  | bool (b : Bool) : Reorders (.bool b) (.bool b)
  | integer (n : Int) : Reorders (.integer n) (.integer n)
  | string (s : String) : Reorders (.string s) (.string s)
  | array {items items' : List Json} (each : List.Forall₂ Reorders items items') :
      Reorders (.array items) (.array items')
  | object {members middle members' : List (Key × Json)} (keys : members.map Prod.fst = middle.map Prod.fst)
      (each : List.Forall₂ Reorders (members.map Prod.snd) (middle.map Prod.snd)) (order : middle.Perm members') :
      Reorders (.object members) (.object members')

/-- A name that is written without escapes, and known to be. -/
def Key.IsBare (key : Key) : Prop :=
  key.plain ∧ ∀ c ∈ key.text.toList, Writer.escape c = [c]

/-- A value with whole numbers, whole strings and bare names. -/
inductive IsOrdinary : Json → Prop
  | null : IsOrdinary .null
  | bool (b : Bool) : IsOrdinary (.bool b)
  | integer (n : Int) : IsOrdinary (.integer n)
  | string (s : String) : IsOrdinary (.string s)
  | array {items : List Json} (each : ∀ item ∈ items, IsOrdinary item) : IsOrdinary (.array items)
  | object {members : List (Key × Json)} (bare : ∀ m ∈ members, m.1.IsBare)
      (each : ∀ m ∈ members, IsOrdinary m.2) : IsOrdinary (.object members)

theorem IsOrdinary.reorders_refl (ordinary : j.IsOrdinary) : j.Reorders j := by
  induction ordinary with
  | null => exact .null
  | bool b => exact .bool b
  | integer n => exact .integer n
  | string s => exact .string s
  | array each ih => exact .array (List.forall₂_same.mpr ih)
  | object bare each ih => exact .object rfl (List.forall₂_same.mpr (List.forall_mem_map.mpr ih)) (List.Perm.refl _)

def Agree : List (Key × Json) → List (Key × Json) → Prop :=
  List.Forall₂ fun m m' => m.1 = m'.1 ∧ m.2.Reorders m'.2

theorem agree_of_map {middle : List (Key × Json)} (keys : members.map Prod.fst = middle.map Prod.fst)
    (each : List.Forall₂ Reorders (members.map Prod.snd) (middle.map Prod.snd)) : Agree members middle := by
  induction members generalizing middle with
  | nil =>
      cases List.map_eq_nil_iff.mp keys.symm
      exact .nil
  | cons m members ih =>
      match middle with
      | m' :: middle =>
          rw [List.map_cons, List.map_cons, List.cons.injEq] at keys
          rw [List.map_cons, List.map_cons, List.forall₂_cons] at each
          exact .cons ⟨keys.1, each.1⟩ (ih keys.2 each.2)

/-! ## Look-up -/

def texts (members : List (Key × Json)) : List String :=
  members.map (·.1.text)

theorem texts_eq_of_agree (agree : Agree members members') : texts members = texts members' := by
  induction agree with
  | nil => rfl
  | cons here _ ih => exact congrArg₂ List.cons (congrArg Key.text here.1) ih

theorem map_fst_named : (named members).map Prod.fst = texts members := by
  simp [named, texts, Function.comp_def]

theorem lookup_named_of_agree (agree : Agree members members') :
    Option.Rel Reorders ((named members).lookup name) ((named members').lookup name) := by
  induction agree with
  | nil => exact .none
  | @cons m m' members members' here _ ih =>
      change Option.Rel Reorders (List.lookup name ((m.1.text, m.2) :: named members))
        (List.lookup name ((m'.1.text, m'.2) :: named members'))
      rw [List.lookup_cons, List.lookup_cons, here.1]
      cases name == m'.1.text with
      | true => exact .some here.2
      | false => exact ih

/-- Under distinct names each member is found. -/
theorem lookup_eq_some_iff_mem {parts : List (String × Json)} (distinct : (parts.map Prod.fst).Nodup) :
    parts.lookup name = some item ↔ (name, item) ∈ parts := by
  induction parts with
  | nil => simp
  | cons part parts ih =>
      obtain ⟨fresh, later⟩ := List.nodup_cons.mp distinct
      obtain ⟨other, item'⟩ := part
      rw [List.lookup_cons, List.mem_cons]
      cases same : name == other with
      | true =>
          obtain rfl := beq_iff_eq.mp same
          have absent : (name, item) ∉ parts := fun mem => fresh (List.mem_map.mpr ⟨_, mem, rfl⟩)
          simp [absent, eq_comm]
      | false =>
          have differ : name ≠ other := beq_eq_false_iff_ne.mp same
          simpa [differ] using ih later

theorem lookup_eq_of_perm {parts parts' : List (String × Json)} (distinct : (parts.map Prod.fst).Nodup)
    (order : parts.Perm parts') : parts.lookup name = parts'.lookup name := by
  have distinct' : (parts'.map Prod.fst).Nodup := ((order.map Prod.fst).nodup_iff).mp distinct
  ext item
  rw [lookup_eq_some_iff_mem distinct, lookup_eq_some_iff_mem distinct', order.mem_iff]

theorem lookup_of_reorders (distinct : (texts members).Nodup)
    (same : Reorders (.object members) (.object members')) :
    Option.Rel Reorders ((named members).lookup name) ((named members').lookup name) := by
  cases same with
  | @object _ middle _ keys each order =>
      have agree := agree_of_map keys each
      have distinct' : ((named middle).map Prod.fst).Nodup := by
        rwa [map_fst_named, ← texts_eq_of_agree agree]
      have arranged : (named middle).Perm (named members') := order.map _
      rw [← lookup_eq_of_perm distinct' arranged]
      exact lookup_named_of_agree agree

theorem nodup_texts_of_reorders (distinct : (texts members).Nodup)
    (same : Reorders (.object members) (.object members')) : (texts members').Nodup := by
  cases same with
  | object keys each order =>
      rw [texts_eq_of_agree (agree_of_map keys each)] at distinct
      exact ((order.map _).nodup_iff).mp distinct

namespace Record

variable {r : Record} {α : Type} [Coded α]

/-- The record has these members, each in some order of its own. -/
def Holds (r : Record) (members : List (Key × Json)) : Prop :=
  ∀ name, Option.Rel Reorders ((named members).lookup name) (r.parts.lookup name)

/-- An object with distinct names is a record, whatever the order of its members. -/
theorem exists_holds (distinct : (texts members).Nodup) (same : Reorders (.object members) j) :
    ∃ r, ofJson? names j = some r ∧ r.Holds members := by
  match j, same with
  | .object members', same =>
      refine ⟨⟨false, named members'⟩, ?_, fun name => lookup_of_reorders distinct same⟩
      have once (name : String) : (members'.filter (·.1.text == name)).length ≤ 1 := by
        have counted := List.nodup_iff_count.mp (nodup_texts_of_reorders distinct same) name
        rwa [texts, List.count, List.countP_map, List.countP_eq_length_filter] at counted
      have allowed : names.all fun name => decide ((members'.filter (·.1.text == name)).length ≤ 1) := by
        simp [once]
      exact if_pos allowed

theorem Holds.exists_of_some (holds : r.Holds members) (given : (named members).lookup name = some item) :
    ∃ item', r.parts.lookup name = some item' ∧ item.Reorders item' := by
  have here := holds name
  rw [given] at here
  cases found : r.parts.lookup name with
  | none =>
      rw [found] at here
      cases here
  | some item' =>
      rw [found] at here
      cases here with
      | some same => exact ⟨item', rfl, same⟩

theorem Holds.eq_none (holds : r.Holds members) (absent : (named members).lookup name = none) :
    r.parts.lookup name = none := by
  have here := holds name
  rw [absent] at here
  cases found : r.parts.lookup name with
  | none => rfl
  | some item' =>
      rw [found] at here
      cases here

end Record

end Json

end Chainwatch
