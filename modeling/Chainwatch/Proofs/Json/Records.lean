import Chainwatch.Proofs.Json.Lawful
import Chainwatch.Proofs.Text.Hex
import Chainwatch.Query.Json
import Chainwatch.Settings.Json

/-!
# Records are read back

Blocks, events, queries, tiers, policies and settings are read back from what is written of them, however the members
are arranged and also through their text. A policy and the settings of a tracker are read back without those members
that have their usual values.
-/

namespace Chainwatch

open Coded (Lawful Present)
open Json (IsOrdinary Key Record OmitsDefaults texts)
open Json.Writer (escape)

/-! ## Blocks and events -/

instance : Lawful Bloom where
  ordinary b := .string b.toHex
  ofJson?_of_reorders {b} _ same := by
    cases same
    change Bloom.ofAnyHex? (Text.Hex.encodeMarked b.bytes) = some b
    rw [Bloom.ofAnyHex?, Text.Hex.decodeText_encodeMarked]

instance : Lawful BlockState where
  ordinary state := .string state.name
  ofJson?_of_reorders {state} _ same := by
    have named : BlockState.ofName? state.name = some state := by cases state <;> rfl
    exact Json.name?_of_reorders named same

instance : Present BlockState := ⟨nofun⟩

instance : Lawful Header where
  ordinary h := .object (by simp [Key.IsBare, escape]) (by simp [Lawful.ordinary])
  ofJson?_of_reorders {h} _ same := by
    refine Record.bind_of_reorders (by simp [texts]) same fun r holds => ?_
    iterate 5 refine holds.bind_get rfl ?_
    rfl

instance : Lawful Log where
  ordinary l := .object (by simp [Key.IsBare, escape]) (by simp [Lawful.ordinary])
  ofJson?_of_reorders {l} _ same := by
    refine Record.bind_of_reorders (by simp [texts]) same fun r holds => ?_
    iterate 9 refine holds.bind_get rfl ?_
    rfl

instance : Lawful Head where
  ordinary h := .object (by simp [Key.IsBare, escape]) (by simp [Lawful.ordinary])
  ofJson?_of_reorders {h} _ same := by
    refine Record.bind_of_reorders (by simp [texts]) same fun r holds => ?_
    iterate 7 refine holds.bind_get rfl ?_
    rfl

instance : Lawful Event where
  ordinary e := .object (by simp [Key.IsBare, escape]) (by simp [Lawful.ordinary])
  ofJson?_of_reorders {e} _ same := by
    refine Record.bind_of_reorders (by simp [texts]) same fun r holds => ?_
    iterate 11 refine holds.bind_get rfl ?_
    rfl

/-! ## Queries -/

instance : Lawful HeadQuery where
  ordinary q := .object (by simp [Key.IsBare, escape]) (by simp [Lawful.ordinary])
  ofJson?_of_reorders {q} _ same := by
    refine Record.bind_of_reorders (by simp [texts]) same fun r holds => ?_
    iterate 5 refine holds.bind_getOptional rfl ?_
    rfl

instance : Lawful EventQuery where
  ordinary q := .object (by simp [Key.IsBare, escape]) (by simp [Lawful.ordinary])
  ofJson?_of_reorders {q} _ same := by
    refine Record.bind_of_reorders (by simp [texts]) same fun r holds => ?_
    iterate 10 refine holds.bind_getOptional rfl ?_
    rfl

/-! ## Policies -/

instance : Lawful Tier where
  ordinary tier := .string tier.name
  ofJson?_of_reorders {tier} _ same := by
    have named : Tier.ofName? tier.name = some tier := by cases tier <;> rfl
    exact Json.name?_of_reorders named same

instance : Lawful Tiers where
  ordinary t := .object (by simp [Key.IsBare, escape]) (by simp [Lawful.ordinary])
  ofJson?_of_reorders {t} _ same := by
    refine Record.bind_of_reorders (by simp [texts]) same fun r holds => ?_
    iterate 4 refine holds.bind_get rfl ?_
    rfl

theorem foldl_insert_eq {chains : Std.ExtTreeMap UInt64 Tiers} {entries : List (UInt64 × Tiers)}
    (order : entries.Perm chains.toList) :
    entries.foldl (fun chains entry => chains.insert entry.1 entry.2) ∅ = chains := by
  have distinct : entries.Pairwise fun a b => ¬compare a.1 b.1 = .eq :=
    order.symm.pairwise Std.ExtTreeMap.distinct_keys_toList fun apart same =>
      apart (Std.OrientedCmp.eq_symm same)
  rw [← Std.ExtTreeMap.insertMany_list_eq_foldl]
  refine Std.ExtTreeMap.ext_getElem? fun chain => ?_
  cases entry : chains[chain]? with
  | some tiers =>
      have mem := order.symm.mem_iff.mp (Std.ExtTreeMap.mem_toList_iff_getElem?_eq_some.mpr entry)
      exact Std.ExtTreeMap.getElem?_insertMany_list_of_mem Std.ReflCmp.compare_self distinct mem
  | none =>
      have absent : (entries.map Prod.fst).contains chain = false := by
        rw [← Bool.not_eq_true, List.contains_iff_mem]
        intro known
        obtain ⟨⟨_, tiers⟩, mem, rfl⟩ := List.mem_map.mp known
        have found := Std.ExtTreeMap.mem_toList_iff_getElem?_eq_some.mp (order.mem_iff.mp mem)
        rw [entry] at found
        cases found
      rw [Std.ExtTreeMap.getElem?_insertMany_list_of_contains_eq_false absent]
      exact Std.ExtTreeMap.getElem?_empty

/-- A member that gives an entry: the numeral of its chain and its tiers. -/
def Gives (m : Key × Json) (entry : UInt64 × Tiers) : Prop :=
  m.1 = ⟨toString entry.1, true⟩ ∧ ofJson? m.2 = some entry.2

theorem readMembers_gives {members : List (Key × Json)} {entries : List (UInt64 × Tiers)}
    (each : List.Forall₂ Gives members entries) (chains : Std.ExtTreeMap UInt64 Tiers) :
    members.foldlM
      (fun chains (key, value) => do
        let chain ← if key.plain then Text.Numeral.readShortest key.text.toList else none
        let tiers ← ofJson? value
        some (chains.insert chain tiers)) chains =
      some (entries.foldl (fun chains entry => chains.insert entry.1 entry.2) chains) := by
  induction each generalizing chains with
  | nil => rfl
  | @cons m entry _ _ here _ ih =>
      obtain ⟨key, value⟩ := m
      obtain ⟨rfl, read⟩ := here
      change ofJson? value = some entry.2 at read
      rw [List.foldlM_cons]
      refine Option.bind_eq_some_iff.mpr ⟨chains.insert entry.1 entry.2, ?_, ih _⟩
      simp [Text.Numeral.readShortest_toString, read]

theorem escape_of_isDigit {c : Char} (digit : c.isDigit) : escape c = [c] := by
  have printed : ¬c.toNat < 32 := by
    simp only [Char.isDigit, Bool.and_eq_true, decide_eq_true_eq, ge_iff_le, UInt32.le_iff_toNat_le] at digit
    exact Nat.not_lt.mpr (Nat.le_trans (by decide) digit.1)
  unfold escape
  split
  case h_8 => rw [if_neg printed]
  all_goals exact absurd digit (by decide)

theorem isBare_numeral (chain : UInt64) : Key.IsBare ⟨toString chain, true⟩ := by
  have written : (toString chain).toList = Nat.toDigits 10 chain.toNat := Nat.toList_repr
  refine ⟨rfl, fun c mem => escape_of_isDigit ?_⟩
  rw [written] at mem
  exact Json.isDigit_of_mem_toDigits mem

instance : Lawful (Std.ExtTreeMap UInt64 Tiers) where
  ordinary chains := by
    refine .object (List.forall_mem_map.mpr fun entry _ => isBare_numeral entry.1) ?_
    exact List.forall_mem_map.mpr fun entry _ => Lawful.ordinary entry.2
  ofJson?_of_reorders {chains} _ same := by
    cases same with
    | @object _ middle members keys each order =>
        have given : List.Forall₂ Gives middle chains.toList := by
          refine List.Forall₂.flip ?_
          have agree := Json.agree_of_map keys each
          refine (List.forall₂_map_left_iff.mp agree).imp fun entry m here => ?_
          exact ⟨here.1.symm, Lawful.ofJson?_of_reorders here.2⟩
        obtain ⟨entries, gives, order'⟩ := List.perm_comp_forall₂ order.symm given
        exact (readMembers_gives gives ∅).trans (congrArg some (foldl_insert_eq order'))

/-- A policy is read back without those members that have their usual values. -/
theorem ofJson?_policy {p : Policy} {kept j : Json}
    (omits : OmitsDefaults (toJson (Policy.uniform Tiers.standard)) (toJson p) kept) (same : kept.Reorders j) :
    ofJson? j = some p := by
  cases omits with
  | object part rest =>
      have distinct : (texts [("chains", toJson p.chains), ("default", toJson p.fallback)]).Nodup := by simp [texts]
      refine Record.bind_of_reorders (distinct.sublist (part.map _)) same fun r holds => ?_
      iterate 2 refine holds.bind_getD part rest distinct (by simp [texts]) rfl rfl ?_
      rfl

instance : Lawful Policy where
  ordinary p := .object (by simp [Key.IsBare, escape]) (by simp [Lawful.ordinary])
  ofJson?_of_reorders same := ofJson?_policy (Json.omitsDefaults_refl _ _) same

/-! ## Settings -/

/-- The settings of a tracker are read back without those members that have their usual values. -/
theorem ofJson?_trackerSettings {s : TrackerSettings} {kept j : Json}
    (omits : OmitsDefaults (toJson ({} : TrackerSettings)) (toJson s) kept) (same : kept.Reorders j) :
    ofJson? j = some s := by
  cases omits with
  | object part rest =>
      have distinct {s : TrackerSettings} :
          (texts [("start_height", toJson s.startHeight), ("confirmations", toJson s.confirmations),
            ("tier", toJson s.tier), ("policy", toJson s.policy), ("queue_capacity", toJson s.queueCapacity),
            ("error_queue_capacity", toJson s.errorCapacity)]).Nodup := by
        simp [texts]
      refine Record.bind_of_reorders (distinct.sublist (part.map _)) same fun r holds => ?_
      iterate 6 refine holds.bind_getD part rest distinct distinct rfl rfl ?_
      rfl

instance : Lawful TrackerSettings where
  ordinary s := .object (by simp [Key.IsBare, escape]) (by simp [Lawful.ordinary])
  ofJson?_of_reorders same := ofJson?_trackerSettings (Json.omitsDefaults_refl _ _) same

/-! ## What is written is read back -/

/-- The value is read as this one, in any order of its members, and from its text. -/
structure Reloads {α : Type} [Coded α] (j : Json) (a : α) : Prop where
  value : ofJson? j = some a
  reordered : ∀ j' : Json, j.Reorders j' → ofJson? j' = some a
  text : (Json.read (Json.pretty j)).bind ofJson? = some a

theorem reloads_of_reorders {α : Type} [Coded α] {j : Json} {a : α} (ordinary : j.IsOrdinary)
    (read : ∀ j' : Json, j.Reorders j' → ofJson? j' = some a) : Reloads j a where
  value := read j ordinary.reorders_refl
  reordered := read
  text := by
    rw [Json.read_pretty ordinary]
    exact read _ (Json.reorders_inOrder ordinary)

theorem reloads {α : Type} [Coded α] [Lawful α] (a : α) : Reloads (toJson a) a :=
  reloads_of_reorders (Lawful.ordinary a) fun _ => Lawful.ofJson?_of_reorders

theorem isOrdinary_of_omitsDefaults {usual j kept : Json} (omits : OmitsDefaults usual j kept)
    (ordinary : j.IsOrdinary) : kept.IsOrdinary := by
  cases omits with
  | object part rest =>
      cases ordinary with
      | object bare each => exact .object (fun m mem => bare m (part.subset mem)) fun m mem => each m (part.subset mem)

/-- Records, policies and settings are read back from what is written of them; policies and the settings of a tracker
also without those members that have their usual values. -/
theorem records_reload :
    (∀ h : Header, Reloads (toJson h) h) ∧ (∀ l : Log, Reloads (toJson l) l) ∧ (∀ h : Head, Reloads (toJson h) h) ∧
      (∀ e : Event, Reloads (toJson e) e) ∧ (∀ q : HeadQuery, Reloads (toJson q) q) ∧
      (∀ q : EventQuery, Reloads (toJson q) q) ∧ (∀ t : Tiers, Reloads (toJson t) t) ∧
      (∀ p : Policy, Reloads (toJson p) p) ∧ (∀ s : TrackerSettings, Reloads (toJson s) s) ∧
      (∀ (p : Policy) (kept : Json), OmitsDefaults (toJson (Policy.uniform Tiers.standard)) (toJson p) kept →
        Reloads kept p ∧ Policy.parse (Json.pretty kept) = .ok p) ∧
      ∀ (s : TrackerSettings) (kept : Json), OmitsDefaults (toJson ({} : TrackerSettings)) (toJson s) kept →
        Reloads kept s := by
  refine ⟨reloads, reloads, reloads, reloads, reloads, reloads, reloads, reloads, reloads, ?_, ?_⟩
  · intro p kept omits
    have reloaded : Reloads kept p :=
      reloads_of_reorders (isOrdinary_of_omitsDefaults omits (Lawful.ordinary p)) fun _ => ofJson?_policy omits
    refine ⟨reloaded, ?_⟩
    rw [Policy.parse, Policy.ofText?, reloaded.text]
  · intro s kept omits
    exact reloads_of_reorders (isOrdinary_of_omitsDefaults omits (Lawful.ordinary s)) fun _ =>
      ofJson?_trackerSettings omits

/-- A policy with the standard tiers is read from its chains alone, and from nothing where it has none; the usual
settings are read from nothing. -/
theorem records_reload_omitted :
    ofJson? (.object [("chains", .object [("17000", toJson (⟨1, 6, 32, 64⟩ : Tiers))])]) =
        some ((Policy.uniform Tiers.standard).withChain 17000 ⟨1, 6, 32, 64⟩) ∧
      Policy.parse (Json.pretty (.object [])) = .ok (Policy.uniform Tiers.standard) ∧
      ofJson? (.object []) = some ({} : TrackerSettings) := by
  obtain ⟨-, -, -, -, -, -, -, -, -, policy, settings⟩ := records_reload
  refine ⟨?_, ?_, ?_⟩
  · have omits : OmitsDefaults (toJson (Policy.uniform Tiers.standard))
        (toJson ((Policy.uniform Tiers.standard).withChain 17000 ⟨1, 6, 32, 64⟩))
        (.object [("chains", .object [("17000", toJson (⟨1, 6, 32, 64⟩ : Tiers))])]) :=
      .object (.cons_cons _ (.cons _ .slnil)) (by
        rintro m (_ | ⟨_, _ | ⟨_, ⟨⟩⟩⟩)
        · exact Or.inl List.mem_cons_self
        · exact Or.inr (List.mem_cons_of_mem _ List.mem_cons_self))
    exact (policy _ _ omits).1.value
  · exact (policy _ _ (.object (List.nil_sublist _) fun _ mem => Or.inr mem)).2
  · exact (settings _ _ (.object (List.nil_sublist _) fun _ mem => Or.inr mem)).value

end Chainwatch
