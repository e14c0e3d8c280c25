import Mathlib.Data.Nat.Digits.Defs
import Chainwatch.Text.Numeral
import Chainwatch.Proofs.Text.Hex

/-!
# What is read as a number

A numeral is read as the number that its digits denote by their places, whatever zeros stand before them and in letters
of either case. It is refused exactly if it denotes no number below `2 ^ 64`, and what is written of a number is read
as that number.
-/

namespace Chainwatch.Text.Numeral

variable {radix acc n : Nat} {c : Char} {cs : List Char} {d : Nat} {ds : List Nat}

/-! ## Digits of either case -/

theorem digit?_ascii : ∀ c < 128, ∀ d < 16,
    digit? 16 (Char.ofNat c) = some d ↔ (Char.ofNat c).toLower = Nat.digitChar d := by
  decide +kernel

theorem toNat_digitChar : ∀ d < 16, (Nat.digitChar d).toNat < 128 := by
  decide +kernel

theorem toLower_digitChar : ∀ d < 16, (Nat.digitChar d).toLower = Nat.digitChar d := by
  decide +kernel

theorem digit?_eq_filter (small : radix ≤ 16) (c : Char) : digit? radix c = (digit? 16 c).filter (· < radix) := by
  grind [digit?]

theorem lt_of_digit? (digit : digit? radix c = some d) : d < radix := by
  grind [digit?]

theorem ascii_of_digit? (digit : digit? radix c = some d) : c.toNat < 128 := by
  obtain ⟨digit, -⟩ := Option.filter_eq_some_iff.mp digit
  by_contra beyond
  have above {b : Char} (ascii : b.toNat < 128) : ¬c ≤ b := fun le =>
    beyond (Nat.lt_of_le_of_lt (UInt32.le_iff_toNat_le.mp le) ascii)
  simp [above (by decide : '9'.toNat < 128), above (by decide : 'f'.toNat < 128),
    above (by decide : 'F'.toNat < 128)] at digit

/-- A character has the value of a digit exactly if it is that digit, small or capital. -/
theorem digit?_eq_some_iff (small : radix ≤ 16) :
    digit? radix c = some d ↔ d < radix ∧ c.toLower = Nat.digitChar d := by
  have read (ascii : c.toNat < 128) (below : d < radix) : digit? 16 c = some d ↔ c.toLower = Nat.digitChar d := by
    have := digit?_ascii c.toNat ascii d (by omega)
    rwa [Char.ofNat_toNat] at this
  constructor
  · intro digit
    have below := lt_of_digit? digit
    have ascii := ascii_of_digit? digit
    rw [digit?_eq_filter small, Option.filter_eq_some_iff] at digit
    exact ⟨below, (read ascii below).mp digit.1⟩
  · rintro ⟨below, same⟩
    have bound := toNat_digitChar d (by omega)
    have ascii : c.toNat < 128 := by
      rcases toLower_cases c with kept | ⟨low, high, raised⟩
      · rwa [← kept, same]
      · omega
    rw [digit?_eq_filter small, Option.filter_eq_some_iff]
    exact ⟨(read ascii below).mpr same, by simpa using below⟩

/-- Characters spell these digits, in letters of either case. -/
def Spells (radix : Nat) (cs : List Char) (ds : List Nat) : Prop :=
  (∀ d ∈ ds, d < radix) ∧ cs.map Char.toLower = ds.map Nat.digitChar

theorem spells_nil_iff : Spells radix [] ds ↔ ds = [] := by
  constructor
  · rintro ⟨-, same⟩
    exact List.map_eq_nil_iff.mp same.symm
  · rintro rfl
    exact ⟨by simp, rfl⟩

theorem spells_cons_iff (small : radix ≤ 16) :
    Spells radix (c :: cs) ds ↔ ∃ d rest, ds = d :: rest ∧ digit? radix c = some d ∧ Spells radix cs rest := by
  simp only [digit?_eq_some_iff small, Spells]
  constructor
  · rintro ⟨below, same⟩
    cases ds with
    | nil => cases same
    | cons d rest =>
        obtain ⟨here, below⟩ := List.forall_mem_cons.mp below
        obtain ⟨first, later⟩ := List.cons.inj same
        exact ⟨d, rest, rfl, ⟨here, first⟩, below, later⟩
  · rintro ⟨d, rest, rfl, ⟨here, first⟩, below, later⟩
    exact ⟨List.forall_mem_cons.mpr ⟨here, below⟩, by rw [List.map_cons, List.map_cons, first, later]⟩

/-! ## Numbers by places -/

/-- The number that further digits make of a number. -/
def behind (radix acc : Nat) (ds : List Nat) : Nat :=
  ds.foldl (fun acc d => acc * radix + d) acc

theorem ofDigits_reverse (radix : Nat) (ds : List Nat) : Nat.ofDigits radix ds.reverse = behind radix 0 ds := by
  rw [Nat.ofDigits_eq_foldr, List.foldr_reverse, behind]
  congr
  funext acc d
  rw [Nat.cast_id, Nat.add_comm, Nat.mul_comm]

theorem le_behind (positive : 0 < radix) (acc : Nat) (ds : List Nat) : acc ≤ behind radix acc ds := by
  induction ds generalizing acc with
  | nil => exact Nat.le_refl acc
  | cons d ds ih =>
      calc
        acc ≤ acc * radix := Nat.le_mul_of_pos_right acc positive
        _ ≤ acc * radix + d := Nat.le_add_right ..
        _ ≤ behind radix (acc * radix + d) ds := ih _

/-- The characters are digits that denote the number positionally. -/
def Denotes (radix : Nat) (cs : List Char) (n : Nat) : Prop :=
  ∃ ds, ds ≠ [] ∧ Spells radix cs ds ∧ Nat.ofDigits radix ds.reverse = n

theorem not_denotes_nil : ¬Denotes radix [] n := by
  rintro ⟨ds, some_digit, spelled, -⟩
  exact some_digit (spells_nil_iff.mp spelled)

theorem denotes_iff : Denotes radix cs n ↔ cs ≠ [] ∧ ∃ ds, Spells radix cs ds ∧ behind radix 0 ds = n := by
  simp only [Denotes, ofDigits_reverse]
  constructor
  · rintro ⟨ds, some_digit, spelled, value⟩
    refine ⟨?_, ds, spelled, value⟩
    rintro rfl
    exact some_digit (spells_nil_iff.mp spelled)
  · rintro ⟨some_char, ds, spelled, value⟩
    refine ⟨ds, ?_, spelled, value⟩
    rintro rfl
    exact some_char (List.map_eq_nil_iff.mp spelled.2)

/-! ## Reading digits -/

/-- `readDigits` succeeds exactly on digits whose number is below the bound. -/
theorem readDigits_eq_ok_iff (small : radix ≤ 16) (positive : 0 < radix) (below : acc < 2 ^ 64) :
    readDigits radix acc cs = .ok n ↔ ∃ ds, Spells radix cs ds ∧ behind radix acc ds = n ∧ n < 2 ^ 64 := by
  fun_induction readDigits radix acc cs with
  | case1 acc =>
      simp only [spells_nil_iff, exists_eq_left, behind, List.foldl_nil, Except.ok.injEq]
      exact ⟨fun same => ⟨same, same ▸ below⟩, fun found => found.1⟩
  | case2 acc c rest none =>
      simp [spells_cons_iff small, none]
  | case3 acc c rest d digit fits ih =>
      rw [ih fits]
      constructor
      · rintro ⟨ds, spelled, value, bound⟩
        exact ⟨d :: ds, (spells_cons_iff small).mpr ⟨d, ds, rfl, digit, spelled⟩, value, bound⟩
      · rintro ⟨_, spelled, value, bound⟩
        obtain ⟨d', ds, rfl, digit', later⟩ := (spells_cons_iff small).mp spelled
        cases digit.symm.trans digit'
        exact ⟨ds, later, value, bound⟩
  | case4 acc c rest d digit beyond =>
      refine ⟨nofun, ?_⟩
      rintro ⟨_, spelled, rfl, bound⟩
      obtain ⟨d', ds, rfl, digit', -⟩ := (spells_cons_iff small).mp spelled
      cases digit.symm.trans digit'
      exact (beyond (Nat.lt_of_le_of_lt (le_behind positive _ ds) bound)).elim

/-- `readDigits` stops at the first digit that brings the number to the bound, whatever follows it. -/
theorem readDigits_eq_tooLarge_iff (small : radix ≤ 16) (below : acc < 2 ^ 64) :
    readDigits radix acc cs = .error .tooLarge ↔
      ∃ front ds, front <+: cs ∧ Spells radix front ds ∧ 2 ^ 64 ≤ behind radix acc ds := by
  fun_induction readDigits radix acc cs with
  | case1 acc =>
      refine ⟨nofun, ?_⟩
      rintro ⟨front, ds, starts, spelled, beyond⟩
      obtain rfl := List.prefix_nil.mp starts
      obtain rfl := spells_nil_iff.mp spelled
      exact (Nat.not_le.mpr below beyond).elim
  | case2 acc c rest none =>
      refine ⟨nofun, ?_⟩
      rintro ⟨front, ds, starts, spelled, beyond⟩
      cases front with
      | nil =>
          obtain rfl := spells_nil_iff.mp spelled
          exact (Nat.not_le.mpr below beyond).elim
      | cons c' front =>
          obtain ⟨rfl, -⟩ := List.cons_prefix_cons.mp starts
          obtain ⟨d, -, -, digit, -⟩ := (spells_cons_iff small).mp spelled
          cases none.symm.trans digit
  | case3 acc c rest d digit fits ih =>
      rw [ih fits]
      constructor
      · rintro ⟨front, ds, starts, spelled, beyond⟩
        exact ⟨c :: front, d :: ds, List.cons_prefix_cons.mpr ⟨rfl, starts⟩,
          (spells_cons_iff small).mpr ⟨d, ds, rfl, digit, spelled⟩, beyond⟩
      · rintro ⟨front, ds, starts, spelled, beyond⟩
        cases front with
        | nil =>
            obtain rfl := spells_nil_iff.mp spelled
            exact (Nat.not_le.mpr below beyond).elim
        | cons c' front =>
            obtain ⟨rfl, follows⟩ := List.cons_prefix_cons.mp starts
            obtain ⟨d', ds, rfl, digit', later⟩ := (spells_cons_iff small).mp spelled
            cases digit.symm.trans digit'
            exact ⟨front, ds, follows, later, beyond⟩
  | case4 acc c rest d digit beyond =>
      refine ⟨fun _ => ⟨[c], [d], ?_, ?_, Nat.not_lt.mp beyond⟩, fun _ => rfl⟩
      · exact List.cons_prefix_cons.mpr ⟨rfl, List.nil_prefix⟩
      · exact (spells_cons_iff small).mpr ⟨d, [], rfl, digit, spells_nil_iff.mpr rfl⟩

theorem readDigits_ne_empty : readDigits radix acc cs ≠ .error .empty := by
  fun_induction readDigits radix acc cs with
  | case3 acc c rest d digit fits ih => exact ih
  | _ => simp

/-! ## Numerals -/

def Unsigned (cs rest : List Char) : Prop :=
  rest = cs ∨ '+' :: rest = cs

/-- The characters are digits that denote the number, after at most one plus sign. -/
def IsNumeral (radix : Nat) (cs : List Char) (n : Nat) : Prop :=
  ∃ rest, Unsigned cs rest ∧ Denotes radix rest n

/-- A leading part of the characters denotes a number beyond 64 bits. -/
def Exceeds (radix : Nat) (cs : List Char) : Prop :=
  ∃ front n, front <+: cs ∧ Denotes radix front n ∧ 2 ^ 64 ≤ n

/-- The number of a numeral exceeds 64 bits before a character that is no digit occurs in it. -/
def Overruns (radix : Nat) (cs : List Char) : Prop :=
  ∃ rest, Unsigned cs rest ∧ Exceeds radix rest

theorem exists_unsigned_plus_iff {P : List Char → Prop} (bare : ∀ more, ¬P ('+' :: more)) :
    (∃ rest, Unsigned ('+' :: cs) rest ∧ P rest) ↔ P cs := by
  constructor
  · rintro ⟨rest, rfl | signed, holds⟩
    · exact (bare cs holds).elim
    · exact (List.cons.inj signed).2 ▸ holds
  · exact fun holds => ⟨cs, .inr rfl, holds⟩

theorem exists_unsigned_iff_of_ne {P : List Char → Prop} (bare : ∀ rest, cs ≠ '+' :: rest) :
    (∃ rest, Unsigned cs rest ∧ P rest) ↔ P cs := by
  constructor
  · rintro ⟨rest, rfl | signed, holds⟩
    · exact holds
    · exact (bare rest signed.symm).elim
  · exact fun holds => ⟨cs, .inl rfl, holds⟩

/-- Digits denote one number only. -/
theorem Denotes.unique (small : radix ≤ 16) {m : Nat} (first : Denotes radix cs n) (second : Denotes radix cs m) :
    n = m := by
  have values {cs : List Char} {ds : List Nat} (spelled : Spells radix cs ds) :
      cs.map (digit? radix) = ds.map some := by
    induction cs generalizing ds with
    | nil =>
        obtain rfl := spells_nil_iff.mp spelled
        rfl
    | cons c cs ih =>
        obtain ⟨d, rest, rfl, digit, later⟩ := (spells_cons_iff small).mp spelled
        rw [List.map_cons, List.map_cons, digit, ih later]
  obtain ⟨ds, -, spelled, rfl⟩ := first
  obtain ⟨ds', -, spelled', rfl⟩ := second
  have same : ds.map some = ds'.map some := (values spelled).symm.trans (values spelled')
  rw [List.map_inj_right fun _ _ => Option.some.inj] at same
  rw [same]

theorem not_denotes_of_mem (small : radix ≤ 16) (mem : c ∈ cs) (none : digit? radix c = none) :
    ¬Denotes radix cs n := by
  rintro ⟨ds, -, spelled, -⟩
  induction cs generalizing ds with
  | nil => cases mem
  | cons c' cs ih =>
      obtain ⟨d, rest, -, digit, later⟩ := (spells_cons_iff small).mp spelled
      rcases List.mem_cons.mp mem with rfl | among
      · cases none.symm.trans digit
      · exact ih among rest later

theorem not_denotes_plus (small : radix ≤ 16) (more : List Char) : ¬Denotes radix ('+' :: more) n :=
  not_denotes_of_mem small List.mem_cons_self (by simp [digit?])

theorem not_exceeds_plus (small : radix ≤ 16) (more : List Char) : ¬Exceeds radix ('+' :: more) := by
  rintro ⟨front, n, starts, denoted, -⟩
  cases front with
  | nil => exact not_denotes_nil denoted
  | cons c front =>
      obtain ⟨rfl, -⟩ := List.cons_prefix_cons.mp starts
      exact not_denotes_plus small front denoted

theorem IsNumeral.unique (small : radix ≤ 16) {m : Nat} (first : IsNumeral radix cs n) (second : IsNumeral radix cs m) :
    n = m := by
  obtain ⟨rest, left, denoted⟩ := first
  obtain ⟨rest', left', denoted'⟩ := second
  rcases left with rfl | rfl <;> rcases left' with rfl | signed
  · exact denoted.unique small denoted'
  · exact (not_denotes_plus small rest' (signed ▸ denoted)).elim
  · exact (not_denotes_plus small rest denoted').elim
  · obtain ⟨-, rfl⟩ := List.cons.inj signed
    exact denoted.unique small denoted'

theorem not_isNumeral_of_mem (small : radix ≤ 16) (mem : c ∈ cs) (none : digit? radix c = none) (unsigned : c ≠ '+') :
    ¬IsNumeral radix cs n := by
  rintro ⟨rest, rfl | rfl, denoted⟩
  · exact not_denotes_of_mem small mem none denoted
  · exact not_denotes_of_mem small ((List.mem_cons.mp mem).resolve_left unsigned) none denoted

theorem readDigits_zero_eq_ok_iff (small : radix ≤ 16) (positive : 0 < radix) (present : cs ≠ []) {v : UInt64} :
    (readDigits radix 0 cs).map UInt64.ofNat = .ok v ↔ Denotes radix cs v.toNat := by
  rw [denotes_iff]
  constructor
  · intro read
    cases digits : readDigits radix 0 cs with
    | error fault =>
        rw [digits] at read
        cases read
    | ok n =>
        rw [digits] at read
        cases read
        obtain ⟨ds, spelled, value, bound⟩ := (readDigits_eq_ok_iff small positive (by decide)).mp digits
        exact ⟨present, ds, spelled, by rw [value, UInt64.toNat_ofNat_of_lt' bound]⟩
  · rintro ⟨-, ds, spelled, value⟩
    have digits : readDigits radix 0 cs = .ok v.toNat :=
      (readDigits_eq_ok_iff small positive (by decide)).mpr ⟨ds, spelled, value, v.toNat_lt⟩
    rw [digits, Except.map, UInt64.ofNat_toNat]

/-- A numeral is read exactly if it denotes a number below `2 ^ 64`, and as that number. -/
theorem read_eq_ok_iff (small : radix ≤ 16) (positive : 0 < radix) {v : UInt64} :
    read radix cs = .ok v ↔ IsNumeral radix cs v.toNat := by
  unfold read IsNumeral
  split
  · refine ⟨nofun, ?_⟩
    rw [exists_unsigned_iff_of_ne (by simp)]
    exact fun denoted => (not_denotes_nil denoted).elim
  · refine ⟨nofun, ?_⟩
    rw [exists_unsigned_plus_iff (not_denotes_plus small)]
    exact fun denoted => (not_denotes_nil denoted).elim
  · rename_i rest some_digit
    have present : rest ≠ [] := fun none => some_digit none
    rw [readDigits_zero_eq_ok_iff small positive present, exists_unsigned_plus_iff (not_denotes_plus small)]
  · rename_i present _ unsigned
    rw [readDigits_zero_eq_ok_iff small positive present, exists_unsigned_iff_of_ne unsigned]

theorem readDigits_zero_eq_tooLarge_iff (small : radix ≤ 16) :
    readDigits radix 0 cs = .error .tooLarge ↔ Exceeds radix cs := by
  rw [readDigits_eq_tooLarge_iff small (by decide)]
  constructor
  · rintro ⟨front, ds, starts, spelled, beyond⟩
    refine ⟨front, behind radix 0 ds, starts, denotes_iff.mpr ⟨?_, ds, spelled, rfl⟩, beyond⟩
    rintro rfl
    obtain rfl := spells_nil_iff.mp spelled
    cases beyond
  · rintro ⟨front, n, starts, denoted, beyond⟩
    obtain ⟨-, ds, spelled, rfl⟩ := denotes_iff.mp denoted
    exact ⟨front, ds, starts, spelled, beyond⟩

/-- The reason for refusing a numeral: it is empty, or its number grows beyond 64 bits, or else it holds
a character that is no digit. -/
theorem fault_of_read (small : radix ≤ 16) {fault : Fault} (failed : read radix cs = .error fault) :
    (fault = .empty ↔ cs = []) ∧ (fault = .tooLarge ↔ Overruns radix cs) := by
  have mapped {rest : List Char} (failed : (readDigits radix 0 rest).map UInt64.ofNat = .error fault) :
      fault ≠ .empty ∧ (fault = .tooLarge ↔ Exceeds radix rest) := by
    cases digits : readDigits radix 0 rest with
    | ok n =>
        rw [digits] at failed
        cases failed
    | error fault' =>
        rw [digits] at failed
        cases failed
        rw [← readDigits_zero_eq_tooLarge_iff small, digits]
        exact ⟨fun empty => readDigits_ne_empty (empty ▸ digits), by simp⟩
  have exceeds_nil : ¬Exceeds radix [] := by
    rintro ⟨front, n, starts, denoted, -⟩
    obtain rfl := List.prefix_nil.mp starts
    exact not_denotes_nil denoted
  unfold read at failed
  unfold Overruns
  split at failed
  · cases failed
    rw [exists_unsigned_iff_of_ne (by simp)]
    simpa using exceeds_nil
  · cases failed
    rw [exists_unsigned_plus_iff (not_exceeds_plus small)]
    simpa using exceeds_nil
  · rw [exists_unsigned_plus_iff (not_exceeds_plus small)]
    obtain ⟨full, large⟩ := mapped failed
    exact ⟨by simp [full], large⟩
  · rename_i present _ unsigned
    rw [exists_unsigned_iff_of_ne unsigned]
    obtain ⟨full, large⟩ := mapped failed
    exact ⟨⟨fun empty => (full empty).elim, fun none => (present none).elim⟩, large⟩

/-! ## Written numbers -/

/-- The digits written for a number denote it. -/
theorem exists_toDigits_eq (base : 1 < radix) (n : Nat) :
    ∃ ds, ds ≠ [] ∧ (∀ d ∈ ds, d < radix) ∧ Nat.toDigits radix n = ds.map Nat.digitChar ∧
      Nat.ofDigits radix ds.reverse = n := by
  induction n using Nat.strongRecOn with
  | ind n ih =>
      by_cases single : n < radix
      · exact ⟨[n], by simp, by simpa using single, Nat.toDigits_of_lt_base single, by simp⟩
      · obtain ⟨ds, -, below, written, value⟩ := ih (n / radix) (Nat.div_lt_self (by omega) base)
        refine ⟨ds ++ [n % radix], by simp, ?_, ?_, ?_⟩
        · intro d mem
          rcases List.mem_append.mp mem with early | last
          · exact below d early
          · rw [List.mem_singleton.mp last]
            exact Nat.mod_lt n (by omega)
        · rw [Nat.toDigits_of_base_le base (Nat.not_lt.mp single), written, List.map_append]
          rfl
        · rw [List.reverse_append, List.reverse_singleton, List.singleton_append, Nat.ofDigits_cons, value]
          exact Nat.mod_add_div n radix

/-- The digits written for a number denote it behind any zeros and in letters of either case. -/
theorem denotes_of_lower_eq (base : 1 < radix) {zeros : Nat}
    (spelled : cs.map Char.toLower = List.replicate zeros '0' ++ Nat.toDigits radix n) : Denotes radix cs n := by
  obtain ⟨ds, some_digit, below, written, value⟩ := exists_toDigits_eq base n
  refine ⟨List.replicate zeros 0 ++ ds, by simp [some_digit], ⟨?_, ?_⟩, ?_⟩
  · intro d mem
    rcases List.mem_append.mp mem with zero | digit
    · rw [List.eq_of_mem_replicate zero]
      omega
    · exact below d digit
  · rw [spelled, written, List.map_append, List.map_replicate]
    rfl
  · rw [List.reverse_append, List.reverse_replicate, Nat.ofDigits_append_replicate_zero, value]

theorem eq_zero_of_toDigits (base : 1 < radix) (small : radix ≤ 16) {rest : List Char}
    (zero : Nat.toDigits radix n = '0' :: rest) : rest = [] ∧ n = 0 := by
  induction n using Nat.strongRecOn generalizing rest with
  | ind n ih =>
      by_cases single : n < radix
      · rw [Nat.toDigits_of_lt_base single] at zero
        obtain ⟨digit, rfl⟩ := List.cons.inj zero
        exact ⟨rfl, Nat.digitChar_eq_zero.mp digit⟩
      · rw [Nat.toDigits_of_base_le base (Nat.not_lt.mp single)] at zero
        obtain ⟨front, early⟩ : ∃ front, Nat.toDigits radix (n / radix) = '0' :: front := by
          cases written : Nat.toDigits radix (n / radix) with
          | nil => exact (Nat.toDigits_ne_nil written).elim
          | cons c front =>
              rw [written] at zero
              exact ⟨front, by rw [(List.cons.inj zero).1]⟩
        have vanishes := (ih (n / radix) (Nat.div_lt_self (by omega) base) early).2
        rw [Nat.div_eq_zero_iff] at vanishes
        omega

theorem map_toLower_toDigits (small : radix ≤ 16) (base : 1 < radix) (n : Nat) :
    (Nat.toDigits radix n).map Char.toLower = Nat.toDigits radix n := by
  obtain ⟨ds, -, below, written, -⟩ := exists_toDigits_eq base n
  rw [written, List.map_map]
  exact List.map_congr_left fun d mem => toLower_digitChar d (Nat.lt_of_lt_of_le (below d mem) small)

theorem denotes_toDigits (small : radix ≤ 16) (base : 1 < radix) (n : Nat) :
    Denotes radix (Nat.toDigits radix n) n := by
  have bare : (Nat.toDigits radix n).map Char.toLower = List.replicate 0 '0' ++ Nat.toDigits radix n :=
    map_toLower_toDigits small base n
  exact denotes_of_lower_eq base bare

/-- The decimal form of a number is read back. -/
theorem readShortest_toString (v : UInt64) : readShortest (toString v).toList = some v := by
  have written : (toString v).toList = Nat.toDigits 10 v.toNat := by
    change (toString v.toNat).toList = _
    rw [Nat.toString_eq_ofList_toDigits, String.toList_ofList]
  have present : Nat.toDigits 10 v.toNat ≠ [] := Nat.toDigits_ne_nil
  have read : (readDigits 10 0 (Nat.toDigits 10 v.toNat)).map UInt64.ofNat = .ok v :=
    (readDigits_zero_eq_ok_iff (by decide) (by decide) present).mpr (denotes_toDigits (by decide) (by decide) _)
  rw [written]
  unfold readShortest
  split
  · contradiction
  · rename_i zero
    exact (List.cons_ne_nil _ _ (eq_zero_of_toDigits (by decide) (by decide) zero).1).elim
  · cases digits : readDigits 10 0 (Nat.toDigits 10 v.toNat) with
    | error fault =>
        rw [digits] at read
        cases read
    | ok n =>
        rw [digits] at read
        exact congrArg some (Except.ok.inj read)

end Chainwatch.Text.Numeral
