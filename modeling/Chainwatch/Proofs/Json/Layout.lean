import Chainwatch.Json.Reader
import Chainwatch.Json.Writer
import Chainwatch.Proofs.Json.Order
import Chainwatch.Proofs.Text.Numeral
import Mathlib.Data.List.Sort

/-!
# What is laid out is read

A value that is laid out over lines is read from its text, with the members of its objects in the order of their names.
The text of a value ends where a comma, a line break or the end of the text follows, and the reader needs twice as much
fuel as there are characters.
-/

namespace Chainwatch

namespace Json

open Reader Writer

variable {level outer fuel : Nat} {cs rest : List Char} {j : Json}

/-! ## Strings -/

theorem digit?_digitChar : ∀ d < 16, Text.Numeral.digit? 16 (Nat.digitChar d) = some d := by
  decide +kernel

theorem hex4_control {n : Nat} (small : n < 32) (rest : List Char) :
    hex4 ('0' :: '0' :: Nat.digitChar (n / 16) :: Nat.digitChar (n % 16) :: rest) = some (n, rest) := by
  have zero : Text.Numeral.digit? 16 '0' = some 0 := digit?_digitChar 0 (by decide)
  have high := digit?_digitChar (n / 16) (by omega)
  have low := digit?_digitChar (n % 16) (by omega)
  have whole : n / 16 * 16 + n % 16 = n := by omega
  simp [hex4, zero, high, low, whole]

theorem string_escape (c : Char) (cs : List Char) :
    Reader.string (fuel + 1) (escape c ++ cs) =
      (Reader.string fuel cs).map fun (tail, rest) => (tail.map (c :: ·), rest) := by
  unfold escape
  split
  case h_8 quote slash _ _ _ _ _ =>
    split
    case isTrue control =>
      have no_high : isHigh c.toNat = false := by
        unfold isHigh
        simp
        omega
      have no_low : isLow c.toNat = false := by
        unfold isLow
        simp
        omega
      simp [Reader.string, hex4_control control, no_high, no_low, Char.ofNat_toNat]
    case isFalse bare =>
      have plain : ¬c.toNat < 32 := bare
      rw [List.singleton_append, Reader.string]
      · rw [if_neg plain]
      · exact quote
      · exact fun _ same _ => slash same
      · exact fun _ _ same _ => slash same
  all_goals
    simp [Reader.string, shortEscape?]

theorem string_quoted (cs rest : List Char) (enough : cs.length < fuel) :
    Reader.string fuel (cs.flatMap escape ++ '"' :: rest) = some (some cs, rest) := by
  induction cs generalizing fuel with
  | nil =>
      obtain ⟨fuel, rfl⟩ := Nat.exists_eq_succ_of_ne_zero (Nat.ne_of_gt enough)
      simp [Reader.string]
  | cons c cs ih =>
      obtain ⟨fuel, rfl⟩ := Nat.exists_eq_succ_of_ne_zero (Nat.ne_of_gt (Nat.zero_lt_of_lt enough))
      rw [List.flatMap_cons, List.append_assoc, string_escape, ih (Nat.lt_of_succ_lt_succ enough)]
      rfl

/-! ## Numbers -/

/-- No number continues at the beginning of the text. -/
def Closed (rest : List Char) : Prop :=
  ∀ c ∈ rest.head?, ¬c.isDigit ∧ c ≠ '.' ∧ c ≠ 'e' ∧ c ≠ 'E'

theorem closed_nil : Closed [] := nofun

theorem closed_cons {c : Char} (closing : c = ',' ∨ c = '\n') : Closed (c :: rest) := by
  rintro _ ⟨⟩
  rcases closing with rfl | rfl <;> decide

theorem isDigit_of_mem_toDigits {c : Char} {n : Nat} (mem : c ∈ Nat.toDigits 10 n) : c.isDigit :=
  Nat.isDigit_of_mem_toDigits (by decide) (by decide) mem

theorem digits_toDigits (closed : Closed rest) (n : Nat) :
    digits (Nat.toDigits 10 n ++ rest) = some (Nat.toDigits 10 n, rest) := by
  have every : ∀ c ∈ Nat.toDigits 10 n, c.isDigit := fun _ => isDigit_of_mem_toDigits
  have stops : rest.takeWhile Char.isDigit = [] ∧ rest.dropWhile Char.isDigit = rest := by
    cases rest with
    | nil => exact ⟨rfl, rfl⟩
    | cons c rest =>
        have other := (closed c rfl).1
        simp [other]
  unfold digits
  rw [List.takeWhile_append_of_pos every, List.dropWhile_append_of_pos every, stops.1, stops.2, List.append_nil]
  cases written : Nat.toDigits 10 n with
  | nil => exact (Nat.toDigits_ne_nil written).elim
  | cons d ds => rfl

theorem value_toDigits (n : Nat) : value (Nat.toDigits 10 n) = n := by
  have read := Nat.ofDigitChars_toDigits (b := 10) (n := n) (by decide) (by decide)
  simpa [value, Nat.ofDigitChars, Nat.mul_comm] using read

theorem fraction_of_closed (closed : Closed rest) : fraction rest = some (false, rest) := by
  cases rest with
  | nil => rfl
  | cons c rest =>
      have other := (closed c rfl).2.1
      unfold fraction
      split
      · rename_i same
        exact (other (List.cons.inj same).1).elim
      · rfl

theorem exponent_of_closed (closed : Closed rest) : exponent rest = some (false, rest) := by
  cases rest with
  | nil => rfl
  | cons c rest =>
      obtain ⟨-, -, small, capital⟩ := closed c rfl
      simp [exponent, small, capital]

theorem number_toDigits (closed : Closed rest) {negative : Bool} {n : Nat} (signed : negative → n ≠ 0) :
    number negative (Nat.toDigits 10 n ++ rest) = some (.integer (if negative then -(n : Int) else n), rest) := by
  have shortest : ¬(1 < (Nat.toDigits 10 n).length ∧ (Nat.toDigits 10 n).head? = some '0') := by
    rintro ⟨long, zero⟩
    obtain ⟨ds, written⟩ := List.head?_eq_some_iff.mp zero
    obtain ⟨rfl, -⟩ := Text.Numeral.eq_zero_of_toDigits (by decide) (by decide) written
    rw [written] at long
    exact Nat.lt_irrefl _ long
  have present : ¬(negative ∧ n = 0) := fun both => signed both.1 both.2
  simp [number, digits_toDigits closed, fraction_of_closed closed, exponent_of_closed closed, value_toDigits,
    shortest, present]

/-! ## Blanks -/

def gap (level : Nat) : List Char :=
  '\n' :: List.replicate (2 * level) ' '

theorem skipBlanks_gap (level : Nat) (cs : List Char) : skipBlanks (gap level ++ cs) = skipBlanks cs := by
  have blank : ∀ c ∈ gap level, (c == ' ' || c == '\n' || c == '\t' || c == '\r') = true := by
    rintro c mem
    rcases List.mem_cons.mp mem with rfl | mem
    · rfl
    · obtain rfl := List.eq_of_mem_replicate mem
      rfl
  exact List.dropWhile_append_of_pos blank

theorem readValue_gap : readValue fuel (gap level ++ cs) = readValue fuel cs := by
  cases fuel with
  | zero => rfl
  | succ fuel => rw [readValue, readValue, skipBlanks_gap]

theorem readItems_gap : readItems fuel (gap level ++ cs) = readItems fuel cs := by
  cases fuel with
  | zero => rfl
  | succ fuel => rw [readItems, readItems, readValue_gap]

theorem readMembers_gap : readMembers fuel (gap level ++ cs) = readMembers fuel cs := by
  cases fuel with
  | zero => rfl
  | succ fuel => rw [readMembers, readMembers, skipBlanks_gap]

/-- The text begins with neither a blank nor a closing bracket. -/
def Opens (cs : List Char) : Prop :=
  ∃ c rest, cs = c :: rest ∧ c ∉ [' ', '\n', '\t', '\r', ']', '}']

theorem skipBlanks_of_opens (opens : Opens cs) : skipBlanks (cs ++ rest) = cs ++ rest := by
  obtain ⟨c, cs, rfl, first⟩ := opens
  simp only [List.mem_cons, List.not_mem_nil, or_false, not_or] at first
  obtain ⟨blank, line, tab, back, -, -⟩ := first
  simp [skipBlanks, blank, line, tab, back]

/-! ## The order of the names -/

def arrange (members : List (Key × Json)) : List (Key × Json) :=
  members.mergeSort fun a b => decide (a.1.text ≤ b.1.text)

mutual

/-- The value with the members of its objects in the order of their names. -/
def inOrder : Json → Json
  | .array items => .array (inOrderItems items)
  | .object members => .object (arrange (inOrderMembers members))
  | j => j

def inOrderItems : List Json → List Json
  | [] => []
  | item :: rest => inOrder item :: inOrderItems rest

def inOrderMembers : List (Key × Json) → List (Key × Json)
  | [] => []
  | (key, item) :: rest => (key, inOrder item) :: inOrderMembers rest

end

theorem inOrderItems_eq_map (items : List Json) : inOrderItems items = items.map inOrder := by
  induction items with
  | nil => rfl
  | cons item items ih => rw [inOrderItems, ih, List.map_cons]

theorem inOrderMembers_eq_map (members : List (Key × Json)) :
    inOrderMembers members = members.map fun m => (m.1, m.2.inOrder) := by
  induction members with
  | nil => rfl
  | cons m members ih => rw [inOrderMembers, ih, List.map_cons]

theorem layoutItems_eq_map (level : Nat) (items : List Json) : layoutItems level items = items.map (layout level) := by
  induction items with
  | nil => rfl
  | cons item items ih => rw [layoutItems, ih, List.map_cons]

theorem layoutMembers_eq_map (level : Nat) (members : List (Key × Json)) :
    layoutMembers level members = members.map fun m => (m.1.text, layout level m.2) := by
  induction members with
  | nil => rfl
  | cons m members ih => rw [layoutMembers, ih, List.map_cons]

/-- To arrange members changes no more than their order. -/
theorem reorders_inOrder (ordinary : j.IsOrdinary) : j.Reorders j.inOrder := by
  induction ordinary with
  | null => exact .null
  | bool b => exact .bool b
  | integer n => exact .integer n
  | string s => exact .string s
  | array each ih =>
      rw [inOrder, inOrderItems_eq_map]
      exact .array (List.forall₂_map_right_iff.mpr (List.forall₂_same.mpr ih))
  | object bare each ih =>
      rw [inOrder, inOrderMembers_eq_map]
      refine .object ?_ ?_ (List.mergeSort_perm _ _).symm
      · simp
      · rw [List.map_map, List.forall₂_map_left_iff, List.forall₂_map_right_iff]
        exact List.forall₂_same.mpr ih

/-! ## Items and members -/

def chars (level : Nat) (j : Json) : List Char :=
  (layout level j).toList

def joined (level : Nat) (items : List (List Char)) : List Char :=
  (',' :: gap level).intercalate items

theorem joined_cons_cons (level : Nat) (x y : List Char) (zs : List (List Char)) :
    joined level (x :: y :: zs) = x ++ ',' :: (gap level ++ joined level (y :: zs)) := by
  rw [joined, List.intercalate_cons_cons]
  simp [joined]

theorem toList_block (opening closing : String) (level : Nat) {items : List String} (present : items ≠ []) :
    (block opening closing level items).toList = opening.toList ++ (gap (level + 1) ++
      (joined (level + 1) (items.map String.toList) ++ (gap level ++ closing.toList))) := by
  have some_item : ¬items.isEmpty := by simpa using present
  rw [block, if_neg some_item]
  simp [String.toList_append, String.toList_intercalate, newline, gap, joined]

/-- Whatever follows, the value is read from its text, and the rest is left. -/
def IsRead (j : Json) : Prop :=
  ∀ level fuel rest, Closed rest → 2 * (chars level j).length ≤ fuel →
    readValue fuel (chars level j ++ rest) = some (j.inOrder, rest)

theorem readItems_last (read : readValue fuel cs = some (j, gap outer ++ ']' :: rest)) :
    readItems (fuel + 1) cs = some ([j], rest) := by
  have blank : skipBlanks (gap outer ++ ']' :: rest) = ']' :: rest := skipBlanks_gap ..
  rw [readItems, read]
  simp [blank]

theorem readItems_next {items : List Json} {more : List Char}
    (read : readValue fuel cs = some (j, ',' :: (gap level ++ more)))
    (later : readItems fuel more = some (items, rest)) :
    readItems (fuel + 1) cs = some (j :: items, rest) := by
  have blank : skipBlanks (',' :: (gap level ++ more)) = ',' :: (gap level ++ more) := rfl
  rw [readItems, read]
  simp [blank, readItems_gap, later]

theorem readItems_joined {items : List Json} (present : items ≠ []) (each : ∀ item ∈ items, item.IsRead)
    (enough : 2 * (joined level (items.map (chars level))).length < fuel) :
    readItems fuel (joined level (items.map (chars level)) ++ (gap outer ++ ']' :: rest)) =
      some (items.map inOrder, rest) := by
  induction items generalizing fuel with
  | nil => contradiction
  | cons item items ih =>
      obtain ⟨fuel, rfl⟩ := Nat.exists_eq_succ_of_ne_zero (Nat.ne_of_gt (Nat.zero_lt_of_lt enough))
      obtain ⟨here, later⟩ := List.forall_mem_cons.mp each
      match items with
      | [] =>
          have alone : joined level ([item].map (chars level)) = chars level item := List.intercalate_singleton
          rw [alone] at enough ⊢
          exact readItems_last (here level fuel _ (closed_cons (Or.inr rfl)) (Nat.le_of_lt_succ enough))
      | next :: items =>
          have first : joined level ((item :: next :: items).map (chars level)) =
              chars level item ++ ',' :: (gap level ++ joined level ((next :: items).map (chars level))) :=
            joined_cons_cons ..
          rw [first, List.length_append, List.length_cons, List.length_append] at enough
          rw [first, List.append_assoc, List.cons_append, List.append_assoc]
          have fits : 2 * (chars level item).length ≤ fuel := by omega
          have fits' : 2 * (joined level ((next :: items).map (chars level))).length < fuel := by omega
          exact readItems_next (here level fuel _ (closed_cons (Or.inl rfl)) fits)
            (ih (List.cons_ne_nil _ _) later fits')

theorem Key.IsBare.flatMap_escape {key : Key} (bare : key.IsBare) :
    key.text.toList.flatMap escape = key.text.toList := by
  rw [List.flatMap_congr bare.2, List.flatMap_singleton']

theorem Key.IsBare.all_takeWhile {key : Key} (bare : key.IsBare) (more : List Char) :
    ((key.text.toList ++ '"' :: more).takeWhile (· != '"')).all (· != '\\') := by
  have differs (d : Char) (escaped : escape d ≠ [d]) : ∀ c ∈ key.text.toList, (c != d) = true := by
    intro c mem
    rw [bne_iff_ne]
    rintro rfl
    exact escaped (bare.2 c mem)
  rw [List.takeWhile_append_of_pos (differs '"' (by decide))]
  simpa using differs '\\' (by decide)

def nameChars (key : Key) (cs : List Char) : List Char :=
  '"' :: (key.text.toList.flatMap escape ++ '"' :: ':' :: ' ' :: cs)

theorem string_name {key : Key} (bare : key.IsBare) (cs : List Char) :
    Reader.string ((key.text.toList ++ '"' :: cs).length + 1) (key.text.toList ++ '"' :: cs) =
      some (some key.text.toList, cs) := by
  have long : key.text.toList.length < (key.text.toList ++ '"' :: cs).length + 1 := by
    rw [List.length_append]
    omega
  have quoted := string_quoted key.text.toList cs long
  rwa [bare.flatMap_escape] at quoted

theorem Key.IsBare.ofList_eq {key : Key} (bare : key.IsBare) : (⟨String.ofList key.text.toList, true⟩ : Key) = key := by
  cases key
  simpa using bare.1.symm

theorem readValue_blank : readValue fuel (' ' :: cs) = readValue fuel cs := by
  cases fuel with
  | zero => rfl
  | succ fuel =>
      rw [readValue, readValue]
      rfl

theorem readMembers_last {key : Key} (bare : key.IsBare)
    (read : readValue fuel cs = some (j, gap outer ++ '}' :: rest)) :
    readMembers (fuel + 1) (nameChars key cs) = some (some [(key, j)], rest) := by
  have opening : skipBlanks (nameChars key cs) = nameChars key cs := rfl
  have colon : skipBlanks (':' :: ' ' :: cs) = ':' :: ' ' :: cs := rfl
  have blank : skipBlanks (gap outer ++ '}' :: rest) = '}' :: rest := skipBlanks_gap ..
  rw [readMembers, opening, nameChars, bare.flatMap_escape]
  simp only [string_name bare, Option.bind_eq_bind, Option.bind_some, colon, readValue_blank, read, blank,
    bare.all_takeWhile, bare.ofList_eq, Option.map_some]

theorem readMembers_next {key : Key} (bare : key.IsBare) {members : List (Key × Json)} {more : List Char}
    (read : readValue fuel cs = some (j, ',' :: (gap level ++ more)))
    (later : readMembers fuel more = some (some members, rest)) :
    readMembers (fuel + 1) (nameChars key cs) = some (some ((key, j) :: members), rest) := by
  have opening : skipBlanks (nameChars key cs) = nameChars key cs := rfl
  have colon : skipBlanks (':' :: ' ' :: cs) = ':' :: ' ' :: cs := rfl
  have blank : skipBlanks (',' :: (gap level ++ more)) = ',' :: (gap level ++ more) := rfl
  rw [readMembers, opening, nameChars, bare.flatMap_escape]
  simp only [string_name bare, Option.bind_eq_bind, Option.bind_some, colon, readValue_blank, read, blank,
    readMembers_gap, later, bare.all_takeWhile, bare.ofList_eq, Option.map_some]

def memberChars (level : Nat) (m : Key × Json) : List Char :=
  nameChars m.1 (chars level m.2)

theorem memberChars_append (level : Nat) (m : Key × Json) (cs : List Char) :
    memberChars level m ++ cs = nameChars m.1 (chars level m.2 ++ cs) := by
  simp [memberChars, nameChars]

theorem length_chars_lt (level : Nat) (m : Key × Json) : (chars level m.2).length < (memberChars level m).length := by
  simp only [memberChars, nameChars, List.length_cons, List.length_append]
  omega

theorem readMembers_joined {members : List (Key × Json)} (present : members ≠ [])
    (bare : ∀ m ∈ members, m.1.IsBare) (each : ∀ m ∈ members, m.2.IsRead)
    (enough : 2 * (joined level (members.map (memberChars level))).length < fuel) :
    readMembers fuel (joined level (members.map (memberChars level)) ++ (gap outer ++ '}' :: rest)) =
      some (some (members.map fun m => (m.1, m.2.inOrder)), rest) := by
  induction members generalizing fuel with
  | nil => contradiction
  | cons m members ih =>
      obtain ⟨fuel, rfl⟩ := Nat.exists_eq_succ_of_ne_zero (Nat.ne_of_gt (Nat.zero_lt_of_lt enough))
      obtain ⟨bareHere, bareLater⟩ := List.forall_mem_cons.mp bare
      obtain ⟨here, later⟩ := List.forall_mem_cons.mp each
      have shorter := length_chars_lt level m
      match members with
      | [] =>
          have alone : joined level ([m].map (memberChars level)) = memberChars level m := List.intercalate_singleton
          rw [alone] at enough ⊢
          have fits : 2 * (chars level m.2).length ≤ fuel := by omega
          rw [memberChars_append]
          exact readMembers_last bareHere (here level fuel _ (closed_cons (Or.inr rfl)) fits)
      | next :: members =>
          have first : joined level ((m :: next :: members).map (memberChars level)) =
              memberChars level m ++ ',' :: (gap level ++ joined level ((next :: members).map (memberChars level))) :=
            joined_cons_cons ..
          rw [first, List.length_append, List.length_cons, List.length_append] at enough
          have fits : 2 * (chars level m.2).length ≤ fuel := by omega
          have fits' : 2 * (joined level ((next :: members).map (memberChars level))).length < fuel := by omega
          rw [first, List.append_assoc, List.cons_append, List.append_assoc, memberChars_append]
          exact readMembers_next bareHere (here level fuel _ (closed_cons (Or.inl rfl)) fits)
            (ih (List.cons_ne_nil _ _) bareLater later fits')

/-! ## Values -/

theorem toList_block_nil (opening closing : String) (level : Nat) :
    (block opening closing level []).toList = opening.toList ++ closing.toList :=
  String.toList_append

theorem chars_array_nil (level : Nat) : chars level (.array []) = ['[', ']'] := by
  rw [chars, layout, layoutItems, toList_block_nil]
  rfl

theorem chars_object_nil (level : Nat) : chars level (.object []) = ['{', '}'] := by
  rw [chars, layout, layoutMembers, sorted, List.mergeSort_nil, List.map_nil, toList_block_nil]
  rfl

theorem chars_array {items : List Json} (present : items ≠ []) :
    chars level (.array items) = '[' :: (gap (level + 1) ++
      (joined (level + 1) (items.map (chars (level + 1))) ++ (gap level ++ [']']))) := by
  have some_item : items.map (layout (level + 1)) ≠ [] := by simpa using present
  rw [chars, layout, layoutItems_eq_map, toList_block _ _ _ some_item, List.map_map]
  rfl

theorem toList_member (level : Nat) (m : Key × Json) :
    (quote m.1.text ++ ": " ++ layout level m.2).toList = memberChars level m := by
  simp [String.toList_append, quote, memberChars, nameChars, chars]

theorem chars_object {members : List (Key × Json)} (present : members ≠ []) :
    chars level (.object members) = '{' :: (gap (level + 1) ++
      (joined (level + 1) ((arrange members).map (memberChars (level + 1))) ++ (gap level ++ ['}']))) := by
  have sort : sorted (members.map fun m => (m.1.text, layout (level + 1) m.2)) =
      (arrange members).map fun m => (m.1.text, layout (level + 1) m.2) :=
    (List.map_mergeSort (f := fun m : Key × Json => (m.1.text, layout (level + 1) m.2)) fun _ _ _ _ => rfl).symm
  have some_member : arrange members ≠ [] := by
    intro none
    exact present (List.Perm.eq_nil (none ▸ (List.mergeSort_perm _ _).symm))
  rw [chars, layout, layoutMembers_eq_map, sort, toList_block _ _ _ (by simpa using some_member), List.map_map,
    List.map_map]
  refine congrArg (fun items => '{' :: (gap (level + 1) ++ (joined (level + 1) items ++ (gap level ++ ['}'])))) ?_
  exact List.map_congr_left fun m _ => toList_member (level + 1) m

theorem arrange_inOrderMembers (members : List (Key × Json)) :
    arrange (inOrderMembers members) = (arrange members).map fun m => (m.1, m.2.inOrder) := by
  rw [inOrderMembers_eq_map]
  exact (List.map_mergeSort (f := fun m : Key × Json => (m.1, m.2.inOrder)) fun _ _ _ _ => rfl).symm

theorem readValue_of_isDigit {c : Char} (digit : c.isDigit) :
    readValue (fuel + 1) (c :: cs) = number false (c :: cs) := by
  have other (d : Char) (none : ¬d.isDigit) : c ≠ d := by
    rintro rfl
    exact none digit
  have blank : skipBlanks (c :: cs) = c :: cs := by
    simp [skipBlanks, other ' ' (by decide), other '\n' (by decide), other '\t' (by decide), other '\r' (by decide)]
  rw [readValue, blank]
  split
  case h_8 => rfl
  all_goals
    rename_i same
    exact (other _ (by decide) (List.cons.inj same).1).elim

theorem exists_succ_of_enough {c : Char} (enough : 2 * (c :: cs).length ≤ fuel) : ∃ more, fuel = more + 1 :=
  Nat.exists_eq_succ_of_ne_zero (Nat.ne_of_gt (Nat.lt_of_lt_of_le (by simp) enough))

theorem isRead_integer (n : Int) : (integer n).IsRead := by
  intro level fuel rest closed enough
  cases n with
  | ofNat n =>
      have text : chars level (.integer (.ofNat n)) = Nat.toDigits 10 n := Nat.toList_repr
      rw [text] at enough ⊢
      have read : number false (Nat.toDigits 10 n ++ rest) = some (.integer n, rest) := number_toDigits closed nofun
      cases written : Nat.toDigits 10 n with
      | nil => exact (Nat.toDigits_ne_nil written).elim
      | cons d ds =>
          have digit : d.isDigit := isDigit_of_mem_toDigits (written ▸ List.mem_cons_self)
          rw [written] at enough read
          obtain ⟨fuel, rfl⟩ := exists_succ_of_enough enough
          rw [List.cons_append, readValue_of_isDigit digit]
          exact read
  | negSucc n =>
      have text : chars level (.integer (.negSucc n)) = '-' :: Nat.toDigits 10 (n + 1) := by
        change ("-" ++ (n + 1).repr).toList = _
        rw [String.toList_append, Nat.toList_repr]
        rfl
      rw [text] at enough ⊢
      obtain ⟨fuel, rfl⟩ := exists_succ_of_enough enough
      have blank (cs : List Char) : skipBlanks ('-' :: cs) = '-' :: cs := rfl
      rw [List.cons_append, readValue, blank]
      exact number_toDigits closed fun _ => Nat.succ_ne_zero n

theorem chars_string (level : Nat) (text : String) :
    chars level (.string text) = '"' :: (text.toList.flatMap escape ++ ['"']) := by
  simp [chars, layout, quote]

theorem escape_ne_nil (c : Char) : escape c ≠ [] := by
  unfold escape
  split <;> try split
  all_goals nofun

theorem length_le_flatMap_escape (cs : List Char) : cs.length ≤ (cs.flatMap escape).length := by
  induction cs with
  | nil => exact Nat.le_refl _
  | cons c cs ih =>
      have positive := List.length_pos_iff.mpr (escape_ne_nil c)
      rw [List.flatMap_cons, List.length_append, List.length_cons]
      omega

theorem isRead_string (text : String) : (Json.string text).IsRead := by
  intro level fuel rest closed enough
  rw [chars_string] at enough ⊢
  obtain ⟨fuel, rfl⟩ := exists_succ_of_enough enough
  have blank (cs : List Char) : skipBlanks ('"' :: cs) = '"' :: cs := rfl
  have long : text.toList.length < (text.toList.flatMap escape ++ '"' :: rest).length + 1 := by
    have kept := length_le_flatMap_escape text.toList
    rw [List.length_append]
    omega
  have quoted := string_quoted text.toList rest long
  rw [List.cons_append, List.append_assoc, List.singleton_append, readValue, blank]
  simp only [quoted, Option.map_some, String.ofList_toList]
  rfl

/-! ## Brackets -/

theorem opens_toDigits (n : Nat) : Opens (Nat.toDigits 10 n) := by
  have other : ∀ d ∈ [' ', '\n', '\t', '\r', ']', '}'], ¬d.isDigit := by simp
  cases written : Nat.toDigits 10 n with
  | nil => exact (Nat.toDigits_ne_nil written).elim
  | cons d ds =>
      have digit : d.isDigit := isDigit_of_mem_toDigits (written ▸ List.mem_cons_self)
      exact ⟨d, ds, rfl, fun mem => other d mem digit⟩

theorem opens_cons {c : Char} (first : c ∉ [' ', '\n', '\t', '\r', ']', '}']) (cs : List Char) : Opens (c :: cs) :=
  ⟨c, cs, rfl, first⟩

theorem Opens.append (opens : Opens cs) (rest : List Char) : Opens (cs ++ rest) := by
  obtain ⟨c, cs, rfl, first⟩ := opens
  exact ⟨c, cs ++ rest, rfl, first⟩

theorem opens_joined {x : List Char} (opens : Opens x) (level : Nat) (xs : List (List Char)) :
    Opens (joined level (x :: xs)) := by
  cases xs with
  | nil => rwa [joined, List.intercalate_singleton]
  | cons y xs =>
      rw [joined_cons_cons]
      exact opens.append _

theorem opens_chars (ordinary : j.IsOrdinary) (level : Nat) : Opens (chars level j) := by
  cases ordinary with
  | null =>
      rw [chars, layout]
      exact opens_cons (by decide) _
  | bool b =>
      rw [chars, layout]
      cases b <;> exact opens_cons (by decide) _
  | integer n =>
      rw [chars, layout]
      cases n with
      | ofNat n =>
          have written : (toString (Int.ofNat n)).toList = Nat.toDigits 10 n := Nat.toList_repr
          rw [written]
          exact opens_toDigits n
      | negSucc n =>
          change Opens ("-" ++ (n + 1).repr).toList
          rw [String.toList_append]
          exact opens_cons (by decide) _
  | string text =>
      rw [chars_string]
      exact opens_cons (by decide) _
  | @array items each =>
      by_cases present : items = []
      · subst present
        rw [chars_array_nil]
        exact opens_cons (by decide) _
      · rw [chars_array present]
        exact opens_cons (by decide) _
  | @object members bare each =>
      by_cases present : members = []
      · subst present
        rw [chars_object_nil]
        exact opens_cons (by decide) _
      · rw [chars_object present]
        exact opens_cons (by decide) _

theorem readValue_array (opens : Opens cs) : readValue (fuel + 1) ('[' :: (gap level ++ (cs ++ rest))) =
    (readItems fuel (cs ++ rest)).map fun (items, rest) => (.array items, rest) := by
  have blank (cs : List Char) : skipBlanks ('[' :: cs) = '[' :: cs := rfl
  rw [readValue, blank]
  simp only [skipBlanks_gap, skipBlanks_of_opens opens]
  obtain ⟨c, cs, rfl, first⟩ := opens
  split
  · rename_i same
    obtain ⟨rfl, -⟩ := List.cons.inj same
    exact (first (by decide)).elim
  · rfl

theorem readValue_object (opens : Opens cs) : readValue (fuel + 1) ('{' :: (gap level ++ (cs ++ rest))) =
    (readMembers fuel (cs ++ rest)).map fun (members, rest) =>
      match members with
      | some members => (.object members, rest)
      | none => (.unpaired, rest) := by
  have blank (cs : List Char) : skipBlanks ('{' :: cs) = '{' :: cs := rfl
  rw [readValue, blank]
  simp only [skipBlanks_gap, skipBlanks_of_opens opens]
  obtain ⟨c, cs, rfl, first⟩ := opens
  split
  · rename_i same
    obtain ⟨rfl, -⟩ := List.cons.inj same
    exact (first (by decide)).elim
  · rfl

theorem isRead_array {items : List Json} (ordinary : ∀ item ∈ items, item.IsOrdinary)
    (each : ∀ item ∈ items, item.IsRead) : (array items).IsRead := by
  intro level fuel rest closed enough
  cases items with
  | nil =>
      rw [chars_array_nil] at enough ⊢
      obtain ⟨fuel, rfl⟩ := exists_succ_of_enough enough
      have blank : skipBlanks ('[' :: ']' :: rest) = '[' :: ']' :: rest := rfl
      have blank' : skipBlanks (']' :: rest) = ']' :: rest := rfl
      rw [List.cons_append, List.cons_append, List.nil_append, readValue, blank]
      simp only [blank', inOrder, inOrderItems]
  | cons item items =>
      have present : item :: items ≠ [] := List.cons_ne_nil _ _
      rw [chars_array present] at enough ⊢
      simp only [List.length_cons, List.length_append] at enough
      obtain ⟨fuel, rfl⟩ := Nat.exists_eq_succ_of_ne_zero (n := fuel) (by omega)
      have opens : Opens (joined (level + 1) ((item :: items).map (chars (level + 1)))) :=
        opens_joined (opens_chars (ordinary item List.mem_cons_self) (level + 1)) ..
      have fits : 2 * (joined (level + 1) ((item :: items).map (chars (level + 1)))).length < fuel := by omega
      rw [List.cons_append, List.append_assoc, List.append_assoc, List.append_assoc, List.singleton_append,
        readValue_array opens, readItems_joined present each fits, inOrder, inOrderItems_eq_map]
      rfl

theorem isRead_object {members : List (Key × Json)} (bare : ∀ m ∈ members, m.1.IsBare)
    (each : ∀ m ∈ members, m.2.IsRead) : (object members).IsRead := by
  intro level fuel rest closed enough
  by_cases present : members = []
  · subst present
    rw [chars_object_nil] at enough ⊢
    obtain ⟨fuel, rfl⟩ := exists_succ_of_enough enough
    have blank : skipBlanks ('{' :: '}' :: rest) = '{' :: '}' :: rest := rfl
    have blank' : skipBlanks ('}' :: rest) = '}' :: rest := rfl
    rw [List.cons_append, List.cons_append, List.nil_append, readValue, blank]
    simp only [blank', inOrder, inOrderMembers, arrange, List.mergeSort_nil]
  · have order : (arrange members).Perm members := List.mergeSort_perm _ _
    have present' : arrange members ≠ [] := fun none => present (List.Perm.eq_nil (none ▸ order.symm))
    rw [chars_object present] at enough ⊢
    simp only [List.length_cons, List.length_append] at enough
    obtain ⟨fuel, rfl⟩ := Nat.exists_eq_succ_of_ne_zero (n := fuel) (by omega)
    have fits : 2 * (joined (level + 1) ((arrange members).map (memberChars (level + 1)))).length < fuel := by omega
    have bare' : ∀ m ∈ arrange members, m.1.IsBare := fun m mem => bare m (order.mem_iff.mp mem)
    have each' : ∀ m ∈ arrange members, m.2.IsRead := fun m mem => each m (order.mem_iff.mp mem)
    have opens : Opens (joined (level + 1) ((arrange members).map (memberChars (level + 1)))) := by
      obtain ⟨m, ms, arranged⟩ := List.exists_cons_of_ne_nil present'
      rw [arranged, List.map_cons]
      exact opens_joined (opens_cons (by decide) _) _ _
    rw [List.cons_append, List.append_assoc, List.append_assoc, List.append_assoc, List.singleton_append,
      readValue_object opens, readMembers_joined present' bare' each' fits, inOrder, arrange_inOrderMembers]
    rfl

/-! ## The whole -/

theorem isRead_of_isOrdinary (ordinary : j.IsOrdinary) : j.IsRead := by
  induction ordinary with
  | null =>
      intro level fuel rest closed enough
      rw [chars, layout] at enough ⊢
      obtain ⟨fuel, rfl⟩ := exists_succ_of_enough enough
      rfl
  | bool b =>
      intro level fuel rest closed enough
      rw [chars, layout] at enough ⊢
      cases b <;>
        · obtain ⟨fuel, rfl⟩ := exists_succ_of_enough enough
          rfl
  | integer n => exact isRead_integer n
  | string text => exact isRead_string text
  | array ordinary ih => exact isRead_array ordinary ih
  | object bare _ ih => exact isRead_object bare ih

/-- What is laid out is read, with the members of its objects in the order of their names. -/
theorem read_pretty (ordinary : j.IsOrdinary) : read (pretty j) = some j.inOrder := by
  have whole := isRead_of_isOrdinary ordinary 0 (2 * (pretty j).toList.length + 2) [] closed_nil
    (Nat.le_add_right _ _)
  rw [List.append_nil] at whole
  change readValue _ (pretty j).toList = some (j.inOrder, []) at whole
  simp only [read, whole, Option.bind_eq_bind, Option.bind_some]
  rfl

end Json

end Chainwatch
