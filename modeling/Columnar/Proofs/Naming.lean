import Columnar.Proofs.DerivedTable
import Mathlib.Data.List.Chain

/-!
# Names in either style

A name that is written with capitals is found again from its form with underscores
(`AliasStrategy.camel_snake`), and one written with underscores from its form with capitals
(`AliasStrategy.snake_camel`). So a column is selected under the other form of its key
(`Table.resolveAlias_otherStyle`), unless that form names a column itself.
-/

namespace Columnar

namespace Text

/-! ### Lower case of ASCII characters -/

theorem lowerChar_ascii {c : Char} (h : c.toNat < 0x80) : lowerChar c = [c.toLower] := by
  have hall : ∀ n < 0x80, lowerChar (Char.ofNat n) = [(Char.ofNat n).toLower] := by decide +kernel
  have hc := hall c.toNat h
  rwa [Char.ofNat_toNat] at hc

theorem lowerFrom_ascii {cs : List Char} (before : List Char) (h : ∀ c ∈ cs, c.toNat < 0x80) :
    lowerFrom before cs = cs.map Char.toLower := by
  induction cs generalizing before with
  | nil => rfl
  | cons c cs ih =>
    obtain ⟨hc, hcs⟩ := List.forall_mem_cons.mp h
    have hsigma : ¬ (c.toNat == 0x3a3) = true := by
      rw [beq_iff_eq]
      omega
    rw [lowerFrom, if_neg hsigma, lowerChar_ascii hc, ih _ hcs]
    rfl

end Text

namespace AliasStrategy

/-! ### Letters -/

theorem toNat_lt_of_isLower {c : Char} (h : c.isLower = true) : c.toNat < 0x80 := by
  have hz : c.toNat ≤ 122 := of_decide_eq_true (Bool.and_eq_true_iff.mp h).2
  omega

theorem toNat_lt_of_isUpper {c : Char} (h : c.isUpper = true) : c.toNat < 0x80 := by
  have hz : c.toNat ≤ 90 := (of_decide_eq_true h).2
  omega

theorem toNat_lt_of_isDigit {c : Char} (h : c.isDigit = true) : c.toNat < 0x80 := by
  have hnine : c.toNat ≤ 57 := of_decide_eq_true (Bool.and_eq_true_iff.mp h).2
  omega

theorem toLower_eq {c : Char} (h : c.isUpper = false) : c.toLower = c :=
  dif_neg (of_decide_eq_false h)

/-- The capital of a lower-case letter. -/
theorem capital_isLower {d : Char} (h : d.isLower = true) :
    (Char.ofNat (d.toNat - 32)).isUpper = true ∧ (Char.ofNat (d.toNat - 32)).toLower = d := by
  have hall : ∀ n < 0x80, (Char.ofNat n).isLower = true →
      (Char.ofNat (n - 32)).isUpper = true ∧ (Char.ofNat (n - 32)).toLower = Char.ofNat n := by
    decide +kernel
  have hd := hall d.toNat (toNat_lt_of_isLower h)
  rw [Char.ofNat_toNat] at hd
  exact hd h

/-- The lower-case letter of a capital. -/
theorem toLower_isUpper {c : Char} (h : c.isUpper = true) :
    c.toLower.isLower = true ∧ Char.ofNat (c.toLower.toNat - 32) = c := by
  have hall : ∀ n < 0x80, (Char.ofNat n).isUpper = true → (Char.ofNat n).toLower.isLower = true ∧
      Char.ofNat ((Char.ofNat n).toLower.toNat - 32) = Char.ofNat n := by
    decide +kernel
  have hc := hall c.toNat (toNat_lt_of_isUpper h)
  rw [Char.ofNat_toNat] at hc
  exact hc h

theorem isLower_of_isUpper {c : Char} (h : c.isUpper = true) : c.isLower = false := by
  have hz : c.toNat ≤ 90 := (of_decide_eq_true h).2
  refine Bool.eq_false_iff.mpr fun hlower ↦ ?_
  have ha : 97 ≤ c.toNat := of_decide_eq_true (Bool.and_eq_true_iff.mp hlower).1
  omega

/-! ### Capitals -/

/-- No underscore has a lower-case letter directly behind it. -/
def Settled (cs : List Char) : Prop := cs.IsChain fun c d ↦ c = '_' → d.isLower = false

instance (cs : List Char) : Decidable (Settled cs) := inferInstanceAs (Decidable (List.IsChain ..))

theorem joins_iff {c d : Char} :
    (c == '_' && 'a' ≤ d && d ≤ 'z') = true ↔ c = '_' ∧ d.isLower = true := by
  rw [Bool.and_assoc, Bool.and_eq_true, beq_iff_eq]
  rfl

theorem camel_cons_cons (c d : Char) (cs : List Char) : camel (c :: d :: cs) =
    if c = '_' ∧ d.isLower = true then Char.ofNat (d.toNat - 32) :: camel cs
    else c :: camel (d :: cs) := by
  rw [camel]
  exact if_congr joins_iff rfl rfl

/-- A character stays where it is no underscore before a lower-case letter. -/
theorem camel_cons {c : Char} {cs : List Char}
    (h : ∀ d ∈ cs.head?, c = '_' → d.isLower = false) : camel (c :: cs) = c :: camel cs := by
  cases cs with
  | nil => rfl
  | cons d cs =>
    rw [camel_cons_cons, if_neg]
    rintro ⟨hc, hd⟩
    rw [h d rfl hc] at hd
    cases hd

theorem camel_underscore {d : Char} (h : d.isLower = true) (cs : List Char) :
    camel ('_' :: d :: cs) = Char.ofNat (d.toNat - 32) :: camel cs := by
  rw [camel_cons_cons, if_pos ⟨rfl, h⟩]

/-- Characters with nothing to join stay as they are. -/
theorem camel_of_settled {cs : List Char} (h : Settled cs) : camel cs = cs := by
  induction cs with
  | nil => rfl
  | cons c cs ih =>
    obtain ⟨hhead, hcs⟩ := List.isChain_cons.mp h
    rw [camel_cons hhead, ih hcs]

/-- In capitals a name begins as before or with a capital. -/
theorem isLower_head?_camel {cs : List Char} (h : ∀ d ∈ cs.head?, d.isLower = false) :
    ∀ d ∈ (camel cs).head?, d.isLower = false := by
  fun_cases camel cs with
  | case1 => exact h
  | case2 c => exact h
  | case3 c d cs hjoin =>
    rintro _ ⟨rfl⟩
    exact isLower_of_isUpper (capital_isLower (joins_iff.mp hjoin).2).1
  | case4 c d cs hjoin => exact h

/-- In capitals nothing is left to join. -/
theorem settled_camel (cs : List Char) : Settled (camel cs) := by
  fun_induction camel cs with
  | case1 => exact .nil
  | case2 c => exact .singleton c
  | case3 c d cs hjoin ih =>
    refine List.isChain_cons.mpr ⟨fun e _ hunderscore ↦ ?_, ih⟩
    have hupper := (capital_isLower (joins_iff.mp hjoin).2).1
    rw [hunderscore] at hupper
    cases hupper
  | case4 c d cs hjoin ih =>
    refine List.isChain_cons.mpr ⟨fun e he hunderscore ↦ ?_, ih⟩
    refine isLower_head?_camel ?_ e he
    rintro _ ⟨rfl⟩
    exact Bool.eq_false_iff.mpr fun hd ↦ hjoin (joins_iff.mpr ⟨hunderscore, hd⟩)

/-! ### Underscores -/

/-- Characters in lower case, with an underscore put in front of each that was a capital. -/
def snake (cs : List Char) : List Char := (underscored cs).map Char.toLower

theorem isUpper_iff {c : Char} : ('A' ≤ c && c ≤ 'Z') = true ↔ c.isUpper = true := by
  change _ ↔ decide (65 ≤ c.val ∧ c.val ≤ 90) = true
  rw [Bool.and_eq_true, decide_eq_true_eq, decide_eq_true_eq, decide_eq_true_eq]
  rfl

theorem snake_cons_isUpper {c : Char} (h : c.isUpper = true) (cs : List Char) :
    snake (c :: cs) = '_' :: c.toLower :: snake cs := by
  have hunderscored : underscored (c :: cs) = '_' :: c :: underscored cs := by
    rw [underscored, List.flatMap_cons, if_pos (isUpper_iff.mpr h)]
    rfl
  rw [snake, hunderscored]
  rfl

theorem snake_cons {c : Char} (h : c.isUpper = false) (cs : List Char) :
    snake (c :: cs) = c :: snake cs := by
  have hunderscored : underscored (c :: cs) = c :: underscored cs := by
    rw [underscored, List.flatMap_cons, if_neg fun hc ↦ Bool.eq_false_iff.mp h (isUpper_iff.mp hc)]
    rfl
  rw [snake, hunderscored, List.map_cons, toLower_eq h]
  rfl

/-- A name without an underscore before a lower-case letter is found again from underscores. -/
theorem camel_snake {cs : List Char} (h : Settled cs) : camel (snake cs) = cs := by
  induction cs with
  | nil => rfl
  | cons c cs ih =>
    obtain ⟨hhead, hcs⟩ := List.isChain_cons.mp h
    cases hc : c.isUpper
    · rw [snake_cons hc, camel_cons, ih hcs]
      -- what follows begins with an underscore or as before, so that no underscore is joined
      cases cs with
      | nil => exact fun e he ↦ by cases he
      | cons d cs =>
        cases hd : d.isUpper
        · rw [snake_cons hd]
          rintro _ ⟨rfl⟩
          exact hhead d rfl
        · rw [snake_cons_isUpper hd]
          rintro _ ⟨rfl⟩ -
          rfl
    · obtain ⟨hlower, hcapital⟩ := toLower_isUpper hc
      rw [snake_cons_isUpper hc, camel_underscore hlower, hcapital, ih hcs]

/-- A name without capitals is found again from capitals. -/
theorem snake_camel {cs : List Char} (h : ∀ c ∈ cs, c.isUpper = false) :
    snake (camel cs) = cs := by
  fun_induction camel cs with
  | case1 => rfl
  | case2 c => exact snake_cons (h c List.mem_cons_self) []
  | case3 c d cs hjoin ih =>
    obtain ⟨rfl, hd⟩ := joins_iff.mp hjoin
    obtain ⟨hupper, hsmall⟩ := capital_isLower hd
    rw [snake_cons_isUpper hupper, hsmall,
      ih fun e he ↦ h e (List.mem_cons_of_mem _ (List.mem_cons_of_mem _ he))]
  | case4 c d cs hjoin ih =>
    rw [snake_cons (h c List.mem_cons_self), ih fun e he ↦ h e (List.mem_cons_of_mem _ he)]

/-! ### Names -/

/-- A name of ASCII letters, digits and underscores in which no underscore is directly followed by a
lower-case letter. -/
structure InCapitals (name : String) : Prop where
  chars : ∀ c ∈ name.toList, (c.isAlphanum || c == '_') = true
  settled : Settled name.toList

/-- A name of lower-case ASCII letters, digits and underscores. -/
def InUnderscores (name : String) : Prop :=
  ∀ c ∈ name.toList, (c.isLower || c.isDigit || c == '_') = true

instance (name : String) : Decidable (InUnderscores name) :=
  decidable_of_iff (name.toList.all fun c ↦ c.isLower || c.isDigit || c == '_') List.all_eq_true

instance (name : String) : Decidable (InCapitals name) :=
  decidable_of_iff
    ((name.toList.all fun c ↦ c.isAlphanum || c == '_') = true ∧ Settled name.toList)
    ⟨fun h ↦ ⟨List.all_eq_true.mp h.1, h.2⟩, fun h ↦ ⟨List.all_eq_true.mpr h.chars, h.settled⟩⟩

theorem toNat_lt_of_isAlphanum {c : Char} (h : (c.isAlphanum || c == '_') = true) :
    c.toNat < 0x80 := by
  change (((c.isUpper || c.isLower) || c.isDigit) || c == '_') = true at h
  simp only [Bool.or_eq_true, beq_iff_eq] at h
  rcases h with ((h | h) | h) | rfl
  · exact toNat_lt_of_isUpper h
  · exact toNat_lt_of_isLower h
  · exact toNat_lt_of_isDigit h
  · decide

theorem toSnakeCase_eq {name : String} (h : ∀ c ∈ name.toList, c.toNat < 0x80) :
    toSnakeCase name = String.ofList (snake name.toList) := by
  have hunderscored : ∀ c ∈ underscored name.toList, c.toNat < 0x80 := by
    intro c hc
    obtain ⟨d, hd, hc⟩ := List.mem_flatMap.mp hc
    split at hc
    · rcases List.mem_pair.mp hc with rfl | rfl
      · decide
      · exact h c hd
    · rw [List.mem_singleton.mp hc]
      exact h d hd
  rw [toSnakeCase, Text.lower, String.toList_ofList, Text.lowerFrom_ascii [] hunderscored, snake]

/-- The form with underscores leads back to a name in capitals. -/
theorem toCamelCase_toSnakeCase {name : String} (h : InCapitals name) :
    toCamelCase (toSnakeCase name) = name := by
  rw [toSnakeCase_eq fun c hc ↦ toNat_lt_of_isAlphanum (h.chars c hc), toCamelCase,
    String.toList_ofList, camel_snake h.settled, String.ofList_toList]

/-- What a name with underscores is made of is ASCII and no capital. -/
theorem isUpper_of_inUnderscores {c : Char} (h : (c.isLower || c.isDigit || c == '_') = true) :
    c.toNat < 0x80 ∧ c.isUpper = false := by
  simp only [Bool.or_eq_true, beq_iff_eq] at h
  rcases h with (h | h) | rfl
  · refine ⟨toNat_lt_of_isLower h, Bool.eq_false_iff.mpr fun hupper ↦ ?_⟩
    rw [isLower_of_isUpper hupper] at h
    cases h
  · refine ⟨toNat_lt_of_isDigit h, Bool.eq_false_iff.mpr fun hupper ↦ ?_⟩
    have ha : 65 ≤ c.toNat := (of_decide_eq_true hupper).1
    have hnine : c.toNat ≤ 57 := of_decide_eq_true (Bool.and_eq_true_iff.mp h).2
    omega
  · decide

theorem toNat_lt_of_mem_camel {cs : List Char} (h : ∀ c ∈ cs, c.toNat < 0x80) :
    ∀ c ∈ camel cs, c.toNat < 0x80 := by
  fun_induction camel cs with
  | case1 => exact h
  | case2 c => exact h
  | case3 c d cs hjoin ih =>
    have hcapital := (capital_isLower (joins_iff.mp hjoin).2).1
    have hcs := ih fun e he ↦ h e (List.mem_cons_of_mem _ (List.mem_cons_of_mem _ he))
    exact List.forall_mem_cons.mpr ⟨toNat_lt_of_isUpper hcapital, hcs⟩
  | case4 c d cs hjoin ih =>
    obtain ⟨hc, hcs⟩ := List.forall_mem_cons.mp h
    exact List.forall_mem_cons.mpr ⟨hc, ih hcs⟩

/-- The form with capitals leads back to a name with underscores. -/
theorem toSnakeCase_toCamelCase {name : String} (h : InUnderscores name) :
    toSnakeCase (toCamelCase name) = name := by
  have hascii : ∀ c ∈ (toCamelCase name).toList, c.toNat < 0x80 := by
    rw [toCamelCase, String.toList_ofList]
    exact toNat_lt_of_mem_camel fun c hc ↦ (isUpper_of_inUnderscores (h c hc)).1
  rw [toSnakeCase_eq hascii, toCamelCase, String.toList_ofList,
    snake_camel fun c hc ↦ (isUpper_of_inUnderscores (h c hc)).2, String.ofList_toList]

/-- The form with capitals is its own. -/
theorem toCamelCase_toCamelCase (name : String) :
    toCamelCase (toCamelCase name) = toCamelCase name := by
  rw [toCamelCase, toCamelCase, String.toList_ofList, camel_of_settled (settled_camel _)]

end AliasStrategy

namespace Table

open AliasStrategy

/-- The column that a selected name stands for is the first that a strategy finds. -/
theorem map_resolve? (t : Table) (name : String) : (t.resolve? name).map Prod.snd =
    (t.column? name).or ((converted t name (toCamelCase name)).or
      ((converted t name (toSnakeCase name)).or (caseInsensitive.find? t name))) := by
  have hfirst (s : AliasStrategy) (others : List AliasStrategy) :
      ((s :: others).findSome? fun s ↦ (s.find? t name).map (s, ·)).map Prod.snd =
        (s.find? t name).or
          ((others.findSome? fun s ↦ (s.find? t name).map (s, ·)).map Prod.snd) := by
    rw [List.findSome?_cons]
    cases s.find? t name <;> rfl
  rw [resolve?, AliasStrategy.all, hfirst, hfirst, hfirst, hfirst, List.findSome?_nil,
    Option.map_none, Option.or_none]
  rfl

variable {t : Table} {key : String} {c : Column}

theorem column?_of_key (h : Keyed.find? key t.columns = some c) : t.column? key = some c := by
  rw [column?, h, Option.some_or]

/-- A conversion that leads to a key finds its column, unless it is the key already. -/
theorem converted_key {name : String} (h : Keyed.find? key t.columns = some c)
    (hname : t.column? name = none) : converted t name key = some c := by
  have hne : key ≠ name := by
    rintro rfl
    rw [column?_of_key h] at hname
    cases hname
  rw [converted, if_neg hne, column?_of_key h]

/-- A column is found under the other form of its key, unless that form names a column itself: a key
in capitals under its form with underscores, a key with underscores under its form with capitals. -/
theorem resolveAlias_otherStyle (t : Table) (key : String) (c : Column)
    (h : Keyed.find? key t.columns = some c) :
    (InCapitals key → (t.resolveAlias (toSnakeCase key)).result =
      .ok (some ((t.column? (toSnakeCase key)).getD c))) ∧
    (InUnderscores key → (t.resolveAlias (toCamelCase key)).result =
      .ok (some ((t.column? (toCamelCase key)).getD c))) := by
  constructor
  · intro hkey
    rw [result_resolveAlias, map_resolve?, toCamelCase_toSnakeCase hkey]
    cases hname : t.column? (toSnakeCase key) with
    | some d => rfl
    | none => rw [converted_key h hname]; rfl
  · intro hkey
    rw [result_resolveAlias, map_resolve?, toCamelCase_toCamelCase, toSnakeCase_toCamelCase hkey]
    cases hname : t.column? (toCamelCase key) with
    | some d => rfl
    | none =>
      have hsame : converted t (toCamelCase key) (toCamelCase key) = none := if_pos rfl
      rw [hsame, converted_key h hname]
      rfl

private def visits : Table :=
  { name := "visits", columns := [("userID_2", { name := "uid", type := "UInt64" }),
      ("display_name", { name := "label", type := "String" })] }

/-- The key of one column is in capitals and that of the other in underscores; each is found under
the other form. -/
theorem resolveAlias_otherStyle_visits :
    (InCapitals "userID_2" ∧ toSnakeCase "userID_2" = "user_i_d_2" ∧
      (visits.resolveAlias "user_i_d_2").result = .ok (some { name := "uid", type := "UInt64" })) ∧
    (InUnderscores "display_name" ∧ toCamelCase "display_name" = "displayName" ∧
      (visits.resolveAlias "displayName").result =
        .ok (some { name := "label", type := "String" })) := by
  have hcapitals : InCapitals "userID_2" := by decide +kernel
  have hunderscores : InUnderscores "display_name" := by decide +kernel
  have hsnake : toSnakeCase "userID_2" = "user_i_d_2" := by decide +kernel
  have hcamel : toCamelCase "display_name" = "displayName" := by decide +kernel
  have hid := (resolveAlias_otherStyle visits "userID_2" _ rfl).1 hcapitals
  have hlabel := (resolveAlias_otherStyle visits "display_name" _ rfl).2 hunderscores
  rw [hsnake] at hid
  rw [hcamel] at hlabel
  exact ⟨⟨hcapitals, hsnake, hid⟩, hunderscores, hcamel, hlabel⟩

end Table

end Columnar
