import Columnar.Proofs.Literal.Shapes
import Columnar.Proofs.Numbering
import Columnar.Proofs.Value.Inspect

/-!
# Literals and their types

The type of a literal is found from its value, and the parameter is made of the value by another
function. Every type says what parameters belong to it (`LiteralType.Has`) and what literals it
takes (`LiteralType.Takes`); a parameter belongs to a type exactly when the type takes the literal
it was made of (`Literal.has_iff_takes`). The type that a literal is bound under is that of the
value on its own (`Literal.bindLiteral_typed`): it takes every value without items but an integer
that needs more than 32 bits, and a sequence when the type of the first item takes all of them.
-/

namespace Columnar

/-! ### Types -/

/-- The types that literals have on their own. -/
inductive LiteralType where
  | string | bool | int32 | float64 | dateTime | uuid
  | array (item : LiteralType)

namespace LiteralType

open Literal

/-- The server's name of a type. -/
def name : LiteralType → String
  | string => "String"
  | bool => "Bool"
  | int32 => "Int32"
  | float64 => "Float64"
  | dateTime => "DateTime"
  | uuid => "UUID"
  | array item => "Array(" ++ item.name ++ ")"

/-- The numbers of a signed word of 32 bits. -/
def InWord (n : Int) : Prop := -2 ^ 31 ≤ n ∧ n ≤ 2 ^ 31 - 1

/-- Whether a parameter belongs to a type. -/
def Has : LiteralType → Value → Prop
  | string, .null | string, .text _ => True
  | bool, .bool _ => True
  | int32, .int n => InWord n
  | float64, .int _ | float64, .float _ | float64, .decimal _ => True
  | dateTime, .text s => IsDateTimeText s
  | uuid, .text s => isUuidText s = true
  | array item, .list ws => ∀ w ∈ ws, item.Has w
  | _, _ => False

/-- Whether a literal is one that a type takes: what is bound as text for a text, whatever is bound
as a date or an identifier for those, and for an array a sequence whose items its item type takes
throughout. -/
def Takes : LiteralType → Value → Prop
  | string, .null | string, .text _ | string, .uuid _ | string, .date _ | string, .dateTime _
  | string, .map _ => True
  | bool, .bool _ => True
  | int32, .int n => InWord n
  | float64, .int _ | float64, .float _ | float64, .decimal _ => True
  | dateTime, .date _ | dateTime, .dateTime _ => True
  | dateTime, .text s => IsDateTimeText s
  | uuid, .uuid _ => True
  | uuid, .text s => isUuidText s = true
  | array item, .list xs | array item, .tuple xs => ∀ x ∈ xs, item.Takes x
  | _, _ => False

/-- The type of a value on its own. -/
def ofValue : Value → LiteralType
  | .bool _ => bool
  | .int _ => int32
  | .float _ | .decimal _ => float64
  | .date _ | .dateTime _ => dateTime
  | .list [] | .tuple [] => array string
  | .list (x :: _) | .tuple (x :: _) => array (ofValue x)
  | .uuid _ => uuid
  | .text s => if isUuidText s then uuid else string
  | .null | .map _ | .undefined => string

theorem name_ofValue (v : Value) : (ofValue v).name = plainType v := by
  induction v using Value.induction with
  | scalar v hv =>
    cases v with
    | text s =>
      rw [ofValue, plainType]
      split <;> rfl
    | list xs | tuple xs | map entries => cases hv
    | _ => rfl
  | list xs ih | tuple xs ih =>
    cases xs with
    | nil => rfl
    | cons x xs => rw [ofValue, plainType, name, ih x List.mem_cons_self]
  | map entries ih => rfl

/-- Types are told apart by their names: those of different sorts by the first letter. -/
theorem name_injective {t t' : LiteralType} (h : t.name = t'.name) : t = t' := by
  induction t generalizing t' with
  | array item ih =>
    have hletter := congrArg (·.toList.head?) h
    cases t' with
    | array item' =>
      have hchars := congrArg String.toList h
      simp only [name, String.toList_append] at hchars
      have hitem := List.append_cancel_left (List.append_cancel_right hchars)
      rw [ih (String.toList_inj.mp hitem)]
    | _ => simp [name] at hletter
  | _ =>
    have hletter := congrArg (·.toList.head?) h
    cases t' with
    | array item' => simp [name] at hletter
    | _ => first | rfl | simp [name] at hletter

end LiteralType

/-! ### Values of a type -/

/-- The items of a sequence; other values have none. -/
def Value.members : Value → List Value
  | list xs | tuple xs => xs
  | _ => []

/-- A value is another or stands at some depth among the items of its sequences. -/
inductive Value.Within (x : Value) : Value → Prop
  | self : Within x x
  | member {y v : Value} (hy : y ∈ v.members) (h : Within x y) : Within x v

namespace Literal

/-- Every date in a value, and the second of every date-time, lies in the year 1000 or later. -/
def FourDigitYears (v : Value) : Prop :=
  ∀ m : Moment, m.value.Within v → Civil.yearsLength 999 * microsPerDay ≤ m.instant

theorem fourDigitYears_iff (v : Value) : FourDigitYears v ↔
    (∀ m : Moment, m.value = v → Civil.yearsLength 999 * microsPerDay ≤ m.instant) ∧
      ∀ x ∈ v.members, FourDigitYears x := by
  constructor
  · intro h
    refine ⟨?_, fun x hx m hm ↦ h m (.member hx hm)⟩
    rintro m rfl
    exact h m .self
  · rintro ⟨hself, hmembers⟩ m hm
    cases hm with
    | self => exact hself m rfl
    | member hx hm => exact hmembers _ hx m hm

theorem serializeAll_eq_mapM (xs : List Value) : serializeAll xs = xs.mapM serialize := by
  induction xs with
  | nil => rfl
  | cons x xs ih => rw [serializeAll, List.mapM_cons, ih]

/-- The text bound for a date or a date-time from the year 1000 on has the shape of one. -/
theorem isDateTimeText_of_moment {m : Moment} {s : String}
    (hyear : Civil.yearsLength 999 * microsPerDay ≤ m.instant)
    (h : dateTextOf m.value = .ok s) : IsDateTimeText s := by
  rw [Moment.dateTextOf_value, DateTime.dateTimeText_eq_ok_iff] at h
  obtain ⟨hin, rfl⟩ := h
  have hbounds := hin.seconds_bounds
  have hmicros : (microsPerDay : Int) = 86400 * 1000000 := rfl
  have hseconds : m.reading.seconds = m.instant / 1000000 := rfl
  have hfirst : Civil.yearsLength 999 * 86400 ≤ m.reading.seconds.toNat := by
    rw [hmicros] at hyear
    generalize Civil.yearsLength 999 = days at hyear
    omega
  exact isDateTimeText_clockText hfirst hbounds.2

/-- A date or a date-time from the year 1000 on is bound as a text that a type has when it takes
dates. -/
theorem has_moment {m : Moment} {w : Value}
    (hyear : Civil.yearsLength 999 * microsPerDay ≤ m.instant) (h : serialize m.value = .ok w)
    (t : LiteralType) : t.Has w ↔ t.Takes m.value := by
  rw [Moment.serialize_value] at h
  cases htext : dateTextOf m.value with
  | error e =>
    rw [htext] at h
    cases h
  | ok s =>
    rw [htext] at h
    obtain rfl := Except.ok.inj h
    have hshape := isDateTimeText_of_moment hyear htext
    have huuid := hshape.isUuidText_eq_false
    cases m <;> cases t <;> simp [Moment.value, LiteralType.Has, LiteralType.Takes, hshape, huuid]

/-- An identifier is bound as a text that only texts and identifiers have. -/
theorem has_uuid (u : Uuid) (t : LiteralType) : t.Has (.text u.toText) ↔ t.Takes (.uuid u) := by
  have huuid := isUuidText_toText u
  have hshape : ¬ IsDateTimeText u.toText := by
    intro hs
    rw [hs.isUuidText_eq_false] at huuid
    cases huuid
  cases t <;> simp [LiteralType.Has, LiteralType.Takes, huuid, hshape]

/-- A mapping is bound as a text that is no date and no identifier. -/
theorem has_map {entries : List (Value × Value)} {s : String}
    (h : Value.toJson (.map entries) = .ok s) (t : LiteralType) :
    t.Has (.text s) ↔ t.Takes (.map entries) := by
  have hbrace := head?_toJson_map h
  have huuid := isUuidText_eq_false hbrace (by decide)
  have hshape := not_isDateTimeText hbrace (by decide)
  cases t <;> simp [LiteralType.Has, LiteralType.Takes, huuid, hshape]

/-- A row of literals is bound item by item. -/
theorem forall_has_iff {xs ws : List Value} {item : LiteralType} (h : serializeAll xs = .ok ws)
    (hitem : ∀ x ∈ xs, ∀ w, serialize x = .ok w → (item.Has w ↔ item.Takes x)) :
    (∀ w ∈ ws, item.Has w) ↔ ∀ x ∈ xs, item.Takes x := by
  rw [serializeAll_eq_mapM] at h
  have hall := Succeeding.forall₂_of_mapM h
  clear h
  induction hall with
  | nil => simp
  | cons hx _ ih =>
    obtain ⟨hfirst, hothers⟩ := List.forall_mem_cons.mp hitem
    rw [List.forall_mem_cons, List.forall_mem_cons]
    exact and_congr (hfirst _ hx) (ih hothers)

/-- A type has the parameter bound for a literal exactly when it takes the literal. -/
theorem has_iff_takes {v w : Value} (hyears : FourDigitYears v) (h : serialize v = .ok w)
    (t : LiteralType) : t.Has w ↔ t.Takes v := by
  induction v using Value.induction generalizing w t with
  | scalar v hv =>
    cases v with
    | date d => exact has_moment (m := .date d) (hyears _ .self) h t
    | dateTime d => exact has_moment (m := .dateTime d) (hyears _ .self) h t
    | uuid u =>
      obtain rfl := Except.ok.inj h
      exact has_uuid u t
    | list xs | tuple xs | map entries => cases hv
    | _ =>
      obtain rfl := Except.ok.inj h
      cases t <;> rfl
  | list xs ih | tuple xs ih =>
    rw [serialize] at h
    obtain ⟨ws, hws, h⟩ := Succeeding.bind_eq_ok.mp h
    obtain rfl := Except.ok.inj h
    have hmembers := ((fourDigitYears_iff _).mp hyears).2
    cases t with
    | array item =>
      exact forall_has_iff hws fun x hx w hw ↦ ih x hx (hmembers x hx) hw item
    | _ => rfl
  | map entries ih =>
    rw [serialize] at h
    obtain ⟨s, hs, h⟩ := Succeeding.bind_eq_ok.mp h
    obtain rfl := Except.ok.inj h
    exact has_map hs t

/-- A value without items is taken by its own type, an integer when it fits into the word. -/
theorem takes_ofValue {v : Value} (hsequence : v.isSequence = false) (hv : v ≠ .undefined)
    (hint : ∀ n, v = .int n → LiteralType.InWord n) : (LiteralType.ofValue v).Takes v := by
  cases v with
  | int n => exact hint n rfl
  | text s =>
    rw [LiteralType.ofValue]
    split
    · assumption
    · trivial
  | list xs | tuple xs => cases hsequence
  | undefined => exact absurd rfl hv
  | _ => trivial

/-- A literal that no column imposes its type on is bound under one type, that of the value on its
own. The parameter belongs to the type exactly when the type takes the literal; only integers that
do not fit into the word, sequences and undefined values are not taken by their own types. -/
theorem bindLiteral_typed {v : Value} {column : Option Column} {b b' : Bindings} {place : String}
    (hcolumn : column.bind imposed? = none) (hyears : FourDigitYears v)
    (h : Render.Done (bindLiteral v (inferType v column)) b place b') :
    ∃ (t : LiteralType) (w : Value), serialize v = .ok w ∧ b' = b.extend [w] ∧
      place = placeholder (Bindings.nameOf (b.count + 1)) t.name ∧
      (∀ t' : LiteralType, t'.name = inferType v column ↔ t' = t) ∧
      (t.Has w ↔ t.Takes v) ∧
      (v.isSequence = false → v ≠ .undefined → (∀ n, v = .int n → LiteralType.InWord n) →
        t.Has w) := by
  obtain ⟨w, hserial, rfl, rfl⟩ := Render.done_bindLiteral.mp h
  have htype : (LiteralType.ofValue v).name = inferType v column := by
    rw [inferType, hcolumn]
    exact LiteralType.name_ofValue v
  have htakes := has_iff_takes hyears hserial (LiteralType.ofValue v)
  refine ⟨LiteralType.ofValue v, w, hserial, rfl, by rw [htype], fun t' ↦ ?_, htakes, ?_⟩
  · rw [← htype]
    exact ⟨LiteralType.name_injective, congrArg _⟩
  · intro hsequence hv hint
    exact htakes.mpr (takes_ofValue hsequence hv hint)

private def leapDay : Date := ⟨Civil.toDay ⟨2024, 2, 29⟩, by decide⟩

private def days : Value := .list [.date leapDay, .text "2024-03-01 12:00:00"]

private def boundDays : Value :=
  .list [.text "2024-02-29 00:00:00", .text "2024-03-01 12:00:00"]

private theorem fourDigitYears_days : FourDigitYears days := by
  rw [fourDigitYears_iff]
  constructor
  · intro m hm
    cases m <;> cases hm
  · intro x hx
    simp only [days, Value.members, List.mem_cons, List.not_mem_nil, or_false] at hx
    rw [fourDigitYears_iff]
    rcases hx with rfl | rfl
    · refine ⟨fun m hm ↦ ?_, List.forall_mem_nil _⟩
      cases m with
      | date d =>
        cases hm
        rw [Civil.yearsLength_eq]
        decide
      | dateTime t => cases hm
    · refine ⟨fun m hm ↦ ?_, List.forall_mem_nil _⟩
      cases m <;> cases hm

/-- A list of a date and of a text of that shape is bound as an array of dates behind a column of
texts. -/
theorem bindLiteral_typed_days :
    let column : Option Column := some { name := "note", type := "String" }
    column.bind imposed? = none ∧ FourDigitYears days ∧
    Render.Done (bindLiteral days (inferType days column)) {} "\x7bp_1:Array(DateTime)\x7d"
      (({} : Bindings).extend [boundDays]) ∧
    ∃ t : LiteralType, t.name = inferType days column ∧ (t.Has boundDays ↔ t.Takes days) := by
  have hcolumn : (some { name := "note", type := "String" } : Option Column).bind imposed? =
      none := by
    decide +kernel
  have hdone : Render.Done (bindLiteral days (inferType days
      (some { name := "note", type := "String" }))) {} "\x7bp_1:Array(DateTime)\x7d"
      (({} : Bindings).extend [boundDays]) := by
    rw [Render.done_bindLiteral]
    exact ⟨boundDays, rfl, rfl, rfl⟩
  obtain ⟨t, w, hserial, -, -, hname, hhas, -⟩ :=
    bindLiteral_typed hcolumn fourDigitYears_days hdone
  have hw : w = boundDays := by
    have hbound : serialize days = .ok boundDays := rfl
    exact Except.ok.inj (hserial.symm.trans hbound)
  subst hw
  exact ⟨hcolumn, fourDigitYears_days, hdone, t, (hname t).mpr rfl, hhas⟩

/-- An integer that does not fit into the word, and a list whose second item is not of the type of
the first, are bound under types that they do not belong to. -/
theorem not_has_unfit :
    (inferType (.int 2147483648) none = LiteralType.int32.name ∧
      serialize (.int 2147483648) = .ok (.int 2147483648) ∧
      ¬ LiteralType.int32.Has (.int 2147483648)) ∧
    inferType (.list [.int 1, .text "a"]) none = (LiteralType.array .int32).name ∧
    serialize (.list [.int 1, .text "a"]) = .ok (.list [.int 1, .text "a"]) ∧
    ¬ (LiteralType.array .int32).Has (.list [.int 1, .text "a"]) := by
  refine ⟨⟨rfl, rfl, ?_⟩, rfl, rfl, ?_⟩
  · rintro ⟨-, h⟩
    omega
  · intro h
    exact h (.text "a") (by simp)

end Literal

end Columnar
