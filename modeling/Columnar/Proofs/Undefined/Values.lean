import Columnar.Literal.Serial
import Columnar.Proofs.Succeeding
import Columnar.Proofs.Value.Inspect

/-!
# Undefined values in serial forms

A literal may hold an undefined value though it is not undefined itself. Among the items of a list
or a tuple it is kept in the serial form (`Value.holdsUndefined_of_serialize`); in a mapping the
JSON text has the name of the mark in its place, as if that name had been given
(`Value.serialize_spelled`). `Value.SentAs` says both of a literal and the parameter bound for it.
-/

namespace Columnar

namespace Value

/-! ### What a value holds -/

mutual

/-- Whether the value is undefined or holds an undefined value, at any depth: among the items of
sequences and, when it is looked for there, in mappings. -/
def holdsUndefined (inMappings : Bool) : Value → Bool
  | undefined => true
  | list items => anyUndefined inMappings items
  | tuple items => anyUndefined inMappings items
  | map entries => inMappings && anyUndefinedEntry inMappings entries
  | _ => false

/-- Whether an item holds an undefined value. -/
def anyUndefined (inMappings : Bool) : List Value → Bool
  | [] => false
  | x :: xs => holdsUndefined inMappings x || anyUndefined inMappings xs

/-- Whether a key or a value of an entry holds an undefined value. -/
def anyUndefinedEntry (inMappings : Bool) : List (Value × Value) → Bool
  | [] => false
  | (k, v) :: rest => (holdsUndefined inMappings k || holdsUndefined inMappings v) ||
      anyUndefinedEntry inMappings rest

end

mutual

/-- The value with the name of the mark as a text in place of every undefined value in a mapping;
`inMapping` says whether the value itself stands in one. -/
def spelled (inMapping : Bool) : Value → Value
  | undefined => if inMapping then .text "UNDEFINED" else undefined
  | list items => list (spelledAll inMapping items)
  | tuple items => tuple (spelledAll inMapping items)
  | map entries => map (spelledEntries entries)
  | v => v

/-- The items spelled one by one. -/
def spelledAll (inMapping : Bool) : List Value → List Value
  | [] => []
  | x :: xs => spelled inMapping x :: spelledAll inMapping xs

/-- The entries of a mapping with their values spelled. -/
def spelledEntries : List (Value × Value) → List (Value × Value)
  | [] => []
  | (k, v) :: rest => (k, spelled true v) :: spelledEntries rest

end

variable {inMappings : Bool}

private theorem anyUndefined_mono {xs : List Value}
    (h : ∀ x ∈ xs, x.holdsUndefined false = true → x.holdsUndefined true = true)
    (hxs : anyUndefined false xs = true) : anyUndefined true xs = true := by
  induction xs with
  | nil => cases hxs
  | cons x xs ih =>
    obtain ⟨hx, hrest⟩ := List.forall_mem_cons.mp h
    rw [anyUndefined, Bool.or_eq_true] at hxs ⊢
    exact hxs.imp hx (ih hrest)

/-- What is found outside of mappings is found when they are looked into. -/
theorem holdsUndefined_mono {v : Value} (h : v.holdsUndefined false = true) :
    v.holdsUndefined true = true := by
  induction v using induction with
  | scalar v hv => cases v <;> first | exact h | cases hv
  | list xs ih | tuple xs ih => exact anyUndefined_mono ih h
  | map es ih => cases h

/-! ### Mappings -/

/-- A key that JSON can have holds no undefined value. -/
theorem holdsUndefined_of_jsonKey {k : Value} {s : String} (h : k.jsonKey = .ok s) :
    k.holdsUndefined inMappings = false := by
  cases k <;> first | rfl | cases h

private theorem toJsonAll_spelled {xs : List Value}
    (h : ∀ x ∈ xs, (x.spelled true).toJson = x.toJson) :
    toJsonAll (spelledAll true xs) = toJsonAll xs := by
  induction xs with
  | nil => rfl
  | cons x xs ih =>
    obtain ⟨hx, hxs⟩ := List.forall_mem_cons.mp h
    rw [spelledAll, toJsonAll, toJsonAll, hx, ih hxs]

private theorem toJsonEntries_spelled {es : List (Value × Value)}
    (h : ∀ e ∈ es, (e.2.spelled true).toJson = e.2.toJson) :
    toJsonEntries (spelledEntries es) = toJsonEntries es := by
  induction es with
  | nil => rfl
  | cons e es ih =>
    obtain ⟨he, hes⟩ := List.forall_mem_cons.mp h
    rw [spelledEntries, toJsonEntries, toJsonEntries, he, ih hes]

/-- In a mapping an undefined value is written as its name is. -/
theorem toJson_spelled (v : Value) : (v.spelled true).toJson = v.toJson := by
  induction v using induction with
  | scalar v hv => cases v <;> first | rfl | cases hv
  | list xs ih => rw [spelled, toJson, toJson, toJsonAll_spelled ih]
  | tuple xs ih => rw [spelled, toJson, toJson, toJsonAll_spelled ih]
  | map es ih => rw [spelled, toJson, toJson, toJsonEntries_spelled fun e he ↦ (ih e he).2]

private theorem toJsonAll_ok {xs : List Value} {texts : List String}
    (h : toJsonAll xs = .ok texts) : ∀ x ∈ xs, ∃ s, x.toJson = .ok s := by
  induction xs generalizing texts with
  | nil => exact List.forall_mem_nil _
  | cons x xs ih =>
    obtain ⟨s, hs, h⟩ := Succeeding.bind_eq_ok.mp h
    obtain ⟨rest, hrest, -⟩ := Succeeding.bind_eq_ok.mp h
    exact List.forall_mem_cons.mpr ⟨⟨s, hs⟩, ih hrest⟩

private theorem toJsonEntries_ok {es : List (Value × Value)} {texts : List String}
    (h : toJsonEntries es = .ok texts) :
    ∀ e ∈ es, (∃ s, e.1.jsonKey = .ok s) ∧ ∃ s, e.2.toJson = .ok s := by
  induction es generalizing texts with
  | nil => exact List.forall_mem_nil _
  | cons e es ih =>
    obtain ⟨key, hkey, h⟩ := Succeeding.bind_eq_ok.mp h
    obtain ⟨s, hs, h⟩ := Succeeding.bind_eq_ok.mp h
    obtain ⟨rest, hrest, -⟩ := Succeeding.bind_eq_ok.mp h
    exact List.forall_mem_cons.mpr ⟨⟨⟨key, hkey⟩, s, hs⟩, ih hrest⟩

private theorem anyUndefined_spelledAll {xs : List Value}
    (h : ∀ x ∈ xs, (x.spelled true).holdsUndefined inMappings = false) :
    anyUndefined inMappings (spelledAll true xs) = false := by
  induction xs with
  | nil => rfl
  | cons x xs ih =>
    obtain ⟨hx, hxs⟩ := List.forall_mem_cons.mp h
    rw [spelledAll, anyUndefined, hx, ih hxs]
    rfl

private theorem anyUndefinedEntry_spelledEntries {es : List (Value × Value)}
    (h : ∀ e ∈ es, e.1.holdsUndefined inMappings = false ∧
      (e.2.spelled true).holdsUndefined inMappings = false) :
    anyUndefinedEntry inMappings (spelledEntries es) = false := by
  induction es with
  | nil => rfl
  | cons e es ih =>
    obtain ⟨⟨hk, hv⟩, hes⟩ := List.forall_mem_cons.mp h
    rw [spelledEntries, anyUndefinedEntry, hk, hv, ih hes]
    rfl

/-- What is written in a mapping holds no undefined value once it is spelled. -/
theorem holdsUndefined_spelled_of_toJson {v : Value} {s : String} (h : v.toJson = .ok s) :
    (v.spelled true).holdsUndefined inMappings = false := by
  induction v using induction generalizing s with
  | scalar v hv => cases v <;> first | rfl | cases hv
  | list xs ih | tuple xs ih =>
    obtain ⟨texts, htexts, -⟩ := Succeeding.bind_eq_ok.mp h
    refine anyUndefined_spelledAll fun x hx ↦ ?_
    obtain ⟨_, hs⟩ := toJsonAll_ok htexts x hx
    exact ih x hx hs
  | map es ih =>
    obtain ⟨texts, htexts, -⟩ := Succeeding.bind_eq_ok.mp h
    rw [spelled, holdsUndefined, anyUndefinedEntry_spelledEntries, Bool.and_false]
    intro e he
    obtain ⟨⟨_, hkey⟩, _, hs⟩ := toJsonEntries_ok htexts e he
    exact ⟨holdsUndefined_of_jsonKey hkey, (ih e he).2 hs⟩

/-! ### Literals -/

open Literal (serialize serializeAll)

private theorem serializeAll_spelled {xs : List Value}
    (h : ∀ x ∈ xs, serialize (x.spelled false) = serialize x) :
    serializeAll (spelledAll false xs) = serializeAll xs := by
  induction xs with
  | nil => rfl
  | cons x xs ih =>
    obtain ⟨hx, hxs⟩ := List.forall_mem_cons.mp h
    rw [spelledAll, serializeAll, serializeAll, hx, ih hxs]

/-- A literal is bound as it is with the undefined values in its mappings spelled. -/
theorem serialize_spelled (v : Value) : serialize (v.spelled false) = serialize v := by
  induction v using induction with
  | scalar v hv => cases v <;> first | rfl | cases hv
  | list xs ih => rw [spelled, serialize, serialize, serializeAll_spelled ih]
  | tuple xs ih => rw [spelled, serialize, serialize, serializeAll_spelled ih]
  | map es ih => exact congrArg (· >>= fun s ↦ pure (text s)) (toJson_spelled (.map es))

private theorem anyUndefined_serials {xs ps : List Value} (h : serializeAll xs = .ok ps)
    (hx : ∀ x ∈ xs, ∀ p, serialize x = .ok p →
      p.holdsUndefined inMappings = x.holdsUndefined false ∧
      (x.spelled false).holdsUndefined inMappings = x.holdsUndefined false) :
    anyUndefined inMappings ps = anyUndefined false xs ∧
      anyUndefined inMappings (spelledAll false xs) = anyUndefined false xs := by
  induction xs generalizing ps with
  | nil =>
    cases h
    exact ⟨rfl, rfl⟩
  | cons x xs ih =>
    obtain ⟨p, hp, h⟩ := Succeeding.bind_eq_ok.mp h
    obtain ⟨rest, hrest, h⟩ := Succeeding.bind_eq_ok.mp h
    cases h
    obtain ⟨hx, hxs⟩ := List.forall_mem_cons.mp hx
    obtain ⟨hserial, hspelled⟩ := hx p hp
    obtain ⟨hserials, hspelledAll⟩ := ih hrest hxs
    simp only [spelledAll, anyUndefined, hserial, hspelled, hserials, hspelledAll, and_self]

/-- A serial form holds an undefined value when its literal does outside of mappings, and so does
the literal with its mappings spelled. -/
theorem holdsUndefined_of_serialize {v p : Value} (h : serialize v = .ok p) :
    p.holdsUndefined inMappings = v.holdsUndefined false ∧
      (v.spelled false).holdsUndefined inMappings = v.holdsUndefined false := by
  induction v using induction generalizing p with
  | scalar v hv =>
    cases v with
    | date d | dateTime t =>
      obtain ⟨s, -, hs⟩ := Succeeding.bind_eq_ok.mp h
      cases hs
      exact ⟨rfl, rfl⟩
    | list | tuple | map => cases hv
    | _ =>
      cases h
      exact ⟨rfl, rfl⟩
  | list xs ih | tuple xs ih =>
    obtain ⟨ps, hps, h⟩ := Succeeding.bind_eq_ok.mp h
    cases h
    exact anyUndefined_serials hps ih
  | map es ih =>
    obtain ⟨s, hs, h⟩ := Succeeding.bind_eq_ok.mp h
    cases h
    exact ⟨rfl, holdsUndefined_spelled_of_toJson hs⟩

/-- How a literal is sent: it is not undefined itself, and the parameter is its serial form. The
parameter holds an undefined value when the literal does outside of mappings, and it is that of the
literal with a text in place of the undefined values in mappings. -/
structure SentAs (v p : Value) : Prop where
  defined : v ≠ .undefined
  serial : serialize v = .ok p
  items : p.holdsUndefined true = v.holdsUndefined false
  mappings : serialize (v.spelled false) = .ok p ∧
    (v.spelled false).holdsUndefined true = v.holdsUndefined false

theorem sentAs_of_serialize {v p : Value} (hv : v ≠ .undefined) (h : serialize v = .ok p) :
    v.SentAs p where
  defined := hv
  serial := h
  items := (holdsUndefined_of_serialize h).1
  mappings := ⟨(serialize_spelled v).trans h, (holdsUndefined_of_serialize h).2⟩

end Value

end Columnar
