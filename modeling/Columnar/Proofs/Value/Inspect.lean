import Columnar.Proofs.Calendar.Epoch
import Columnar.Proofs.Calendar.Written
import Columnar.Proofs.Number.DecimalText
import Columnar.Proofs.Number.Shortest
import Columnar.Proofs.Text.Quoting

/-!
# Written values

The written form of a value inside a collection tells it from every other value, and ends where it
ends (`Value.apart_chars`). The first characters say of what kind the value is
(`Value.opening_chars`).
-/

namespace Columnar.Value

/-! ### Sound values -/

mutual

/-- A value whose numbers are in their own form and whose clocks are less than a day off. -/
def Sound : Value → Prop
  | float x => x.Canonical
  | dateTime t => t.OffsetInRange
  | list items => SoundAll items
  | tuple items => SoundAll items
  | map entries => SoundEntries entries
  | _ => True

/-- Sound items of a sequence. -/
def SoundAll : List Value → Prop
  | [] => True
  | x :: xs => Sound x ∧ SoundAll xs

/-- Sound entries of a map. -/
def SoundEntries : List (Value × Value) → Prop
  | [] => True
  | (k, v) :: rest => (Sound k ∧ Sound v) ∧ SoundEntries rest

end

theorem soundAll_iff {xs : List Value} : SoundAll xs ↔ ∀ x ∈ xs, x.Sound := by
  induction xs with
  | nil => simp [SoundAll]
  | cons x xs ih => rw [SoundAll, ih, List.forall_mem_cons]

theorem soundEntries_iff {entries : List (Value × Value)} :
    SoundEntries entries ↔ ∀ e ∈ entries, e.1.Sound ∧ e.2.Sound := by
  induction entries with
  | nil => simp [SoundEntries]
  | cons e entries ih => rw [SoundEntries, ih, List.forall_mem_cons]

/-- Whether the value holds no other values. -/
def isScalar : Value → Bool
  | list _ | tuple _ | map _ => false
  | _ => true

/-- A property of collections whose members have it holds of all values if it holds of the
others. -/
theorem induction {P : Value → Prop} (scalar : ∀ v, v.isScalar = true → P v)
    (list : ∀ xs, (∀ x ∈ xs, P x) → P (.list xs)) (tuple : ∀ xs, (∀ x ∈ xs, P x) → P (.tuple xs))
    (map : ∀ es : List (Value × Value), (∀ e ∈ es, P e.1 ∧ P e.2) → P (.map es)) : ∀ v, P v
  | .list xs => list xs fun x _ ↦ induction scalar list tuple map x
  | .tuple xs => tuple xs fun x _ ↦ induction scalar list tuple map x
  | .map es => map es fun e _ ↦
      ⟨induction scalar list tuple map e.1, induction scalar list tuple map e.2⟩
  | .null => scalar _ rfl
  | .bool _ => scalar _ rfl
  | .int _ => scalar _ rfl
  | .float _ => scalar _ rfl
  | .decimal _ => scalar _ rfl
  | .text _ => scalar _ rfl
  | .uuid _ => scalar _ rfl
  | .date _ => scalar _ rfl
  | .dateTime _ => scalar _ rfl
  | .undefined => scalar _ rfl
  termination_by v => sizeOf v
  decreasing_by
    · have hx := List.sizeOf_lt_of_mem ‹x ∈ xs›
      simp only [Value.list.sizeOf_spec]
      omega
    · have hx := List.sizeOf_lt_of_mem ‹x ∈ xs›
      simp only [Value.tuple.sizeOf_spec]
      omega
    · have he := List.sizeOf_lt_of_mem ‹e ∈ es›
      rcases e with ⟨k, v⟩
      simp only [Value.map.sizeOf_spec, Prod.mk.sizeOf_spec] at he ⊢
      omega
    · have he := List.sizeOf_lt_of_mem ‹e ∈ es›
      rcases e with ⟨k, v⟩
      simp only [Value.map.sizeOf_spec, Prod.mk.sizeOf_spec] at he ⊢
      omega

/-! ### Sequences -/

section Sequences

variable {α : Type} (f : α → List Char)

/-- What can follow a written value: another one, or the end of the collection. -/
def isStop (c : Char) : Bool := c == ',' || c == ':' || c == ']' || c == ')' || c == '}'

/-- Whether a written value ends where the row begins. -/
def Stops (r : List Char) : Prop := ∀ c ∈ r.head?, isStop c = true

theorem stops_nil : Stops [] := fun _ h ↦ by cases h

theorem stops_cons {c : Char} (h : isStop c = true) (r : List Char) : Stops (c :: r) :=
  fun d hd ↦ by cases hd; exact h

/-- Whether two written forms differ, or else both end at the same place. -/
def Apart (x y : α) : Prop :=
  ∀ ⦃r s : List Char⦄, Stops r → Stops s → f x ++ r = f y ++ s → x = y ∧ r = s

/-- Written items, with commas between them. -/
def joined (xs : List α) : List Char := [',', ' '].intercalate (xs.map f)

/-- Written items, with a comma in front of each. -/
def behind (xs : List α) : List Char := xs.flatMap fun x ↦ ',' :: ' ' :: f x

theorem joined_cons (x : α) (xs : List α) : joined f (x :: xs) = f x ++ behind f xs := by
  rw [joined, List.map_cons, Splitting.intercalate_cons, List.flatMap_map]
  rfl

variable {f} {close : Char} {r s : List Char}

theorem stops_behind (xs : List α) (hclose : isStop close = true) :
    Stops (behind f xs ++ close :: r) := by
  cases xs with
  | nil => exact stops_cons hclose r
  | cons x xs => exact stops_cons rfl _

/-- Items behind commas can be told apart, and from what ends them. -/
theorem behind_append_inj {xs ys : List α} (h : ∀ x ∈ xs, ∀ y ∈ ys, Apart f x y)
    (hclose : isStop close = true) (hcomma : close ≠ ',')
    (heq : behind f xs ++ close :: r = behind f ys ++ close :: s) : xs = ys ∧ r = s := by
  induction xs generalizing ys with
  | nil =>
    cases ys with
    | nil => exact ⟨rfl, (List.cons.inj heq).2⟩
    | cons y ys => exact absurd (List.cons.inj heq).1 hcomma
  | cons x xs ih =>
    cases ys with
    | nil => exact absurd (List.cons.inj heq).1.symm hcomma
    | cons y ys =>
      have hrest : f x ++ (behind f xs ++ close :: r) = f y ++ (behind f ys ++ close :: s) := by
        simpa [behind] using heq
      obtain ⟨rfl, htail⟩ := h x List.mem_cons_self y List.mem_cons_self (stops_behind xs hclose)
        (stops_behind ys hclose) hrest
      obtain ⟨rfl, rfl⟩ := ih (fun a ha b hb ↦ h a (List.mem_cons_of_mem _ ha) b
        (List.mem_cons_of_mem _ hb)) htail
      exact ⟨rfl, rfl⟩

/-- Items with commas between them can be told apart. -/
theorem joined_append_inj {xs ys : List α} (h : ∀ x ∈ xs, ∀ y ∈ ys, Apart f x y)
    (hhead : ∀ x, ∃ c cs, f x = c :: cs ∧ isStop c = false) (hclose : isStop close = true)
    (hcomma : close ≠ ',') (heq : joined f xs ++ close :: r = joined f ys ++ close :: s) :
    xs = ys ∧ r = s := by
  have hempty {y : α} {ys : List α} {r s : List Char}
      (heq : close :: r = joined f (y :: ys) ++ close :: s) : False := by
    obtain ⟨c, cs, hc, hstop⟩ := hhead y
    rw [joined_cons, hc] at heq
    rw [(List.cons.inj heq).1, hstop] at hclose
    cases hclose
  cases xs with
  | nil =>
    cases ys with
    | nil => exact ⟨rfl, (List.cons.inj heq).2⟩
    | cons y ys => exact (hempty heq).elim
  | cons x xs =>
    cases ys with
    | nil => exact (hempty heq.symm).elim
    | cons y ys =>
      rw [joined_cons, joined_cons, List.append_assoc, List.append_assoc] at heq
      obtain ⟨rfl, htail⟩ := h x List.mem_cons_self y List.mem_cons_self (stops_behind xs hclose)
        (stops_behind ys hclose) heq
      obtain ⟨rfl, rfl⟩ := behind_append_inj (fun a ha b hb ↦ h a (List.mem_cons_of_mem _ ha) b
        (List.mem_cons_of_mem _ hb)) hclose hcomma htail
      exact ⟨rfl, rfl⟩

variable (f) in
/-- Written items of a tuple and its end: a single item has a comma behind it. -/
def tupled (xs : List α) : List Char := joined f xs ++ if xs.length = 1 then [',', ')'] else [')']

theorem tupled_cons (x : α) (xs : List α) :
    tupled f (x :: xs) = f x ++ (behind f xs ++ if xs = [] then [',', ')'] else [')']) := by
  rw [tupled, joined_cons, List.append_assoc]
  simp

/-- Written tuples can be told apart. -/
theorem tupled_append_inj {xs ys : List α} (h : ∀ x ∈ xs, ∀ y ∈ ys, Apart f x y)
    (hhead : ∀ x, ∃ c cs, f x = c :: cs ∧ isStop c = false)
    (heq : tupled f xs ++ r = tupled f ys ++ s) : xs = ys ∧ r = s := by
  have hempty {y : α} {ys : List α} {r s : List Char}
      (heq : tupled f [] ++ r = tupled f (y :: ys) ++ s) : False := by
    obtain ⟨c, cs, hc, hstop⟩ := hhead y
    rw [tupled_cons, hc] at heq
    rw [← (List.cons.inj heq).1] at hstop
    cases hstop
  have hstops (zs : List α) (r : List Char) :
      Stops (behind f zs ++ ((if zs = [] then [',', ')'] else [')']) ++ r)) := by
    cases zs with
    | nil => exact stops_cons rfl _
    | cons z zs => exact stops_cons rfl _
  cases xs with
  | nil =>
    cases ys with
    | nil => exact ⟨rfl, (List.cons.inj heq).2⟩
    | cons y ys => exact (hempty heq).elim
  | cons x xs =>
    cases ys with
    | nil => exact (hempty heq.symm).elim
    | cons y ys =>
      rw [tupled_cons, tupled_cons, List.append_assoc, List.append_assoc, List.append_assoc,
        List.append_assoc] at heq
      obtain ⟨rfl, htail⟩ := h x List.mem_cons_self y List.mem_cons_self (hstops xs r) (hstops ys s)
        heq
      have hrest (a) (ha : a ∈ xs) (b) (hb : b ∈ ys) : Apart f a b :=
        h a (List.mem_cons_of_mem _ ha) b (List.mem_cons_of_mem _ hb)
      -- a comma is followed by the end or by a blank
      cases xs with
      | nil =>
        cases ys with
        | nil => exact ⟨rfl, List.append_cancel_left htail⟩
        | cons y ys => exact absurd (List.cons.inj (List.cons.inj htail).2).1 (by decide)
      | cons x xs =>
        cases ys with
        | nil => exact absurd (List.cons.inj (List.cons.inj htail).2).1 (by decide)
        | cons y ys =>
          rw [if_neg (List.cons_ne_nil x xs), if_neg (List.cons_ne_nil y ys)] at htail
          obtain ⟨hxs, hr⟩ := behind_append_inj hrest rfl (by decide) htail
          exact ⟨by rw [hxs], hr⟩

end Sequences

/-! ### Collections -/

/-- The characters of a written value. -/
def chars (v : Value) : List Char := v.inspect.toList

/-- The characters of a written entry of a map. -/
def entryChars (e : Value × Value) : List Char := e.1.chars ++ ':' :: ' ' :: e.2.chars

private theorem map_inspectAll (xs : List Value) :
    (inspectAll xs).map String.toList = xs.map chars := by
  induction xs with
  | nil => rfl
  | cons x xs ih => rw [inspectAll, List.map_cons, ih, List.map_cons, chars]

private theorem map_inspectEntries (es : List (Value × Value)) :
    (inspectEntries es).map String.toList = es.map entryChars := by
  induction es with
  | nil => rfl
  | cons e es ih =>
    rw [inspectEntries, List.map_cons, ih, List.map_cons, String.toList_append,
      String.toList_append, List.append_assoc]
    rfl

theorem chars_list (xs : List Value) : chars (.list xs) = '[' :: (joined chars xs ++ [']']) := by
  rw [chars, inspect, String.toList_append, String.toList_append, String.toList_intercalate,
    map_inspectAll, List.append_assoc]
  rfl

theorem chars_tuple (xs : List Value) : chars (.tuple xs) = '(' :: tupled chars xs := by
  by_cases hone : xs.length = 1
  · obtain ⟨x, rfl⟩ := List.length_eq_one_iff.mp hone
    rw [chars, inspect, String.toList_append, String.toList_append, List.append_assoc, tupled_cons]
    rfl
  · rw [chars, inspect, String.toList_append, String.toList_append,
      String.toList_intercalate, map_inspectAll, List.append_assoc, tupled, if_neg hone]
    · rfl
    · exact fun x h ↦ hone (h ▸ rfl)

theorem chars_map (es : List (Value × Value)) :
    chars (.map es) = '{' :: (joined entryChars es ++ ['}']) := by
  rw [chars, inspect, String.toList_append, String.toList_append, String.toList_intercalate,
    map_inspectEntries, List.append_assoc]
  rfl

/-! ### Openings -/

/-- The kind of a value whose written form begins so; all numbers begin alike. -/
def opening (cs : List Char) : Kind :=
  let c := cs.headD ' '
  if c = 'N' then .null
  else if c = 'T' ∨ c = 'F' then .bool
  else if c = 'D' then .decimal
  else if c = '\'' ∨ c = '"' then .text
  else if c = 'U' then (if cs[1]? = some 'U' then .uuid else .undefined)
  else if c = '[' then .list
  else if c = '(' then .tuple
  else if c = '{' then .map
  else if c = 'd' then (if cs[13]? = some '(' then .date else .dateTime)
  else .int

/-- The kind of a value, with one for all numbers. -/
def lead : Value → Kind
  | float _ => .int
  | v => v.kind

/-- What the written form of an integer or a floating-point number can begin with. -/
theorem opening_number {c : Char} (h : c.isDigit = true ∨ c ∈ ['-', 'n', 'i']) (cs : List Char) :
    opening (c :: cs) = .int := by
  have hother : ∀ d ∈ ['N', 'T', 'F', 'D', '\'', '"', 'U', '[', '(', '{', 'd'],
      d.isDigit = false ∧ d ∉ ['-', 'n', 'i'] := List.all_iff_forall_prop.mp (by decide)
  have hne (d : Char) (hd : d ∈ ['N', 'T', 'F', 'D', '\'', '"', 'U', '[', '(', '{', 'd']) :
      c ≠ d := by
    rintro rfl
    obtain ⟨hdigit, hsign⟩ := hother c hd
    rcases h with h | h
    · rw [hdigit] at h
      cases h
    · exact hsign h
  unfold opening
  simp only [List.headD_cons, hne 'N' (by decide), hne 'T' (by decide), hne 'F' (by decide),
    hne 'D' (by decide), hne '\'' (by decide), hne '"' (by decide), hne 'U' (by decide),
    hne '[' (by decide), hne '(' (by decide), hne '{' (by decide), hne 'd' (by decide), or_self,
    if_false]

/-- The first character of a written integer. -/
theorem head_ofInt (n : Int) : ∃ c cs, (Text.ofInt n).toList = c :: cs ∧
    (c.isDigit = true ∨ c ∈ ['-', 'n', 'i']) := by
  rw [Text.toList_ofInt]
  split
  · exact ⟨'-', _, rfl, .inr (by decide)⟩
  · obtain ⟨d, ds, hd⟩ := List.exists_cons_of_ne_nil (Nat.toDigits_ne_nil (n := n.natAbs) (b := 10))
    exact ⟨d, ds, hd, .inl (Text.isDigit_of_mem_toDigits (hd ▸ List.mem_cons_self))⟩

/-- The first character of a written floating-point number. -/
theorem head_toText (x : Binary64) : ∃ c cs, x.toText.toList = c :: cs ∧
    (c.isDigit = true ∨ c ∈ ['-', 'n', 'i']) := by
  cases x with
  | nan => exact ⟨'n', _, rfl, .inr (by decide)⟩
  | infinite negative =>
    cases negative
    · exact ⟨'i', _, rfl, .inr (by decide)⟩
    · exact ⟨'-', _, rfl, .inr (by decide)⟩
  | finite negative m e =>
    obtain ⟨c, cs, hcs, hc⟩ := (Binary64.spelling m e).exists_signed negative
    refine ⟨c, cs, (Binary64.toList_toText_finite negative m e).trans hcs, ?_⟩
    cases negative
    · exact .inl hc
    · obtain rfl : c = '-' := hc
      exact .inr (by decide)

/-- A written value begins as its kind tells. -/
theorem opening_chars (v : Value) (r : List Char) : opening (v.chars ++ r) = v.lead := by
  cases v with
  | null => rfl
  | bool b => cases b <;> rfl
  | int n =>
    obtain ⟨c, cs, hc, hhead⟩ := head_ofInt n
    rw [chars, inspect, hc]
    exact opening_number hhead _
  | float x =>
    obtain ⟨c, cs, hc, hhead⟩ := head_toText x
    rw [chars, inspect, hc]
    exact opening_number hhead _
  | decimal d =>
    rw [chars, inspect, String.toList_append, String.toList_append, List.append_assoc,
      List.append_assoc]
    rfl
  | text s =>
    rw [chars, inspect, Text.quote, String.toList_ofList]
    rcases Text.quoteMark_eq s.toList with h | h <;> rw [h] <;> rfl
  | uuid u =>
    rw [chars, inspect, String.toList_append, String.toList_append, List.append_assoc,
      List.append_assoc]
    rfl
  | date d =>
    rw [chars, inspect, Date.toList_inspect, List.append_assoc]
    rfl
  | dateTime t =>
    rw [chars, inspect, DateTime.toList_inspect, List.append_assoc]
    rfl
  | list items => rw [chars_list]; rfl
  | tuple items => rw [chars_tuple]; rfl
  | map entries => rw [chars_map]; rfl
  | undefined => rfl

private theorem not_isStop_number {c : Char} (h : c.isDigit = true ∨ c ∈ ['-', 'n', 'i']) :
    isStop c = false := by
  have hsigns : ∀ c ∈ ['-', 'n', 'i'], isStop c = false :=
    List.all_iff_forall_prop.mp (by decide)
  have hstops : ∀ c ∈ [',', ':', ']', ')', '}'], c.isDigit = false :=
    List.all_iff_forall_prop.mp (by decide)
  rcases h with h | h
  · refine Bool.eq_false_iff.mpr fun hstop ↦ ?_
    have hmem : c ∈ [',', ':', ']', ')', '}'] := by simpa [isStop, or_assoc] using hstop
    rw [hstops c hmem] at h
    cases h
  · exact hsigns c h

private theorem opening_stop {c : Char} (h : isStop c = true) (cs : List Char) :
    opening (c :: cs) = .int := by
  have hmem : c ∈ [',', ':', ']', ')', '}'] := by simpa [isStop, or_assoc] using h
  simp only [List.mem_cons, List.not_mem_nil, or_false] at hmem
  rcases hmem with rfl | rfl | rfl | rfl | rfl <;> rfl

/-- No written value begins like what can follow one. -/
theorem head_chars (v : Value) : ∃ c cs, v.chars = c :: cs ∧ isStop c = false := by
  have hopening := opening_chars v []
  rw [List.append_nil] at hopening
  by_cases hint : v.lead = .int
  · cases v with
    | int n =>
      obtain ⟨c, cs, hc, hhead⟩ := head_ofInt n
      exact ⟨c, cs, hc, not_isStop_number hhead⟩
    | float x =>
      obtain ⟨c, cs, hc, hhead⟩ := head_toText x
      exact ⟨c, cs, hc, not_isStop_number hhead⟩
    | _ => cases hint
  · rcases hchars : v.chars with _ | ⟨c, cs⟩
    · rw [hchars] at hopening
      exact absurd hopening.symm hint
    · refine ⟨c, cs, rfl, Bool.eq_false_iff.mpr fun hstop ↦ hint ?_⟩
      rw [← hopening, hchars, opening_stop hstop]

/-! ### Telling values apart -/

/-- The characters of a number, of either kind. -/
private theorem not_isStop_of_mem {v : Value} (h : v.lead = .int) :
    ∀ c ∈ v.chars, isStop c = false := by
  have hdigit {c : Char} (hc : c.isDigit = true) : isStop c = false := not_isStop_number (.inl hc)
  cases v with
  | int n =>
    intro c hc
    have hintegral := Text.isIntegral_of_mem_ofInt c hc
    rw [Text.isIntegral, Bool.or_eq_true, beq_iff_eq] at hintegral
    rcases hintegral with hc | rfl
    · exact hdigit hc
    · rfl
  | float x =>
    unfold chars inspect
    cases x with
    | nan => exact List.all_iff_forall_prop.mp (by decide)
    | infinite negative => cases negative <;> exact List.all_iff_forall_prop.mp (by decide)
    | finite negative m e =>
      have hmarks : ∀ c ∈ ['-', '+', '.', 'e', 'E'], isStop c = false :=
        List.all_iff_forall_prop.mp (by decide)
      rw [Binary64.toList_toText_finite]
      intro c hc
      rcases (Binary64.spelling m e).mem_signed negative c hc with hc | hc
      · exact hdigit hc
      · exact hmarks c hc
  | _ => cases h

/-- Written numbers can be told apart: those of integers have digits and a sign only. -/
private theorem apart_number {x y : Value} (hx : x.Sound) (hy : y.Sound) (hlead : x.lead = .int)
    (hlead' : y.lead = .int) {r s : List Char} (hr : Stops r) (hs : Stops s)
    (h : x.chars ++ r = y.chars ++ s) : x = y ∧ r = s := by
  have hrun {v : Value} (hv : v.lead = .int) : ∀ c ∈ v.chars, (!isStop c) = true := fun c hc ↦ by
    rw [not_isStop_of_mem hv c hc, Bool.not_false]
  have hend {r : List Char} (hr : Stops r) : ∀ c ∈ r.head?, (!isStop c) = false := fun c hc ↦ by
    rw [hr c hc, Bool.not_true]
  obtain ⟨hchars, rfl⟩ := Splitting.eq_of_run (hrun hlead) (hrun hlead') (hend hr) (hend hs) h
  refine ⟨?_, rfl⟩
  have hmixed {n : Int} {z : Binary64} (h : (Text.ofInt n).toList = z.toText.toList) : False := by
    obtain ⟨c, hc, hnot⟩ := z.exists_not_isIntegral
    rw [Text.isIntegral_of_mem_ofInt c (h ▸ hc)] at hnot
    cases hnot
  cases x with
  | int m =>
    cases y with
    | int n => rw [Text.ofInt_injective (String.toList_inj.mp hchars)]
    | float z => exact (hmixed hchars).elim
    | _ => cases hlead'
  | float z =>
    cases y with
    | int n => exact (hmixed hchars.symm).elim
    | float z' => rw [Binary64.toText_injective hx hy (String.toList_inj.mp hchars)]
    | _ => cases hlead'
  | _ => cases hlead

/-- A quoted text in a call can be told apart. -/
private theorem apart_call {name t t' : String} {r s : List Char}
    (h : (name ++ Text.quote t ++ ")").toList ++ r = (name ++ Text.quote t' ++ ")").toList ++ s) :
    t = t' ∧ r = s := by
  simp only [String.toList_append, List.append_assoc] at h
  obtain ⟨ht, hend⟩ := Text.quote_append_inj (List.append_cancel_left h)
  exact ⟨ht, List.append_cancel_left hend⟩

/-- Written values that hold no others can be told apart. -/
private theorem apart_scalar {x y : Value} (hscalar : x.isScalar = true) (hx : x.Sound)
    (hy : y.Sound) (hlead : x.lead = y.lead) {r s : List Char}
    (hr : Stops r) (hs : Stops s) (h : x.chars ++ r = y.chars ++ s) : x = y ∧ r = s := by
  cases x with
  | null =>
    cases y with
    | null => exact ⟨rfl, List.append_cancel_left h⟩
    | _ => cases hlead
  | bool b =>
    cases y with
    | bool b' =>
      cases b <;> cases b'
      · exact ⟨rfl, List.append_cancel_left h⟩
      · exact absurd (List.cons.inj h).1 (by decide)
      · exact absurd (List.cons.inj h).1 (by decide)
      · exact ⟨rfl, List.append_cancel_left h⟩
    | _ => cases hlead
  | int m => exact apart_number hx hy rfl hlead.symm hr hs h
  | float z => exact apart_number hx hy rfl hlead.symm hr hs h
  | decimal d =>
    cases y with
    | decimal d' =>
      obtain ⟨hd, rfl⟩ := apart_call h
      rw [Decimal.toText_injective hd]
      exact ⟨rfl, rfl⟩
    | _ => cases hlead
  | text t =>
    cases y with
    | text t' =>
      obtain ⟨rfl, rfl⟩ := Text.quote_append_inj h
      exact ⟨rfl, rfl⟩
    | _ => cases hlead
  | uuid u =>
    cases y with
    | uuid u' =>
      obtain ⟨hu, rfl⟩ := apart_call h
      rw [Uuid.toText_injective hu]
      exact ⟨rfl, rfl⟩
    | _ => cases hlead
  | date d =>
    cases y with
    | date d' =>
      obtain ⟨rfl, rfl⟩ := Date.inspect_append_inj h
      exact ⟨rfl, rfl⟩
    | _ => cases hlead
  | dateTime t =>
    cases y with
    | dateTime t' =>
      obtain ⟨rfl, rfl⟩ := DateTime.inspect_append_inj h
      exact ⟨rfl, rfl⟩
    | _ => cases hlead
  | list xs => cases hscalar
  | tuple xs => cases hscalar
  | map es => cases hscalar
  | undefined =>
    cases y with
    | undefined => exact ⟨rfl, List.append_cancel_left h⟩
    | _ => cases hlead

/-- Written entries can be told apart when keys and values can. -/
private theorem apart_entryChars {e e' : Value × Value} (hkey : Apart chars e.1 e'.1)
    (hvalue : Apart chars e.2 e'.2) : Apart entryChars e e' := by
  intro r s hr hs h
  simp only [entryChars, List.append_assoc, List.cons_append] at h
  obtain ⟨hk, hrest⟩ := hkey (stops_cons rfl _) (stops_cons rfl _) h
  obtain ⟨hv, hend⟩ := hvalue hr hs (List.cons.inj (List.cons.inj hrest).2).2
  exact ⟨Prod.ext hk hv, hend⟩

private theorem head_entryChars (e : Value × Value) :
    ∃ c cs, entryChars e = c :: cs ∧ isStop c = false := by
  obtain ⟨c, cs, hc, hstop⟩ := head_chars e.1
  exact ⟨c, _, by rw [entryChars, hc, List.cons_append], hstop⟩

private theorem lead_eq {x y : Value} {r s : List Char} (h : x.chars ++ r = y.chars ++ s) :
    x.lead = y.lead := by
  rw [← opening_chars x r, h, opening_chars]

/-- Written values can be told apart, whatever follows them. -/
theorem apart_chars (x y : Value) (hx : x.Sound) (hy : y.Sound) : Apart chars x y := by
  induction x using Value.induction generalizing y with
  | list xs ih =>
    intro r s hr hs h
    have hlead := lead_eq h
    cases y with
    | list ys =>
      simp only [chars_list, List.cons_append, List.append_assoc] at h
      have hitems : ∀ x ∈ xs, ∀ y ∈ ys, Apart chars x y := fun x hxs y hys ↦
        ih x hxs y (soundAll_iff.mp hx x hxs) (soundAll_iff.mp hy y hys)
      obtain ⟨rfl, hend⟩ := joined_append_inj hitems head_chars rfl (by decide) (List.cons.inj h).2
      exact ⟨rfl, hend⟩
    | _ => cases hlead
  | tuple xs ih =>
    intro r s hr hs h
    have hlead := lead_eq h
    cases y with
    | tuple ys =>
      simp only [chars_tuple, List.cons_append] at h
      have hitems : ∀ x ∈ xs, ∀ y ∈ ys, Apart chars x y := fun x hxs y hys ↦
        ih x hxs y (soundAll_iff.mp hx x hxs) (soundAll_iff.mp hy y hys)
      obtain ⟨rfl, hend⟩ := tupled_append_inj hitems head_chars (List.cons.inj h).2
      exact ⟨rfl, hend⟩
    | _ => cases hlead
  | map es ih =>
    intro r s hr hs h
    have hlead := lead_eq h
    cases y with
    | map es' =>
      simp only [chars_map, List.cons_append, List.append_assoc] at h
      have hentries : ∀ e ∈ es, ∀ e' ∈ es', Apart entryChars e e' := fun e he e' he' ↦ by
        obtain ⟨hkey, hvalue⟩ := soundEntries_iff.mp hx e he
        obtain ⟨hkey', hvalue'⟩ := soundEntries_iff.mp hy e' he'
        exact apart_entryChars ((ih e he).1 e'.1 hkey hkey') ((ih e he).2 e'.2 hvalue hvalue')
      obtain ⟨rfl, hend⟩ := joined_append_inj hentries head_entryChars rfl (by decide)
        (List.cons.inj h).2
      exact ⟨rfl, hend⟩
    | _ => cases hlead
  | scalar x hscalar =>
    intro r s hr hs h
    exact apart_scalar hscalar hx hy (lead_eq h) hr hs h

/-- The written form of a value inside a collection tells it from every other one. -/
theorem inspect_injective {x y : Value} (hx : x.Sound) (hy : y.Sound) (h : x.inspect = y.inspect) :
    x = y :=
  (apart_chars x y hx hy stops_nil stops_nil (congrArg (·.toList ++ []) h)).1

end Columnar.Value
