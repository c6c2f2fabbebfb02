import Columnar.Proofs.Calendar.Civil
import Columnar.Proofs.Number.Digits

/-!
# Written dates and date-times

As a call that rebuilds it, a date or a date-time can be told from every other one and from what
follows it (`Date.inspect_append_inj`, `DateTime.inspect_append_inj`): its numbers are runs of
digits, and they say which day and which time of the day it is.
-/

namespace Columnar

namespace Text

/-- Numbers with a comma and a blank in front of each. -/
def listed (ns : List Nat) : List Char := ns.flatMap fun n ↦ ", ".toList ++ Nat.toDigits 10 n

/-- What follows a list of numbers: it goes on neither a number nor the list. -/
structure EndsList (r : List Char) : Prop where
  head : ∀ c ∈ r.head?, c.isDigit = false
  next : ∀ c s, r = ',' :: ' ' :: c :: s → c.isDigit = false

theorem endsList_paren (r : List Char) : EndsList (')' :: r) :=
  ⟨fun c h ↦ by cases h; rfl, fun _ _ h ↦ by cases h⟩

private theorem isDigit_head?_listed {ns : List Nat} {r : List Char} (hr : EndsList r) :
    ∀ c ∈ (listed ns ++ r).head?, c.isDigit = false := by
  cases ns with
  | nil => exact hr.head
  | cons n ns =>
    rintro c ⟨rfl⟩
    rfl

private theorem listed_cons (n : Nat) (ns : List Nat) (r : List Char) :
    listed (n :: ns) ++ r = ',' :: ' ' :: (Nat.toDigits 10 n ++ (listed ns ++ r)) := by
  simp [listed]

private theorem not_endsList_cons {n : Nat} {r s : List Char} (hr : EndsList r)
    (h : r = ',' :: ' ' :: (Nat.toDigits 10 n ++ s)) : False := by
  obtain ⟨d, ds, hd⟩ := List.exists_cons_of_ne_nil (Nat.toDigits_ne_nil (n := n) (b := 10))
  have hdigit := isDigit_of_mem_toDigits (n := n) (hd ▸ List.mem_cons_self)
  have hno := hr.next d (ds ++ s) (by rw [h, hd]; rfl)
  rw [hdigit] at hno
  cases hno

/-- The numbers of a list can be told apart, and from what follows. -/
theorem listed_append_inj {ns ns' : List Nat} {r r' : List Char} (hr : EndsList r)
    (hr' : EndsList r') (h : listed ns ++ r = listed ns' ++ r') : ns = ns' ∧ r = r' := by
  induction ns generalizing ns' with
  | nil =>
    cases ns' with
    | nil => exact ⟨rfl, h⟩
    | cons n' ns' => exact (not_endsList_cons hr (h.trans (listed_cons n' ns' r'))).elim
  | cons n ns ih =>
    cases ns' with
    | nil => exact (not_endsList_cons hr' (h.symm.trans (listed_cons n ns r))).elim
    | cons n' ns' =>
      rw [listed_cons, listed_cons] at h
      obtain ⟨rfl, hrest⟩ := toDigits_append_inj (isDigit_head?_listed hr)
        (isDigit_head?_listed hr') (List.cons.inj (List.cons.inj h).2).2
      obtain ⟨rfl, rfl⟩ := ih hrest
      exact ⟨rfl, rfl⟩

/-- The same for a list whose first number has no comma in front. -/
theorem numbers_append_inj {n n' : Nat} {ns ns' : List Nat} {r r' : List Char} (hr : EndsList r)
    (hr' : EndsList r')
    (h : Nat.toDigits 10 n ++ (listed ns ++ r) = Nat.toDigits 10 n' ++ (listed ns' ++ r')) :
    n = n' ∧ ns = ns' ∧ r = r' := by
  obtain ⟨rfl, hrest⟩ := toDigits_append_inj (isDigit_head?_listed hr) (isDigit_head?_listed hr') h
  exact ⟨rfl, listed_append_inj hr hr' hrest⟩

end Text

/-! ### Dates -/

theorem Date.toList_inspect (d : Date) : d.inspect.toList = "datetime.date(".toList ++
    (Nat.toDigits 10 d.civil.year ++ (Text.listed [d.civil.month, d.civil.day] ++ [')'])) := by
  simp [Date.inspect, Text.listed, Text.ofNat]

/-- A written date can be told from what follows it. -/
theorem Date.inspect_append_inj {d d' : Date} {r r' : List Char}
    (h : d.inspect.toList ++ r = d'.inspect.toList ++ r') : d = d' ∧ r = r' := by
  simp only [toList_inspect, List.append_assoc] at h
  obtain ⟨hyear, hrest, hend⟩ := Text.numbers_append_inj (Text.endsList_paren r)
    (Text.endsList_paren r') (List.append_cancel_left h)
  obtain ⟨hmonth, hday⟩ := List.cons.inj hrest
  obtain ⟨hday, -⟩ := List.cons.inj hday
  have hnumber : d.day = d'.day := Civil.ofDay_injective (Civil.ext hyear hmonth hday)
  exact ⟨Date.ext hnumber, (List.cons.inj hend).2⟩

/-! ### Date-times -/

attribute [ext] DateTime

namespace DateTime

/-- Days and seconds of a span of time, each as far as it is not zero. -/
private def spanParts (days rest : Int) : List Char :=
  if days = 0 then "seconds=".toList ++ (Text.ofInt rest).toList
  else "days=".toList ++ ((Text.ofInt days).toList ++
    if rest = 0 then [] else ',' :: ' ' :: ("seconds=".toList ++ (Text.ofInt rest).toList))

private theorem toList_spanText {seconds : Int} (h : seconds ≠ 0) :
    (spanText seconds).toList = "datetime.timedelta(".toList ++
      (spanParts (seconds / 86400) (seconds % 86400) ++ [')']) := by
  have hparts : seconds / 86400 = 0 → seconds % 86400 ≠ 0 := by omega
  unfold spanText spanParts
  by_cases hdays : seconds / 86400 = 0
  · simp [hdays, hparts hdays]
  · by_cases hrest : seconds % 86400 = 0 <;> simp [hdays, hrest]

/-- A written span of time can be told from what follows it. -/
private theorem spanText_append_inj {a b : Int} (ha : a ≠ 0) (hb : b ≠ 0) {r r' : List Char}
    (h : (spanText a).toList ++ r = (spanText b).toList ++ r') : a = b ∧ r = r' := by
  simp only [toList_spanText ha, toList_spanText hb, List.append_assoc] at h
  have hbody := List.append_cancel_left h
  have hparen (s : List Char) : ∀ c ∈ (')' :: s).head?, Text.isIntegral c = false := by
    rintro c ⟨rfl⟩
    rfl
  have hcomma (s : List Char) : ∀ c ∈ (',' :: s).head?, Text.isIntegral c = false := by
    rintro c ⟨rfl⟩
    rfl
  have hdivide : a / 86400 = b / 86400 → a % 86400 = b % 86400 → a = b := by omega
  unfold spanParts at hbody
  by_cases hda : a / 86400 = 0 <;> by_cases hdb : b / 86400 = 0 <;>
    simp only [hda, hdb, if_true, if_false, List.append_assoc] at hbody
  · obtain ⟨hrest, hend⟩ := Text.ofInt_append_inj (hparen r) (hparen r')
      (List.append_cancel_left hbody)
    exact ⟨hdivide (hda.trans hdb.symm) hrest, (List.cons.inj hend).2⟩
  · exact absurd (List.cons.inj hbody).1 (by decide)
  · exact absurd (List.cons.inj hbody).1 (by decide)
  · have hdays := List.append_cancel_left hbody
    by_cases hra : a % 86400 = 0 <;> by_cases hrb : b % 86400 = 0 <;>
      simp only [hra, hrb, if_true, if_false, List.nil_append, List.cons_append,
        List.append_assoc] at hdays
    · obtain ⟨hday, hend⟩ := Text.ofInt_append_inj (hparen r) (hparen r') hdays
      exact ⟨hdivide hday (hra.trans hrb.symm), (List.cons.inj hend).2⟩
    · obtain ⟨-, hend⟩ := Text.ofInt_append_inj (hparen r) (hcomma _) hdays
      exact absurd (List.cons.inj hend).1 (by decide)
    · obtain ⟨-, hend⟩ := Text.ofInt_append_inj (hcomma _) (hparen r') hdays
      exact absurd (List.cons.inj hend).1 (by decide)
    · obtain ⟨hday, hend⟩ := Text.ofInt_append_inj (hcomma _) (hcomma _) hdays
      obtain ⟨hrest, hend⟩ := Text.ofInt_append_inj (hparen r) (hparen r')
        (List.append_cancel_left (List.cons.inj (List.cons.inj hend).2).2)
      exact ⟨hdivide hday hrest, (List.cons.inj hend).2⟩

/-- A written zone can be told from what follows it. -/
private theorem zoneText_append_inj {a b : Int} {r r' : List Char}
    (h : (zoneText a).toList ++ r = (zoneText b).toList ++ r') : a = b ∧ r = r' := by
  have hutc : "datetime.timezone.utc".toList = "datetime.timezone".toList ++ ['.', 'u', 't', 'c'] :=
    rfl
  have hcall : "datetime.timezone(".toList = "datetime.timezone".toList ++ ['('] := rfl
  unfold zoneText at h
  by_cases ha : a = 0 <;> by_cases hb : b = 0 <;>
    simp only [ha, hb, if_true, if_false, String.toList_append, hutc, hcall, List.append_assoc] at h
  · exact ⟨ha.trans hb.symm, List.append_cancel_left (List.append_cancel_left h)⟩
  · exact absurd (List.cons.inj (List.append_cancel_left h)).1 (by decide)
  · exact absurd (List.cons.inj (List.append_cancel_left h)).1 (by decide)
  · obtain ⟨rfl, hend⟩ := spanText_append_inj ha hb
      (List.append_cancel_left (List.append_cancel_left h))
    exact ⟨rfl, List.append_cancel_left hend⟩

/-- The zone and the end of a written date-time. -/
def zoneChars (offset : Option Int) : List Char :=
  offset.elim [] (fun seconds ↦ ',' :: ' ' :: ("tzinfo=".toList ++ (zoneText seconds).toList)) ++
    [')']

theorem endsList_zoneChars (offset : Option Int) (r : List Char) :
    Text.EndsList (zoneChars offset ++ r) := by
  cases offset with
  | none => exact Text.endsList_paren r
  | some seconds => exact ⟨fun c h ↦ by cases h; rfl, fun c s h ↦ by cases h; rfl⟩

theorem zoneChars_append_inj {o o' : Option Int} {r r' : List Char}
    (h : zoneChars o ++ r = zoneChars o' ++ r') : o = o' ∧ r = r' := by
  cases o <;> cases o' <;>
    simp only [zoneChars, Option.elim_none, Option.elim_some, List.nil_append, List.cons_append,
      List.append_assoc] at h
  · exact ⟨rfl, (List.cons.inj h).2⟩
  · exact absurd (List.cons.inj h).1 (by decide)
  · exact absurd (List.cons.inj h).1 (by decide)
  · have hzone := List.append_cancel_left (List.cons.inj (List.cons.inj h).2).2
    obtain ⟨rfl, hend⟩ := zoneText_append_inj hzone
    exact ⟨rfl, (List.cons.inj hend).2⟩

/-- Seconds and microseconds, as far as they are written. -/
def secondsOf (second micro : Nat) : List Nat :=
  if micro ≠ 0 then [second, micro] else if second ≠ 0 then [second] else []

theorem secondsOf_inj {s m s' m' : Nat} (h : secondsOf s m = secondsOf s' m') :
    s = s' ∧ m = m' := by
  unfold secondsOf at h
  by_cases hm : m = 0 <;> by_cases hm' : m' = 0 <;> by_cases hs : s = 0 <;>
    by_cases hs' : s' = 0 <;> simp_all

theorem toList_inspect (t : DateTime) : t.inspect.toList = "datetime.datetime(".toList ++
    (Nat.toDigits 10 (Civil.ofDay t.dayNumber).year ++
      (Text.listed ((Civil.ofDay t.dayNumber).month :: (Civil.ofDay t.dayNumber).day ::
        t.clock.1 :: t.clock.2.1 :: secondsOf t.clock.2.2.1 t.clock.2.2.2) ++
        zoneChars t.offset)) := by
  have hlist (ns : List Nat) (zs : List String) (first : Nat) :
      (", ".intercalate ((first :: ns).map Text.ofNat ++ zs)).toList =
        Nat.toDigits 10 first ++
          (Text.listed ns ++ zs.flatMap fun z ↦ ", ".toList ++ z.toList) := by
    rw [String.toList_intercalate, List.map_cons, List.cons_append, List.map_cons,
      Splitting.intercalate_cons, List.map_append, List.flatMap_append]
    simp [Text.listed, Text.ofNat, List.flatMap_map]
  have hzone (offset : Option Int) :
      ((offset.elim [] fun seconds ↦ ["tzinfo=" ++ zoneText seconds]).flatMap
        fun z ↦ ", ".toList ++ z.toList) ++ [')'] = zoneChars offset := by
    cases offset <;> simp [zoneChars]
  have hinspect : t.inspect = "datetime.datetime(" ++ ", ".intercalate
      (((Civil.ofDay t.dayNumber).year :: (Civil.ofDay t.dayNumber).month ::
        (Civil.ofDay t.dayNumber).day :: t.clock.1 :: t.clock.2.1 ::
        secondsOf t.clock.2.2.1 t.clock.2.2.2).map Text.ofNat ++
        t.offset.elim [] fun seconds ↦ ["tzinfo=" ++ zoneText seconds]) ++ ")" := by
    unfold inspect
    cases t.offset <;> rfl
  have hclose : ")".toList = [')'] := rfl
  rw [hinspect, String.toList_append, String.toList_append, hlist, hclose, List.append_assoc,
    List.append_assoc, List.append_assoc, hzone]

/-- A written date-time can be told from what follows it. -/
theorem inspect_append_inj {t t' : DateTime} {r r' : List Char}
    (h : t.inspect.toList ++ r = t'.inspect.toList ++ r') : t = t' ∧ r = r' := by
  simp only [toList_inspect, List.append_assoc] at h
  obtain ⟨hyear, hrest, hend⟩ := Text.numbers_append_inj (endsList_zoneChars t.offset r)
    (endsList_zoneChars t'.offset r') (List.append_cancel_left h)
  obtain ⟨hmonth, hrest⟩ := List.cons.inj hrest
  obtain ⟨hday, hrest⟩ := List.cons.inj hrest
  obtain ⟨hhour, hrest⟩ := List.cons.inj hrest
  obtain ⟨hminute, hrest⟩ := List.cons.inj hrest
  obtain ⟨hsecond, hmicro⟩ := secondsOf_inj hrest
  obtain ⟨hoffset, hr⟩ := zoneChars_append_inj hend
  have hnumber : t.dayNumber = t'.dayNumber := Civil.ofDay_injective (Civil.ext hyear hmonth hday)
  have hdate : t.micros / 86400000000 = t'.micros / 86400000000 := hnumber
  have htime : t.micros % 86400000000 = t'.micros % 86400000000 := by
    simp only [clock, microsPerDay] at hhour hminute hsecond hmicro
    omega
  refine ⟨DateTime.ext ?_ hoffset, hr⟩
  omega

end DateTime

end Columnar
