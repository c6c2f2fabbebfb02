import Columnar.Fetch.Merge
import Columnar.Proofs.Succeeding
import Mathlib.Data.List.Perm.Basic

/-!
# Groups of merged objects

Merging by identity parts the objects into groups of one key and makes one object of each group: the
first one, with the others united into it in order (`Merge.grouped_of_byIdentity`).
-/

namespace Columnar.Merge

variable {t : Table} {nodes : List Node} {objects : List Value}

/-- The object that is made of a group: its first one, with the others united into it. -/
def Folds (nodes : List Node) : List Value → Value → Prop
  | [], _ => False
  | first :: rest, o => rest.foldlM (unite nodes) first = .ok o

/-- One more object of the group is united with what the group makes. -/
theorem Folds.snoc {group : List Value} {made object united : Value} (h : Folds nodes group made)
    (hunite : unite nodes made object = .ok united) : Folds nodes (group ++ [object]) united := by
  cases group with
  | nil => exact h.elim
  | cons first rest =>
    change (rest ++ [object]).foldlM (unite nodes) first = .ok united
    have hrest : rest.foldlM (unite nodes) first = .ok made := h
    rw [List.foldlM_append, hrest]
    have hone : [object].foldlM (unite nodes) made = .ok united :=
      Succeeding.bind_eq_ok.mpr ⟨united, hunite, rfl⟩
    exact hone

/-- A group of objects of one key, and what it makes under that key. -/
structure GroupOf (t : Table) (nodes : List Node) (group : List Value) (e : String × Value) :
    Prop where
  keys : ∀ o ∈ group, Identity.key t o = .ok e.1
  folds : Folds nodes group e.2

private theorem exists_set {key : String} {made object united : Value} {groups : List (List Value)}
    {grouped : List (String × Value)} (h : List.Forall₂ (GroupOf t nodes) groups grouped)
    (hkey : Identity.key t object = .ok key) (hfound : Keyed.find? key grouped = some made)
    (hunite : unite nodes made object = .ok united) :
    ∃ groups', List.Forall₂ (GroupOf t nodes) groups' (Keyed.set key united grouped) ∧
      groups'.flatten.Perm (groups.flatten ++ [object]) := by
  induction h with
  | nil => cases hfound
  | @cons group e groups grouped hg hgs ih =>
    by_cases he : e.1 = key
    · have hmade : e.2 = made := by simpa [Keyed.find?, he] using hfound
      refine ⟨(group ++ [object]) :: groups, ?_, ?_⟩
      · rw [Keyed.set, if_pos he]
        refine .cons ⟨fun o ho ↦ ?_, (hmade ▸ hg.folds).snoc hunite⟩ hgs
        rcases List.mem_append.mp ho with ho | ho
        · exact he ▸ hg.keys o ho
        · rw [List.mem_singleton.mp ho, hkey]
      · rw [List.flatten_cons, List.flatten_cons, List.append_assoc, List.append_assoc]
        exact List.Perm.append_left group List.perm_append_comm
    · have hrest : Keyed.find? key grouped = some made := by simpa [Keyed.find?, he] using hfound
      obtain ⟨groups', hall, hperm⟩ := ih hrest
      refine ⟨group :: groups', ?_, ?_⟩
      · rw [Keyed.set, if_neg he]
        exact .cons hg hall
      · rw [List.flatten_cons, List.flatten_cons, List.append_assoc]
        exact hperm.append_left group

/-- An object joins the group of its key, or makes a new group. -/
private theorem exists_add {object : Value} {groups : List (List Value)}
    {grouped grouped' : List (String × Value)}
    (h : List.Forall₂ (GroupOf t nodes) groups grouped)
    (hadd : add t nodes grouped object = .ok grouped') :
    ∃ groups', List.Forall₂ (GroupOf t nodes) groups' grouped' ∧
      groups'.flatten.Perm (groups.flatten ++ [object]) := by
  obtain ⟨key, hkey, hadd⟩ := Succeeding.bind_eq_ok.mp hadd
  rcases hfound : Keyed.find? key grouped with _ | made <;> rw [hfound] at hadd
  · cases hadd
    have hnew : GroupOf t nodes [object] (key, object) :=
      ⟨fun o ho ↦ by rw [List.mem_singleton.mp ho, hkey], rfl⟩
    refine ⟨groups ++ [[object]], List.rel_append h (.cons hnew .nil), ?_⟩
    rw [List.flatten_append, List.flatten_singleton]
  · obtain ⟨united, hunite, hadd⟩ := Succeeding.bind_eq_ok.mp hadd
    cases hadd
    exact exists_set h hkey hfound hunite

/-- Objects that are added one by one are parted into groups. -/
private theorem exists_foldlM_add {groups : List (List Value)}
    {grouped grouped' : List (String × Value)}
    (h : List.Forall₂ (GroupOf t nodes) groups grouped)
    (hfold : objects.foldlM (add t nodes) grouped = .ok grouped') :
    ∃ groups', List.Forall₂ (GroupOf t nodes) groups' grouped' ∧
      groups'.flatten.Perm (groups.flatten ++ objects) := by
  induction objects generalizing groups grouped with
  | nil =>
    cases hfold
    exact ⟨groups, h, by rw [List.append_nil]⟩
  | cons object objects ih =>
    rw [List.foldlM_cons] at hfold
    obtain ⟨next, hadd, hfold⟩ := Succeeding.bind_eq_ok.mp hfold
    obtain ⟨groups₁, h₁, hperm₁⟩ := exists_add h hadd
    obtain ⟨groups₂, h₂, hperm₂⟩ := ih h₁ hfold
    refine ⟨groups₂, h₂, hperm₂.trans ?_⟩
    rw [← List.singleton_append, ← List.append_assoc]
    exact hperm₁.append_right objects

/-- What objects are merged into is made of groups of them, each of one key. -/
theorem grouped_of_byIdentity {merged : List Value}
    (h : (byIdentity t nodes objects).result = .ok merged) :
    ∃ (groups : List (List Value)) (grouped : List (String × Value)),
      groups.flatten.Perm objects ∧ List.Forall₂ (GroupOf t nodes) groups grouped ∧
        merged = grouped.map Prod.snd := by
  obtain ⟨grouped, hfold, h⟩ := Traced.result_bind_eq_ok.mp h
  obtain ⟨_, -, h⟩ := Traced.result_bind_eq_ok.mp h
  obtain ⟨groups, hgroups, hperm⟩ := exists_foldlM_add .nil hfold
  exact ⟨groups, grouped, hperm, hgroups, (Except.ok.inj h).symm⟩

end Columnar.Merge
