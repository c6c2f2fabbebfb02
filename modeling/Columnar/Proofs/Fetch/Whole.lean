import Columnar.Proofs.Fetch.Union
import Columnar.Proofs.Succeeding

/-!
# Whole objects

Every way to pick one related object of each relation gives a part of an object
(`allPart_of_mem_picks`). A part that holds whatever each of these does is the whole object, up to
the order in which related objects stand (`allSimilar_of_picks`).
-/

namespace Columnar

namespace Node

variable {S : Value → Prop} {nodes : List Node} {related ps : List (List Entity)}

/-! ### Picks -/

/-- Something can always be picked. -/
theorem exists_mem_picks (nodes : List Node) (related : List (List Entity)) :
    ∃ r, r ∈ picks nodes related := by
  induction nodes using forest_induction generalizing related with
  | nil => exact ⟨[], List.mem_singleton_self _⟩
  | cons level children rest ihChildren ihRest =>
    rcases related with _ | ⟨es, others⟩
    · exact ⟨[], List.mem_singleton_self _⟩
    · obtain ⟨q, hq⟩ := ihRest others
      have hhere : ∃ here, here ∈ picksOf (.mk level children) es := by
        rw [picksOf]
        split
        · exact ⟨es, List.mem_singleton_self _⟩
        · rcases es with _ | ⟨e, es⟩
          · exact ⟨[], List.mem_singleton_self _⟩
          · obtain ⟨r, hr⟩ := ihChildren e.related
            refine ⟨[.mk e.cells r], List.mem_flatMap.mpr ⟨e, by simp, ?_⟩⟩
            exact List.mem_map.mpr ⟨r, hr, rfl⟩
      obtain ⟨here, hhere⟩ := hhere
      exact ⟨here :: q, List.mem_flatMap.mpr ⟨here, hhere, List.mem_map.mpr ⟨q, hq, rfl⟩⟩⟩

/-- What is picked of related objects is part of them. -/
theorem allPart_of_mem_picks {r : List (List Entity)}
    (hfit : AllFit S nodes related) (h : r ∈ picks nodes related) : AllPart nodes related r := by
  induction nodes using forest_induction generalizing related r with
  | nil =>
    cases related with
    | nil =>
      obtain rfl := List.mem_singleton.mp h
      exact trivial
    | cons es others => exact hfit.elim
  | cons level children rest ihChildren ihRest =>
    rcases related with _ | ⟨es, others⟩
    · exact hfit.elim
    · obtain ⟨here, hhere, h⟩ := List.mem_flatMap.mp h
      obtain ⟨q, hq, rfl⟩ := List.mem_map.mp h
      refine ⟨?_, ihRest hfit.2 hq⟩
      rw [picksOf] at hhere
      rw [Part]
      by_cases hagg : level.aggregated = true
      · rw [if_pos hagg] at hhere ⊢
        exact List.mem_singleton.mp hhere
      · rw [if_neg hagg] at hhere ⊢
        rcases es with _ | ⟨e, es⟩
        · obtain rfl := List.mem_singleton.mp hhere
          refine ⟨List.nodup_nil, fun p hp ↦ ?_⟩
          cases hp
        · obtain ⟨e', he', hhere⟩ := List.mem_flatMap.mp hhere
          obtain ⟨r, hr, rfl⟩ := List.mem_map.mp hhere
          refine ⟨List.nodup_singleton _, fun p hp ↦ ?_⟩
          obtain rfl := List.mem_singleton.mp hp
          exact ⟨e', he', rfl, ihChildren (hfit.1.2.2 e' he').2.2 hr⟩

/-! ### The whole -/

/-- Where each of some objects has a part that is similar to it, and each part belongs to one of
them, the parts stand for all of them in some order. -/
private theorem exists_perm_forall₂ {R : Entity → Entity → Prop} {es ps : List Entity}
    (hes : (es.map Entity.cells).Nodup) (hps : (ps.map Entity.cells).Nodup)
    (hpart : ∀ p ∈ ps, ∃ e ∈ es, p.cells = e.cells)
    (hwhole : ∀ e ∈ es, ∃ p ∈ ps, p.cells = e.cells ∧ R e p) :
    ∃ order, order.Perm es ∧ List.Forall₂ (fun e p ↦ p.cells = e.cells ∧ R e p) order ps := by
  have heach : ∀ p ∈ ps, ∃ e, e ∈ es ∧ p.cells = e.cells ∧ R e p := by
    intro p hp
    obtain ⟨e, he, hcells⟩ := hpart p hp
    obtain ⟨p', hp', hcells', hR⟩ := hwhole e he
    obtain rfl := List.inj_on_of_nodup_map hps hp hp' (hcells.trans hcells'.symm)
    exact ⟨e, he, hcells, hR⟩
  obtain ⟨order, horder⟩ := Succeeding.exists_forall₂ heach
  have hmap : order.map Entity.cells = ps.map Entity.cells := by
    clear heach hwhole hpart hps
    induction horder with
    | nil => rfl
    | cons h _ ih => rw [List.map_cons, List.map_cons, h.2.1, ih]
  refine ⟨order, ?_, horder.imp fun e p h ↦ h.2⟩
  have hnodup : order.Nodup := by
    apply List.Nodup.of_map Entity.cells
    rw [hmap]
    exact hps
  have hsub : ∀ e ∈ order, e ∈ es := by
    intro e he
    obtain ⟨p, -, he, -⟩ := Succeeding.exists_of_forall₂ horder he
    exact he
  refine (List.perm_ext_iff_of_nodup hnodup (List.Nodup.of_map _ hes)).mpr fun e ↦
    ⟨hsub e, fun he ↦ ?_⟩
  obtain ⟨p, hp, hcells, -⟩ := hwhole e he
  have hmem : e.cells ∈ order.map Entity.cells := by
    rw [hmap, ← hcells]
    exact List.mem_map.mpr ⟨p, hp, rfl⟩
  obtain ⟨e', he', heq⟩ := List.mem_map.mp hmem
  obtain rfl := List.inj_on_of_nodup_map hes (hsub e' he') he heq
  exact he'

/-- A part that holds whatever each pick does is the whole. -/
theorem allSimilar_of_picks (hS : Value.Comparable S) (hfit : AllFit S nodes related)
    (hp : AllPart nodes related ps) (h : ∀ r ∈ picks nodes related, AllBelow nodes r ps) :
    AllSimilar nodes related ps := by
  induction nodes using forest_induction generalizing related ps with
  | nil =>
    cases related <;> cases ps <;> first | exact trivial | exact hfit.elim | exact hp.elim
  | cons level children rest ihChildren ihRest =>
    rcases related with _ | ⟨es, others⟩
    · exact hfit.elim
    rcases ps with _ | ⟨ps, othersP⟩
    · exact hp.elim
    have hpick {here : List Entity} {q : List (List Entity)}
        (hhere : here ∈ picksOf (.mk level children) es) (hq : q ∈ picks rest others) :
        Below (.mk level children) here ps ∧ AllBelow rest q othersP :=
      h (here :: q) (List.mem_flatMap.mpr ⟨here, hhere, List.mem_map.mpr ⟨q, hq, rfl⟩⟩)
    constructor
    · obtain ⟨q, hq⟩ := exists_mem_picks rest others
      obtain ⟨-, hpair, hes⟩ := hfit.1
      have hpart := hp.1
      rw [Part] at hpart
      rw [Similar]
      by_cases hagg : level.aggregated = true
      · rw [if_pos hagg] at hpart ⊢
        exact hpart
      · rw [if_neg hagg] at hpart ⊢
        obtain ⟨hnodup, hps⟩ := hpart
        have hnodupE := nodup_cells hS hpair fun e he ↦ (hes e he).1
        refine exists_perm_forall₂ hnodupE hnodup (fun p hp ↦ ?_) fun e he ↦ ?_
        · obtain ⟨e, he, hcells, -⟩ := hps p hp
          exact ⟨e, he, hcells⟩
        · have hbelow : ∀ r ∈ picks children e.related,
              ∃ p ∈ ps, e.cells = p.cells ∧ AllBelow children r p.related := by
            intro r hr
            have hhere : [Entity.mk e.cells r] ∈ picksOf (.mk level children) es := by
              rw [picksOf, if_neg hagg, if_neg (by simp [List.ne_nil_of_mem he])]
              exact List.mem_flatMap.mpr ⟨e, he, List.mem_map.mpr ⟨r, hr, rfl⟩⟩
            exact (hpick hhere hq).1 _ (List.mem_singleton_self _)
          -- every pick below the object is found in one and the same part
          obtain ⟨r, hr⟩ := exists_mem_picks children e.related
          obtain ⟨p, hmem, hcells, -⟩ := hbelow r hr
          obtain ⟨e', he', hcells', hpart⟩ := hps p hmem
          obtain rfl := List.inj_on_of_nodup_map hnodupE he he' (hcells.trans hcells')
          refine ⟨p, hmem, hcells.symm, ihChildren (hes e he).2.2 hpart fun r' hr' ↦ ?_⟩
          obtain ⟨p', hmem', hcells'', hbelow'⟩ := hbelow r' hr'
          obtain rfl := List.inj_on_of_nodup_map hnodup hmem hmem' (hcells.symm.trans hcells'')
          exact hbelow'
    · have hhere : ∃ here, here ∈ picksOf (.mk level children) es := by
        obtain ⟨here, hmem⟩ := exists_mem_picks [.mk level children] [es]
        obtain ⟨here, hhere, -⟩ := List.mem_flatMap.mp hmem
        exact ⟨here, hhere⟩
      obtain ⟨here, hhere⟩ := hhere
      exact ihRest hfit.2 hp.2 fun q hq ↦ (hpick hhere hq).2

end Node

end Columnar
