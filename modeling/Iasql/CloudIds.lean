import Iasql.Aws
import Iasql.Calculus.Separated

namespace Iasql.Aws

def Plain (s : String) : Prop := '|' ∉ s.toList

instance (s : String) : Decidable (Plain s) := inferInstanceAs (Decidable ('|' ∉ s.toList))

section Lists

variable {α : Type} {a : α} {xs ys us vs : List α}

theorem append_cons_inj_left (hx : a ∉ xs) (hy : a ∉ ys) (h : xs ++ a :: us = ys ++ a :: vs) :
    xs = ys ∧ us = vs := by
  induction xs generalizing ys with
  | nil =>
    cases ys with
    | nil => exact ⟨rfl, by simpa using h⟩
    | cons y ys =>
      obtain ⟨rfl, -⟩ := List.cons.inj h
      exact absurd (List.mem_cons_self) hy
  | cons x xs ih =>
    cases ys with
    | nil =>
      obtain ⟨rfl, -⟩ := List.cons.inj h
      exact absurd (List.mem_cons_self) hx
    | cons y ys =>
      obtain ⟨rfl, htail⟩ := List.cons.inj h
      obtain ⟨rfl, rfl⟩ := ih (fun hmem => hx (List.mem_cons_of_mem _ hmem))
        (fun hmem => hy (List.mem_cons_of_mem _ hmem)) htail
      exact ⟨rfl, rfl⟩

theorem append_cons_inj_right (hu : a ∉ us) (hv : a ∉ vs) (h : xs ++ a :: us = ys ++ a :: vs) :
    xs = ys ∧ us = vs := by
  have hrev : us.reverse ++ a :: xs.reverse = vs.reverse ++ a :: ys.reverse := by
    simpa using congrArg List.reverse h
  obtain ⟨hus, hxs⟩ := append_cons_inj_left (by simpa using hu) (by simpa using hv) hrev
  exact ⟨List.reverse_injective hxs, List.reverse_injective hus⟩

end Lists

section Ids

variable {name name' region region' : String} {fields fields' : List String}

theorem generateId_toList (fields : List String) :
    (generateId fields).toList = ['|'].intercalate (fields.map String.toList) := by
  rw [generateId, String.toList_ofList]
  rfl

theorem generateId_pair_inj (hr : Plain region) (hr' : Plain region')
    (h : generateId [name, region] = generateId [name', region']) :
    name = name' ∧ region = region' := by
  have h := congrArg String.toList h
  rw [generateId_toList, generateId_toList] at h
  have h : name.toList ++ '|' :: region.toList = name'.toList ++ '|' :: region'.toList := by
    simpa [List.intercalate] using h
  obtain ⟨hname, hregion⟩ := append_cons_inj_right hr hr' h
  exact ⟨String.toList_inj.mp hname, String.toList_inj.mp hregion⟩

theorem generateId_inj (hp : ∀ f ∈ fields, Plain f) (hp' : ∀ f ∈ fields', Plain f)
    (hne : fields ≠ []) (hne' : fields' ≠ []) (h : generateId fields = generateId fields') :
    fields = fields' := by
  have h := congrArg String.toList h
  rw [generateId_toList, generateId_toList] at h
  refine List.map_injective_iff.mpr (fun _ _ => String.toList_inj.mp) (Separated.intercalate_inj ?_ ?_ ?_ ?_ h)
  · simpa [Plain] using hp
  · simpa [Plain] using hp'
  · simpa using hne
  · simpa using hne'

theorem cloudId_of_bar {id : String} (h : '|' ∈ id.toList) : CloudId id :=
  ⟨fun n heq => bar_not_mem_primaryText n (heq ▸ h)⟩

theorem cloudId_generateId (x y : String) (fields : List String) :
    CloudId (generateId (x :: y :: fields)) := by
  refine cloudId_of_bar ?_
  rw [generateId_toList]
  simp [List.intercalate]

theorem entityId_of_columns {e : Entity} (hcolumns : e.body.cloudColumns = fields)
    (hne : ∀ f ∈ fields, f ≠ "") : e.entityId = generateId fields := by
  unfold Entity.entityId
  rw [hcolumns, if_neg]
  intro hany
  obtain ⟨f, hf, hempty⟩ := List.any_eq_true.mp hany
  exact hne f hf (beq_iff_eq.mp hempty)

end Ids

end Iasql.Aws
