import Iasql.EntityIds

namespace Iasql.CustomIds

open OrderedMap EntityIds

section Source

-- returned: the keys that idFields gives, in its order
structure CustomId where
  requiredFields : List String
  returned : List String
  nonempty : requiredFields ≠ []
  nodup : requiredFields.Nodup
  perm : returned.Perm requiredFields

namespace CustomId

def generateId (m : CustomId) (fields : IdFields) : Except String String :=
  if fields.keys.length != m.requiredFields.length && !(fields.keys.all m.requiredFields.contains) then
    .error ("Id generation error. Valid fields to generate id are: " ++ ", ".intercalate m.requiredFields)
  else
    .ok (join (m.requiredFields.map fun fk => (field fields fk).getD "undefined"))

def idFields (m : CustomId) (id : String) : IdFields :=
  m.returned.foldl (fun fields fk => fields.set fk (split id)[m.requiredFields.idxOf fk]?) ∅

end CustomId

def routeFields : List String := ["routeTableId", "destination", "region"]

def recordSetFields : List String := ["hostedZoneId", "name", "recordType"]

def repositoryPolicyFields : List String := ["repositoryName", "region"]

def blockDeviceMappingFields : List String := ["instanceId", "deviceName", "volumeId", "region"]

def route : CustomId := ⟨routeFields, routeFields, by decide, by decide, .refl _⟩

def resourceRecordSet : CustomId := ⟨recordSetFields, recordSetFields, by decide, by decide, .refl _⟩

-- idFields puts the region first
def repositoryPolicy : CustomId :=
  ⟨repositoryPolicyFields, ["region", "repositoryName"], by decide, by decide, .swap _ _ _⟩

def instanceBlockDeviceMapping : CustomId :=
  ⟨blockDeviceMappingFields, blockDeviceMappingFields, by decide, by decide, .refl _⟩

inductive Mapper where
  | route
  | resourceRecordSet
  | repositoryPolicy
  | instanceBlockDeviceMapping

def Mapper.customId : Mapper → CustomId
  | .route => CustomIds.route
  | .resourceRecordSet => CustomIds.resourceRecordSet
  | .repositoryPolicy => CustomIds.repositoryPolicy
  | .instanceBlockDeviceMapping => CustomIds.instanceBlockDeviceMapping

end Source

section Strict

def Exact (m : CustomId) (fields : IdFields) : Prop := ∀ fk, fk ∈ fields.keys ↔ fk ∈ m.requiredFields

def Given (m : CustomId) (fields : IdFields) : Prop :=
  ∀ fk ∈ m.requiredFields, ∃ v, fields.get? fk = some (some v)

-- allowed: the values that AWS takes for each field
def AllowedBy (allowed : String → String → Prop) (fields : IdFields) : Prop :=
  ∀ fk v, fields.get? fk = some (some v) → allowed fk v

structure Strict (m : CustomId) (allowed : String → String → Prop) (fields : IdFields) : Prop where
  throws : ¬ Exact m fields → ∃ message, m.generateId fields = .error message
  inverse : Exact m fields → Given m fields → AllowedBy allowed fields →
    ∃ id, m.generateId fields = .ok id ∧ ∀ fk, (m.idFields id).get? fk = fields.get? fk
  defined : ∀ id, m.generateId fields = .ok id → Given m fields

def Refused (m : CustomId) (fields : IdFields) : Prop :=
  fields.keys.length ≠ m.requiredFields.length ∧ ∃ fk ∈ fields.keys, fk ∉ m.requiredFields

def Plain (fields : IdFields) : Prop := ∀ fk v, fields.get? fk = some (some v) → '|' ∉ v.toList

def Kept (m : CustomId) (allowed : String → String → Prop) (fields : IdFields) : Prop :=
  Exact m fields ∧ Given m fields ∧ (AllowedBy allowed fields → Plain fields)

end Strict

section Codec

variable {m : CustomId} {fields : IdFields} {id fk : String}

abbrev CustomId.columns (m : CustomId) : CloudColumns := ⟨m.requiredFields, m.nonempty, m.nodup⟩

theorem entries_idFields (m : CustomId) (id : String) : (m.idFields id).entries =
    m.returned.map fun fk => (fk, (split id)[m.requiredFields.idxOf fk]?) := by
  have hkeys : keys (m.returned.map fun fk => (fk, (split id)[m.requiredFields.idxOf fk]?)) = m.returned := by
    simp [keys, Function.comp_def]
  have hfold := Dict.entries_foldl_set
    (m.returned.map fun fk => (fk, (split id)[m.requiredFields.idxOf fk]?)) ∅
  rw [List.foldl_map] at hfold
  refine hfold.trans (ofList_of_nodup ?_)
  rw [hkeys]
  exact m.perm.nodup_iff.mpr m.nodup

-- the fields that the decorated columns of the same names would give
theorem get?_idFields (m : CustomId) (id fk : String) :
    (m.idFields id).get? fk = ((ofColumns m.columns "").idFields id).get? fk := by
  refine Option.ext fun v => ?_
  rw [Dict.get?_eq_some, Dict.get?_eq_some, entries_idFields, mem_idFields, List.mem_map]
  constructor
  · rintro ⟨_, hmem, heq⟩
    obtain ⟨rfl, rfl⟩ := Prod.mk.inj heq
    exact ⟨_, List.getElem?_idxOf (m.perm.mem_iff.mp hmem), rfl⟩
  · rintro ⟨i, hi, rfl⟩
    obtain ⟨hlt, rfl⟩ := List.getElem?_eq_some_iff.mp hi
    refine ⟨_, m.perm.mem_iff.mpr (List.getElem_mem hlt), ?_⟩
    rw [m.nodup.idxOf_getElem]

theorem generateId_of_not_refused (h : ¬ Refused m fields) : m.generateId fields =
    .ok (join (m.requiredFields.map fun fk => (field fields fk).getD "undefined")) := by
  rw [CustomId.generateId, if_neg]
  simp only [Bool.and_eq_true, bne_iff_ne, Bool.not_eq_true', List.all_eq_false, List.contains_iff_mem]
  exact h

theorem generateId_of_refused (h : Refused m fields) : ∃ message, m.generateId fields = .error message := by
  refine ⟨_, if_pos ?_⟩
  simp only [Bool.and_eq_true, bne_iff_ne, Bool.not_eq_true', List.all_eq_false, List.contains_iff_mem]
  exact h

theorem not_refused_of_exact (h : Exact m fields) : ¬ Refused m fields := by
  rintro ⟨-, fk, hfk, hnot⟩
  exact hnot ((h fk).mp hfk)

theorem fieldsOf (hexact : Exact m fields) (hgiven : Given m fields) :
    FieldsOf m.columns Set.univ fields := by
  refine ⟨hexact, fun fk v hmem => ?_⟩
  obtain ⟨s, hs⟩ := hgiven fk ((hexact fk).mp (Dict.mem_keys.mpr ⟨v, hmem⟩))
  exact ⟨s, trivial, Dict.mem_unique hmem (Dict.get?_eq_some.mp hs)⟩

theorem texts_eq (hgiven : Given m fields) :
    (m.requiredFields.map fun fk => (field fields fk).getD "undefined") = texts m.columns fields := by
  refine List.map_congr_left fun fk hfk => ?_
  obtain ⟨v, hv⟩ := hgiven fk hfk
  rw [field, hv]
  rfl

theorem plain_iff (hexact : Exact m fields) (hgiven : Given m fields) :
    Plain fields ↔ ∀ t ∈ texts m.columns fields, '|' ∉ t.toList := by
  constructor
  · intro h t ht
    obtain ⟨fk, hfk, rfl⟩ := List.mem_map.mp ht
    obtain ⟨v, hv⟩ := hgiven fk hfk
    rw [field, hv]
    exact h fk v hv
  · intro h fk v hv
    have hmem : fk ∈ m.requiredFields :=
      (hexact fk).mp (Dict.mem_keys.mpr ⟨some v, Dict.get?_eq_some.mp hv⟩)
    refine h v (List.mem_map.mpr ⟨fk, hmem, ?_⟩)
    rw [field, hv]
    rfl

-- the fields come back exactly where no value holds the bar
theorem inverse_iff (hexact : Exact m fields) (hgiven : Given m fields) :
    (∃ id, m.generateId fields = .ok id ∧ ∀ fk, (m.idFields id).get? fk = fields.get? fk) ↔ Plain fields := by
  have hfields := fieldsOf hexact hgiven
  rw [generateId_of_not_refused (not_refused_of_exact hexact), texts_eq hgiven, plain_iff hexact hgiven]
  simp only [get?_idFields, Except.ok.injEq, exists_eq_left', hfields.idFields_iff]
  constructor
  · intro h t ht
    obtain ⟨i, hi, rfl⟩ := List.getElem_of_mem ht
    have hpart := h i (length_texts m.columns fields ▸ hi)
    rw [List.getElem?_eq_getElem hi] at hpart
    exact not_mem_of_mem_split (List.mem_of_getElem? hpart)
  · intro hplain i _
    rw [split_join texts_ne_nil hplain]

theorem strict_iff (m : CustomId) (allowed : String → String → Prop) (fields : IdFields) :
    Strict m allowed fields ↔ Refused m fields ∨ Kept m allowed fields := by
  constructor
  · intro h
    by_cases hrefused : Refused m fields
    · exact .inl hrefused
    have hok := generateId_of_not_refused hrefused
    have hexact : Exact m fields := by
      by_contra hnot
      obtain ⟨message, herror⟩ := h.throws hnot
      rw [hok] at herror
      cases herror
    have hgiven := h.defined _ hok
    exact .inr ⟨hexact, hgiven, fun hallowed =>
      (inverse_iff hexact hgiven).mp (h.inverse hexact hgiven hallowed)⟩
  · rintro (hrefused | ⟨hexact, hgiven, hplain⟩)
    · obtain ⟨message, herror⟩ := generateId_of_refused hrefused
      refine ⟨fun _ => ⟨message, herror⟩, fun hexact => absurd hrefused (not_refused_of_exact hexact), ?_⟩
      intro id hok
      rw [herror] at hok
      cases hok
    · exact ⟨fun hnot => absurd hexact hnot, fun _ _ hallowed => (inverse_iff hexact hgiven).mpr (hplain hallowed),
        fun _ _ => hgiven⟩

theorem customId_strict (mapper : Mapper) (allowed : String → String → Prop) (fields : IdFields) :
    Strict mapper.customId allowed fields ↔
      Refused mapper.customId fields ∨ Kept mapper.customId allowed fields :=
  strict_iff mapper.customId allowed fields

def withoutRegion : IdFields :=
  ⟨[("routeTableId", some "rtb-1"), ("destination", some "10.0.0.0/16")], by simp [keys]⟩

theorem undefined_region : route.generateId withoutRegion = .ok "rtb-1|10.0.0.0/16|undefined" ∧
    ∀ allowed : String → String → Prop, ¬ Strict route allowed withoutRegion := by
  have hok : route.generateId withoutRegion = .ok "rtb-1|10.0.0.0/16|undefined" := by decide
  refine ⟨hok, fun allowed h => ?_⟩
  obtain ⟨v, hv⟩ := h.defined _ hok "region" (by decide)
  have hnone : withoutRegion.get? "region" = none := by decide
  rw [hnone] at hv
  cases hv

end Codec

end Iasql.CustomIds
