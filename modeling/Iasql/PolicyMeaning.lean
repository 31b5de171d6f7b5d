import Iasql.PolicyRewrites

namespace Iasql.CanonicalPolicy

open AwsDiff OrderedMap

section Meaning

variable (lower : LowerCase)

def SameTexts (f : JsString → JsString) (a b : OneOrMany JsString) : Prop :=
  ∀ s, s ∈ a.toList.map f ↔ s ∈ b.toList.map f

structure SamePrincipals (p q : Principal) : Prop where
  aws : Option.Rel (SameTexts id) p.toKinds.aws q.toKinds.aws
  service : Option.Rel (SameTexts id) p.toKinds.service q.toKinds.service
  federated : Option.Rel (SameTexts id) p.toKinds.federated q.toKinds.federated

def HasKey (d : Keys) (key : JsString) : Prop := ∃ e ∈ d.entries, lower.toLowerCase e.1 = key

-- the key, up to case, may have this value
def Under (d : Keys) (key s : JsString) : Prop :=
  ∃ e ∈ d.entries, lower.toLowerCase e.1 = key ∧ s ∈ texts e.2

structure SameKeys (d e : Keys) : Prop where
  keys : ∀ key, HasKey lower d key ↔ HasKey lower e key
  values : ∀ key s, Under lower d key s ↔ Under lower e key s

def SameCondition (c d : Condition) : Prop :=
  ∀ operator, Option.Rel (SameKeys lower) (c.get? operator) (d.get? operator)

structure SameMeaning (s t : Statement) : Prop where
  effect : s.effect = t.effect
  action : Option.Rel (SameTexts lower.toLowerCase) s.action t.action
  notAction : Option.Rel (SameTexts lower.toLowerCase) s.notAction t.notAction
  principal : Option.Rel SamePrincipals s.principal t.principal
  notPrincipal : Option.Rel SamePrincipals s.notPrincipal t.notPrincipal
  resource : Option.Rel (SameTexts id) s.resource t.resource
  notResource : Option.Rel (SameTexts id) s.notResource t.notResource
  condition : Option.Rel (SameCondition lower) s.condition t.condition

def SameStatements (p q : Policy) : Prop :=
  List.Forall₂ (SameMeaning lower) p.statement.toList q.statement.toList

-- the values under each key are among those under the last key that is the same up to case
def KeptKeys (d : Keys) : Prop :=
  ∀ e ∈ d.entries, ∀ v ∈ lastUnder lower d (lower.toLowerCase e.1), texts e.2 ⊆ texts v

def Kept (p : Policy) : Prop :=
  ∀ s ∈ p.statement.toList, ∀ c ∈ s.condition, ∀ operator, ∀ d ∈ c.get? operator,
    KeptKeys lower d

end Meaning

section Values

variable {lower : LowerCase} {d e : Keys} {key s : JsString}

def UnderLast (lower : LowerCase) (d : Keys) (key s : JsString) : Prop :=
  ∃ v, lastUnder lower d key = some v ∧ s ∈ texts v

theorem lastUnder_eq_some {v : OneOrMany ConditionValue} (h : lastUnder lower d key = some v) :
    ∃ e ∈ d.entries, lower.toLowerCase e.1 = key ∧ e.2 = v := by
  obtain ⟨e, hlast, hv⟩ := Option.map_eq_some_iff.mp h
  obtain ⟨hkey, hmem⟩ := lastWith_key hlast
  exact ⟨e, hmem, hkey, hv⟩

theorem hasKey_iff : HasKey lower d key ↔ (lastUnder lower d key).isSome := by
  rw [lastUnder, Option.isSome_map, ← not_iff_not, Bool.not_eq_true, Option.isSome_eq_false_iff,
    Option.isNone_iff_eq_none, lastWith_eq_none, HasKey]
  constructor
  · exact fun h e he hkey => h ⟨e, he, hkey⟩
  · rintro h ⟨e, he, hkey⟩
    exact h e he hkey

theorem under_of_underLast (h : UnderLast lower d key s) : Under lower d key s := by
  obtain ⟨v, hv, hs⟩ := h
  obtain ⟨e, hmem, hkey, rfl⟩ := lastUnder_eq_some hv
  exact ⟨e, hmem, hkey, hs⟩

theorem keptKeys_iff : KeptKeys lower d ↔ ∀ key s, Under lower d key s ↔ UnderLast lower d key s := by
  constructor
  · refine fun h key s => ⟨?_, under_of_underLast⟩
    rintro ⟨e, hmem, rfl, hs⟩
    obtain ⟨v, hv⟩ := Option.isSome_iff_exists.mp (hasKey_iff.mp ⟨e, hmem, rfl⟩)
    exact ⟨v, hv, h e hmem v hv hs⟩
  · intro h e hmem v hv s hs
    obtain ⟨w, hw, hs⟩ := (h _ s).mp ⟨e, hmem, rfl, hs⟩
    obtain rfl := Option.some.inj (hv.symm.trans hw)
    exact hs

theorem underLast_of_alike (h : AlikeKeys lower d e) :
    UnderLast lower d key s ↔ UnderLast lower e key s := by
  have hkey := h key
  rw [UnderLast, UnderLast]
  generalize lastUnder lower d key = v at hkey ⊢
  generalize lastUnder lower e key = w at hkey ⊢
  cases hkey with
  | none => rfl
  | @some v w heq =>
    have hmem : ∀ s, s ∈ texts v ↔ s ∈ texts w := fun s => by rw [← mem_uniq, heq, mem_uniq]
    simp [hmem]

theorem hasKey_of_alike (h : AlikeKeys lower d e) : HasKey lower d key ↔ HasKey lower e key := by
  have hkey := h key
  rw [hasKey_iff, hasKey_iff]
  generalize lastUnder lower d key = v at hkey ⊢
  generalize lastUnder lower e key = w at hkey ⊢
  cases hkey <;> simp

theorem mem_normalizeKeys {v : OneOrMany ConditionValue} :
    (key, v) ∈ (normalizeKeys lower d).entries ↔
      ∃ w, lastUnder lower d key = some w ∧ normalizeValue w = v := by
  rw [← Dict.get?_eq_some, get?_normalizeKeys, Option.map_eq_some_iff]

theorem lower_of_lastUnder {v : OneOrMany ConditionValue} (h : lastUnder lower d key = some v) :
    lower.toLowerCase key = key := by
  obtain ⟨e, -, rfl, -⟩ := lastUnder_eq_some h
  exact lower.idem e.1

theorem mem_texts_normalizeValue {v : OneOrMany ConditionValue} :
    s ∈ texts (normalizeValue v) ↔ s ∈ texts v := by
  rw [normalizeValue, texts_strings, mem_uniq]

theorem under_normalizeKeys :
    Under lower (normalizeKeys lower d) key s ↔ UnderLast lower d key s := by
  constructor
  · rintro ⟨⟨k, v⟩, hmem, rfl, hs⟩
    obtain ⟨w, hw, rfl⟩ := mem_normalizeKeys.mp hmem
    refine ⟨w, ?_, mem_texts_normalizeValue.mp hs⟩
    rw [lower_of_lastUnder hw, hw]
  · rintro ⟨w, hw, hs⟩
    refine ⟨(key, normalizeValue w), mem_normalizeKeys.mpr ⟨w, hw, rfl⟩, lower_of_lastUnder hw, ?_⟩
    exact mem_texts_normalizeValue.mpr hs

theorem hasKey_normalizeKeys : HasKey lower (normalizeKeys lower d) key ↔ HasKey lower d key := by
  rw [hasKey_iff (d := d), Option.isSome_iff_exists]
  constructor
  · rintro ⟨⟨k, v⟩, hmem, rfl⟩
    obtain ⟨w, hw, -⟩ := mem_normalizeKeys.mp hmem
    exact ⟨w, (lower_of_lastUnder hw).symm ▸ hw⟩
  · rintro ⟨w, hw⟩
    exact ⟨(key, normalizeValue w), mem_normalizeKeys.mpr ⟨w, hw, rfl⟩, lower_of_lastUnder hw⟩

-- normalisation keeps what is under every key exactly when the last key has it all
theorem sameKeys_normalizeKeys : SameKeys lower d (normalizeKeys lower d) ↔ KeptKeys lower d := by
  rw [keptKeys_iff]
  constructor
  · rintro ⟨-, hvalues⟩ key s
    rw [hvalues, under_normalizeKeys]
  · refine fun h => ⟨fun key => hasKey_normalizeKeys.symm, fun key s => ?_⟩
    rw [h, under_normalizeKeys]

theorem sameKeys_of_alike (h : AlikeKeys lower d e) (hd : KeptKeys lower d)
    (he : KeptKeys lower e) : SameKeys lower d e := by
  refine ⟨fun key => hasKey_of_alike h, fun key s => ?_⟩
  rw [keptKeys_iff.mp hd, keptKeys_iff.mp he, underLast_of_alike h]

end Values

section Sound

variable {lower : LowerCase}

theorem rel_imp {α : Type} {r s : α → α → Prop} {a b : Option α} (h : Option.Rel r a b)
    (hrs : ∀ x ∈ a, ∀ y ∈ b, r x y → s x y) : Option.Rel s a b := by
  cases h with
  | none => exact .none
  | some hr => exact .some (hrs _ rfl _ rfl hr)

theorem forall₂_imp {α : Type} {r s : α → α → Prop} {xs ys : List α} (h : List.Forall₂ r xs ys)
    (hrs : ∀ x ∈ xs, ∀ y ∈ ys, r x y → s x y) : List.Forall₂ s xs ys := by
  induction h with
  | nil => exact .nil
  | cons hr _ ih =>
    refine .cons (hrs _ List.mem_cons_self _ List.mem_cons_self hr) (ih fun x hx y hy => ?_)
    exact hrs x (List.mem_cons_of_mem _ hx) y (List.mem_cons_of_mem _ hy)

theorem rel_map_self {α : Type} {r : α → α → Prop} {f : α → α} (a : Option α) :
    Option.Rel r a (a.map f) ↔ ∀ x ∈ a, r x (f x) := by
  cases a <;> simp

theorem sameTexts_of_alike {f : JsString → JsString} {a b : OneOrMany JsString}
    (h : AlikeTexts f a b) : SameTexts f a b := fun _ => h.2.mem_iff

theorem samePrincipals_of_alike {p q : Principal} (h : AlikePrincipals p q) :
    SamePrincipals p q := by
  have hkind : ∀ {a b : Option (OneOrMany JsString)}, Option.Rel AlikeLists a b →
      Option.Rel (SameTexts id) a b := fun h => rel_imp h fun x _ y _ hxy s => by rw [hxy.2]
  exact ⟨hkind h.aws, hkind h.service, hkind h.federated⟩

theorem sameTexts_normalizeAction (a : OneOrMany JsString) :
    SameTexts lower.toLowerCase a (present (normalizeAction lower) a) := by
  intro s
  rw [present]
  split
  · simp only [normalizeAction, OneOrMany.toList_many, List.mem_map, mem_sorted]
    constructor
    · rintro ⟨t, ht, rfl⟩
      exact ⟨_, ⟨t, ht, rfl⟩, lower.idem t⟩
    · rintro ⟨_, ⟨t, ht, rfl⟩, rfl⟩
      exact ⟨t, ht, (lower.idem t).symm⟩
  · rfl

theorem sameTexts_normalizeResource (a : OneOrMany JsString) :
    SameTexts id a (present normalizeResource a) := by
  intro s
  rw [present]
  split
  · simp only [normalizeResource, OneOrMany.toList_many, List.map_id, mem_sorted]
  · rfl

theorem samePrincipals_normalizePrincipal (p : Principal) :
    SamePrincipals p (normalizePrincipal p) := by
  have hlisted : ∀ a : Option (OneOrMany JsString),
      Option.Rel (SameTexts id) a (a.map (present listed)) := by
    refine fun a => (rel_map_self a).mpr fun x _ s => ?_
    rw [present]
    split <;> rfl
  rw [normalizePrincipal_eq]
  exact ⟨hlisted _, hlisted _, hlisted _⟩

theorem sameCondition_normalizeCondition (c : Condition) :
    SameCondition lower c (normalizeCondition lower c) ↔
      ∀ operator, ∀ d ∈ c.get? operator, KeptKeys lower d := by
  refine forall_congr' fun operator => ?_
  rw [get?_normalizeCondition, rel_map_self]
  exact forall₂_congr fun d _ => sameKeys_normalizeKeys

theorem sameMeaning_normalizeStatement (s : Statement) :
    SameMeaning lower s (normalizeStatement lower s) ↔
      ∀ c ∈ s.condition, ∀ operator, ∀ d ∈ c.get? operator, KeptKeys lower d := by
  have hcondition : Option.Rel (SameCondition lower) s.condition
      (s.condition.map (normalizeCondition lower)) ↔
        ∀ c ∈ s.condition, ∀ operator, ∀ d ∈ c.get? operator, KeptKeys lower d :=
    (rel_map_self _).trans (forall₂_congr fun c _ => sameCondition_normalizeCondition c)
  rw [← hcondition]
  refine ⟨SameMeaning.condition, fun h => ⟨rfl, ?_, ?_, ?_, ?_, ?_, ?_, h⟩⟩
  · exact (rel_map_self _).mpr fun a _ => sameTexts_normalizeAction a
  · exact (rel_map_self _).mpr fun a _ => sameTexts_normalizeAction a
  · exact (rel_map_self _).mpr fun p _ => samePrincipals_normalizePrincipal p
  · exact (rel_map_self _).mpr fun p _ => samePrincipals_normalizePrincipal p
  · exact (rel_map_self _).mpr fun a _ => sameTexts_normalizeResource a
  · exact (rel_map_self _).mpr fun a _ => sameTexts_normalizeResource a

-- nothing of the policy is dropped
theorem sameStatements_normalizePolicy (p : Policy) :
    SameStatements lower p (normalizePolicy lower p) ↔ Kept lower p := by
  rw [SameStatements, normalizePolicy, OneOrMany.toList_many, List.forall₂_map_right_iff,
    List.forall₂_same]
  exact forall₂_congr fun s _ => sameMeaning_normalizeStatement s

theorem sameMeaning_of_alike {s t : Statement} (h : Alike lower s t)
    (hs : ∀ c ∈ s.condition, ∀ operator, ∀ d ∈ c.get? operator, KeptKeys lower d)
    (ht : ∀ c ∈ t.condition, ∀ operator, ∀ d ∈ c.get? operator, KeptKeys lower d) :
    SameMeaning lower s t where
  effect := h.effect
  action := rel_imp h.action fun _ _ _ _ => sameTexts_of_alike
  notAction := rel_imp h.notAction fun _ _ _ _ => sameTexts_of_alike
  principal := rel_imp h.principal fun _ _ _ _ => samePrincipals_of_alike
  notPrincipal := rel_imp h.notPrincipal fun _ _ _ _ => samePrincipals_of_alike
  resource := rel_imp h.resource fun _ _ _ _ => sameTexts_of_alike
  notResource := rel_imp h.notResource fun _ _ _ _ => sameTexts_of_alike
  condition := rel_imp h.condition fun c hc c' hc' hcc' operator =>
    rel_imp (hcc' operator) fun d hd d' hd' hdd' =>
      sameKeys_of_alike hdd' (hs c hc operator d hd) (ht c' hc' operator d' hd')

-- policies found the same mean the same, and are normalised without loss, exactly when no key of a
-- condition has values that the last key equal to it up to case has not
theorem sound_iff_kept (lower : LowerCase) {p q : Policy}
    (h : policiesAreSame lower (some p) (some q) = true) :
    (SameStatements lower p q ∧ SameStatements lower p (normalizePolicy lower p) ∧
      SameStatements lower q (normalizePolicy lower q)) ↔ Kept lower p ∧ Kept lower q := by
  rw [sameStatements_normalizePolicy, sameStatements_normalizePolicy]
  refine and_iff_right_of_imp fun ⟨hp, hq⟩ => ?_
  obtain ⟨-, -, halike⟩ := (policiesAreSame_iff p q).mp h
  exact forall₂_imp halike fun s hs t ht hst => sameMeaning_of_alike hst (hp s hs) (hq t ht)

end Sound

section Dropped

def onlyIf (d : Keys) : Policy :=
  policy { blank with condition := some (.ofList [(js "StringEquals", d)]) }

def twoCases : Keys := .ofList [(js "a", .one (.str (js "x"))), (js "A", .one (.str (js "y")))]

def oneCase : Keys := .ofList [(js "A", .one (.str (js "y")))]

theorem get?_single (operator : JsString) (d : Keys) :
    (Dict.ofList [(operator, d)] : Condition).get? operator = some d := by
  rw [Dict.get?_ofList]
  simp [lastWith]

theorem keptKeys_of_kept {d : Keys} (h : Kept ascii (onlyIf d)) : KeptKeys ascii d :=
  h _ List.mem_cons_self _ rfl (js "StringEquals") d (get?_single _ d)

theorem sameKeys_of_same {d e : Keys} (h : SameStatements ascii (onlyIf d) (onlyIf e)) :
    SameKeys ascii d e := by
  obtain ⟨hstatement, -⟩ := List.forall₂_cons.mp h
  have hcondition := Option.rel_some_some.mp hstatement.condition (js "StringEquals")
  rw [get?_single, get?_single] at hcondition
  exact Option.rel_some_some.mp hcondition

-- the value under the first of two keys that differ in case is dropped
theorem dropped_value :
    policiesAreSame ascii (some (onlyIf twoCases)) (some (onlyIf oneCase)) = true ∧
      ¬ SameStatements ascii (onlyIf twoCases) (onlyIf oneCase) ∧
      ¬ SameStatements ascii (onlyIf twoCases) (normalizePolicy ascii (onlyIf twoCases)) := by
  have hunder : Under ascii twoCases (js "a") (js "x") :=
    ⟨(js "a", .one (.str (js "x"))), by decide, by decide, by decide⟩
  refine ⟨by decide, fun h => ?_, fun h => ?_⟩
  · obtain ⟨e, he, -, hs⟩ := ((sameKeys_of_same h).values _ _).mp hunder
    obtain rfl := List.mem_singleton.mp he
    revert hs
    decide
  · have hkept := keptKeys_of_kept ((sameStatements_normalizePolicy _).mp h)
    obtain ⟨v, hv, hs⟩ := (keptKeys_iff.mp hkept _ _).mp hunder
    obtain rfl : OneOrMany.one (ConditionValue.str (js "y")) = v := Option.some.inj hv
    revert hs
    decide

theorem single_case_sound :
    SameStatements ascii (onlyIf oneCase) (onlyIf oneCase) ∧
      SameStatements ascii (onlyIf oneCase) (normalizePolicy ascii (onlyIf oneCase)) ∧
      SameStatements ascii (onlyIf oneCase) (normalizePolicy ascii (onlyIf oneCase)) := by
  have hkept : Kept ascii (onlyIf oneCase) := by
    intro s hs c hc operator d hd e he v hv
    obtain rfl := List.mem_singleton.mp hs
    obtain rfl := Option.some.inj hc
    obtain ⟨-, rfl⟩ := Prod.mk.inj (List.mem_singleton.mp (Dict.get?_eq_some.mp hd))
    obtain rfl := List.mem_singleton.mp he
    obtain rfl : OneOrMany.one (ConditionValue.str (js "y")) = v := Option.some.inj hv
    exact fun _ => id
  exact (sound_iff_kept ascii (by decide)).mpr ⟨hkept, hkept⟩

end Dropped

end Iasql.CanonicalPolicy
