import Iasql.Policy

namespace Iasql.CanonicalPolicy

open AwsDiff OrderedMap

section Alike

variable (lower : LowerCase)

-- the same texts, each as often
def AlikeTexts (f : JsString → JsString) (a b : OneOrMany JsString) : Prop :=
  truthy a = truthy b ∧ (a.toList.map f).Perm (b.toList.map f)

def AlikeLists (a b : OneOrMany JsString) : Prop := truthy a = truthy b ∧ a.toList = b.toList

def Principal.toKinds : Principal → Kinds
  | star => ⟨some (.one (js "*")), none, none⟩
  | kinds k => k

structure AlikePrincipals (p q : Principal) : Prop where
  aws : Option.Rel AlikeLists p.toKinds.aws q.toKinds.aws
  service : Option.Rel AlikeLists p.toKinds.service q.toKinds.service
  federated : Option.Rel AlikeLists p.toKinds.federated q.toKinds.federated

-- the value under the last of the keys that are this one in lower case
def lastUnder (d : Keys) (key : JsString) : Option (OneOrMany ConditionValue) :=
  (lastWith (fun e => lower.toLowerCase e.1) d.entries key).map Prod.snd

def AlikeKeys (d e : Keys) : Prop :=
  ∀ key, Option.Rel (fun v w => uniq (texts v) = uniq (texts w)) (lastUnder lower d key)
    (lastUnder lower e key)

def AlikeConditions (c d : Condition) : Prop :=
  ∀ operator, Option.Rel (AlikeKeys lower) (c.get? operator) (d.get? operator)

structure Alike (s t : Statement) : Prop where
  action : Option.Rel (AlikeTexts lower.toLowerCase) s.action t.action
  notAction : Option.Rel (AlikeTexts lower.toLowerCase) s.notAction t.notAction
  principal : Option.Rel AlikePrincipals s.principal t.principal
  notPrincipal : Option.Rel AlikePrincipals s.notPrincipal t.notPrincipal
  resource : Option.Rel (AlikeTexts id) s.resource t.resource
  notResource : Option.Rel (AlikeTexts id) s.notResource t.notResource
  condition : Option.Rel (AlikeConditions lower) s.condition t.condition
  effect : s.effect = t.effect
  sid : s.sid = t.sid

end Alike

section Compare

variable {lower : LowerCase}

theorem map_eq_map_iff {α β : Type} {f : α → β} {r : α → α → Prop} (h : ∀ x y, f x = f y ↔ r x y)
    (a b : Option α) : a.map f = b.map f ↔ Option.Rel r a b := by
  cases a with
  | none => cases b <;> simp
  | some x =>
    cases b with
    | none => simp
    | some y => simp [h]

theorem present_eq_iff {normalize : OneOrMany JsString → OneOrMany JsString}
    {r : OneOrMany JsString → OneOrMany JsString → Prop} (hrefl : ∀ a, r a a)
    (h : ∀ a b, normalize a = normalize b ↔ r a b) (htruthy : ∀ a, truthy (normalize a) = true)
    (a b : OneOrMany JsString) :
    present normalize a = present normalize b ↔ truthy a = truthy b ∧ r a b := by
  have hfalsy : ∀ {a}, ¬ truthy a = true → a = .one [] := by
    intro a ha
    rcases a with (_ | ⟨c, cs⟩) | as
    · rfl
    · exact absurd rfl ha
    · exact absurd rfl ha
  by_cases ha : truthy a = true
  · by_cases hb : truthy b = true
    · rw [present, present, if_pos ha, if_pos hb, h, ha, hb]
      exact (and_iff_right rfl).symm
    · rw [present, present, if_pos ha, if_neg hb]
      refine iff_of_false (fun heq => hb ?_) fun heq => hb (heq.1 ▸ ha)
      rw [← heq]
      exact htruthy a
  · by_cases hb : truthy b = true
    · rw [present, present, if_neg ha, if_pos hb]
      refine iff_of_false (fun heq => ha ?_) fun heq => ha (heq.1.symm ▸ hb)
      rw [heq]
      exact htruthy b
    · rw [hfalsy ha, hfalsy hb]
      exact iff_of_true rfl ⟨rfl, hrefl _⟩

theorem sorted_map_eq_iff (f : JsString → JsString) (ss ts : List JsString) :
    OneOrMany.many (sorted (ss.map f)) = .many (sorted (ts.map f)) ↔
      (ss.map f).Perm (ts.map f) := by
  rw [OneOrMany.many.injEq, sorted_eq_iff, Multiset.coe_eq_coe]

theorem action_iff (a b : Option (OneOrMany JsString)) :
    a.map (present (normalizeAction lower)) = b.map (present (normalizeAction lower)) ↔
      Option.Rel (AlikeTexts lower.toLowerCase) a b :=
  map_eq_map_iff (present_eq_iff (fun _ => .refl _) (fun _ _ => sorted_map_eq_iff _ _ _)
    fun _ => rfl) a b

theorem resource_iff (a b : Option (OneOrMany JsString)) :
    a.map (present normalizeResource) = b.map (present normalizeResource) ↔
      Option.Rel (AlikeTexts id) a b := by
  refine map_eq_map_iff (present_eq_iff (fun a => .refl _) (fun a b => ?_) fun a => rfl) a b
  rw [← sorted_map_eq_iff, List.map_id, List.map_id]
  rfl

theorem normalizePrincipal_eq (p : Principal) :
    normalizePrincipal p = .kinds ⟨p.toKinds.aws.map (present listed),
      p.toKinds.service.map (present listed), p.toKinds.federated.map (present listed)⟩ := by
  cases p with
  | star => rfl
  | kinds k => rfl

theorem principal_iff (p q : Option Principal) :
    p.map normalizePrincipal = q.map normalizePrincipal ↔ Option.Rel AlikePrincipals p q := by
  have hlists : ∀ a b : Option (OneOrMany JsString),
      a.map (present listed) = b.map (present listed) ↔ Option.Rel AlikeLists a b := by
    refine map_eq_map_iff (present_eq_iff (fun a => rfl) (fun a b => ?_) fun a => rfl)
    rw [listed, listed, OneOrMany.many.injEq]
  refine map_eq_map_iff (fun p q => ?_) p q
  rw [normalizePrincipal_eq, normalizePrincipal_eq, Principal.kinds.injEq, Kinds.mk.injEq,
    hlists, hlists, hlists]
  exact ⟨fun ⟨h, h', h''⟩ => ⟨h, h', h''⟩, fun ⟨h, h', h''⟩ => ⟨h, h', h''⟩⟩

theorem normalizeValue_eq_iff (v w : OneOrMany ConditionValue) :
    normalizeValue v = normalizeValue w ↔ uniq (texts v) = uniq (texts w) := by
  rw [normalizeValue, normalizeValue, OneOrMany.many.injEq]
  exact (List.map_injective_iff.mpr fun s t h => ConditionValue.str.inj h).eq_iff

theorem get?_normalizeKeys (d : Keys) (key : JsString) :
    (normalizeKeys lower d).get? key = (lastUnder lower d key).map normalizeValue := by
  rw [normalizeKeys, Dict.get?_ofList, lastWith_map, lastUnder, Option.map_map, Option.map_map]
  rfl

theorem get?_normalizeCondition (c : Condition) (operator : JsString) :
    (normalizeCondition lower c).get? operator = (c.get? operator).map (normalizeKeys lower) := by
  rw [Dict.get?, entries_normalizeCondition]
  exact find_map_values (normalizeKeys lower) c.entries operator

theorem rel_map_iff {α β : Type} {f : α → β} {r : β → β → Prop} {s : α → α → Prop}
    (h : ∀ x y, r (f x) (f y) ↔ s x y) (a b : Option α) :
    Option.Rel r (a.map f) (b.map f) ↔ Option.Rel s a b := by
  cases a with
  | none => cases b <;> simp
  | some x =>
    cases b with
    | none => simp
    | some y => simp [h]

theorem conditions_iff (c d : Option Condition) :
    equalConditions (c.map (normalizeCondition lower)) (d.map (normalizeCondition lower)) = true ↔
      Option.Rel (AlikeConditions lower) c d := by
  have hkeys : ∀ d e : Keys, Dict.isEqualBy (fun v w => decide (v = w)) (normalizeKeys lower d)
      (normalizeKeys lower e) = true ↔ AlikeKeys lower d e := by
    intro d e
    rw [Dict.isEqualBy_iff]
    refine forall_congr' fun key => ?_
    rw [get?_normalizeKeys, get?_normalizeKeys]
    refine rel_map_iff (fun v w => ?_) _ _
    rw [decide_eq_true_eq, normalizeValue_eq_iff]
  cases c with
  | none => cases d <;> simp [equalConditions]
  | some c =>
    cases d with
    | none => simp [equalConditions]
    | some d =>
      rw [Option.map_some, Option.map_some, equalConditions, Dict.isEqualBy_iff,
        Option.rel_some_some]
      refine forall_congr' fun operator => ?_
      rw [get?_normalizeCondition, get?_normalizeCondition]
      exact rel_map_iff hkeys _ _

theorem statements_iff (s t : Statement) :
    equalStatements (normalizeStatement lower s) (normalizeStatement lower t) = true ↔
      Alike lower s t := by
  simp only [equalStatements, Bool.and_eq_true, decide_eq_true_eq]
  simp only [normalizeStatement, action_iff, principal_iff, resource_iff, conditions_iff]
  constructor
  · rintro ⟨⟨⟨⟨⟨⟨⟨⟨ha, hna⟩, hp⟩, hnp⟩, hr⟩, hnr⟩, hc⟩, he⟩, hs⟩
    exact ⟨ha, hna, hp, hnp, hr, hnr, hc, he, hs⟩
  · rintro ⟨ha, hna, hp, hnp, hr, hnr, hc, he, hs⟩
    exact ⟨⟨⟨⟨⟨⟨⟨⟨ha, hna⟩, hp⟩, hnp⟩, hr⟩, hnr⟩, hc⟩, he⟩, hs⟩

theorem lists_iff (ss ts : List Statement) :
    equalLists (ss.map (normalizeStatement lower)) (ts.map (normalizeStatement lower)) = true ↔
      List.Forall₂ (Alike lower) ss ts := by
  induction ss generalizing ts with
  | nil => cases ts <;> simp [equalLists]
  | cons s ss ih =>
    cases ts with
    | nil => simp [equalLists]
    | cons t ts =>
      rw [List.map_cons, List.map_cons, equalLists, Bool.and_eq_true, statements_iff, ih,
        List.forall₂_cons]

theorem policiesAreSame_iff (p q : Policy) :
    policiesAreSame lower (some p) (some q) = true ↔
      p.id = q.id ∧ p.version = q.version ∧
        List.Forall₂ (Alike lower) p.statement.toList q.statement.toList := by
  rw [policiesAreSame, equalPolicies, Bool.and_eq_true, Bool.and_eq_true, decide_eq_true_eq,
    decide_eq_true_eq, and_assoc]
  simp only [normalizePolicy, lists_iff]

end Compare

section Equivalence

variable {lower : LowerCase}

-- what a comparison of conditions sees, whatever the order of their keys
def lookups (c : Condition) (operator : JsString) : Option (JsString → Option (OneOrMany ConditionValue)) :=
  (c.get? operator).map fun keyVal key => keyVal.get? key

theorem rel_eq_iff {α β : Type} {r : α → α → Prop} {f : α → β} (h : ∀ x y, r x y ↔ f x = f y)
    (a b : Option α) : Option.Rel r a b ↔ a.map f = b.map f := by
  cases a with
  | none => cases b <;> simp
  | some x => cases b <;> simp [h]

theorem equalConditions_iff (c d : Option Condition) :
    equalConditions c d = true ↔ c.map lookups = d.map lookups := by
  have hkeys : ∀ d e : Keys, Dict.isEqualBy (fun v w => decide (v = w)) d e = true ↔
      d.get? = e.get? := by
    intro d e
    rw [Dict.isEqualBy_iff, funext_iff]
    refine forall_congr' fun key => ?_
    refine (rel_eq_iff (f := id) (fun v w => decide_eq_true_iff) _ _).trans ?_
    rw [Option.map_id_fun, id, id]
  cases c with
  | none => cases d <;> simp [equalConditions]
  | some c =>
    cases d with
    | none => simp [equalConditions]
    | some d =>
      rw [equalConditions, Dict.isEqualBy_iff, Option.map_some, Option.map_some, Option.some.injEq,
        funext_iff]
      exact forall_congr' fun operator => rel_eq_iff hkeys _ _

def seen (s : Statement) :=
  (s.action, s.notAction, s.principal, s.notPrincipal, s.resource, s.notResource,
    s.condition.map lookups, s.effect, s.sid)

theorem equalStatements_iff (s t : Statement) : equalStatements s t = true ↔ seen s = seen t := by
  simp only [equalStatements, Bool.and_eq_true, decide_eq_true_eq, equalConditions_iff, seen,
    Prod.mk.injEq, and_assoc]

theorem equalLists_iff (ss ts : List Statement) : equalLists ss ts = true ↔ ss.map seen = ts.map seen := by
  induction ss generalizing ts with
  | nil => cases ts <;> simp [equalLists]
  | cons s ss ih => cases ts <;> simp [equalLists, equalStatements_iff, ih]

def seenPolicy (lower : LowerCase) (p : Policy) :=
  (p.id, p.version, p.statement.toList.map fun s => seen (normalizeStatement lower s))

theorem policiesAreSame_iff_seen (p q : Option Policy) :
    policiesAreSame lower p q = true ↔ p.map (seenPolicy lower) = q.map (seenPolicy lower) := by
  cases p with
  | none => cases q <;> simp [policiesAreSame]
  | some p =>
    cases q with
    | none => simp [policiesAreSame]
    | some q =>
      rw [policiesAreSame, equalPolicies, Bool.and_eq_true, Bool.and_eq_true, decide_eq_true_eq,
        decide_eq_true_eq, and_assoc]
      simp only [normalizePolicy, equalLists_iff, Option.map_some, Option.some.injEq, seenPolicy,
        Prod.mk.injEq, List.map_map, Function.comp_def]

theorem policiesAreSame_equivalence : Equivalence fun p q => policiesAreSame lower p q = true where
  refl p := (policiesAreSame_iff_seen p p).mpr rfl
  symm h := (policiesAreSame_iff_seen _ _).mpr ((policiesAreSame_iff_seen _ _).mp h).symm
  trans h h' := (policiesAreSame_iff_seen _ _).mpr
    (((policiesAreSame_iff_seen _ _).mp h).trans ((policiesAreSame_iff_seen _ _).mp h'))

end Equivalence

end Iasql.CanonicalPolicy
