import Iasql.Calculus.Dict
import Iasql.SortInPlace

namespace Iasql.CanonicalPolicy

open AwsDiff OrderedMap

section Model

-- String.prototype.toLowerCase
structure LowerCase where
  toLowerCase : JsString → JsString
  idem : ∀ s, toLowerCase (toLowerCase s) = toLowerCase s

inductive OneOrMany (α : Type) where
  | one (a : α)
  | many (as : List α)
deriving DecidableEq

def OneOrMany.toList {α : Type} : OneOrMany α → List α
  | one a => [a]
  | many as => as

@[simp] theorem OneOrMany.toList_many {α : Type} (as : List α) : (many as).toList = as := rfl

-- a number is told apart by its text
inductive ConditionValue where
  | str (s : JsString)
  | bool (b : Bool)
  | num (text : JsString)
deriving DecidableEq

def ConditionValue.toString : ConditionValue → JsString
  | str s => s
  | bool b => if b then js "true" else js "false"
  | num text => text

structure Kinds where
  aws : Option (OneOrMany JsString)
  service : Option (OneOrMany JsString)
  federated : Option (OneOrMany JsString)
deriving DecidableEq

inductive Principal where
  | star
  | kinds (k : Kinds)
deriving DecidableEq

abbrev Keys := Dict JsString (OneOrMany ConditionValue)

abbrev Condition := Dict JsString Keys

inductive Effect where
  | allow
  | deny
deriving DecidableEq

structure Statement where
  action : Option (OneOrMany JsString)
  notAction : Option (OneOrMany JsString)
  principal : Option Principal
  notPrincipal : Option Principal
  resource : Option (OneOrMany JsString)
  notResource : Option (OneOrMany JsString)
  condition : Option Condition
  effect : Effect
  sid : Option JsString

structure Policy where
  id : Option JsString
  statement : OneOrMany Statement
  version : JsString

variable (lower : LowerCase)

-- the empty string is falsy
def truthy : OneOrMany JsString → Bool
  | .one [] => false
  | _ => true

def present (normalize : OneOrMany JsString → OneOrMany JsString) (a : OneOrMany JsString) :
    OneOrMany JsString :=
  if truthy a then normalize a else a

def normalizeAction (action : OneOrMany JsString) : OneOrMany JsString :=
  .many (sorted (action.toList.map lower.toLowerCase))

def listed (a : OneOrMany JsString) : OneOrMany JsString := .many a.toList

def normalizePrincipal : Principal → Principal
  | .star => .kinds ⟨some (.many [js "*"]), none, none⟩
  | .kinds k => .kinds ⟨k.aws.map (present listed), k.service.map (present listed),
      k.federated.map (present listed)⟩

def normalizeResource (resource : OneOrMany JsString) : OneOrMany JsString :=
  .many (sorted resource.toList)

-- _.uniq keeps the first of each
def uniq {α : Type} [DecidableEq α] : List α → List α
  | [] => []
  | x :: xs => x :: (uniq xs).filter fun y => decide (y ≠ x)

def texts (value : OneOrMany ConditionValue) : List JsString :=
  value.toList.map ConditionValue.toString

def normalizeValue (value : OneOrMany ConditionValue) : OneOrMany ConditionValue :=
  .many ((uniq (texts value)).map .str)

def normalizeKeys (keyVal : Keys) : Keys :=
  .ofList (keyVal.entries.map fun e => (lower.toLowerCase e.1, normalizeValue e.2))

def normalizeCondition (condition : Condition) : Condition :=
  .ofList (condition.entries.map fun e => (e.1, normalizeKeys lower e.2))

def normalizeStatement (s : Statement) : Statement :=
  { s with
    action := s.action.map (present (normalizeAction lower))
    notAction := s.notAction.map (present (normalizeAction lower))
    principal := s.principal.map normalizePrincipal
    notPrincipal := s.notPrincipal.map normalizePrincipal
    resource := s.resource.map (present normalizeResource)
    notResource := s.notResource.map (present normalizeResource)
    condition := s.condition.map (normalizeCondition lower) }

-- a policy is made of what JSON has, and is its own deep clone
def normalizePolicy (p : Policy) : Policy :=
  { p with statement := .many (p.statement.toList.map (normalizeStatement lower)) }

-- _.isEqual: lists of one length element by element, objects key by key in any order
def equalConditions : Option Condition → Option Condition → Bool
  | some c, some d => Dict.isEqualBy (Dict.isEqualBy fun v w => decide (v = w)) c d
  | none, none => true
  | _, _ => false

def equalStatements (s t : Statement) : Bool :=
  decide (s.action = t.action) && decide (s.notAction = t.notAction) &&
    decide (s.principal = t.principal) && decide (s.notPrincipal = t.notPrincipal) &&
    decide (s.resource = t.resource) && decide (s.notResource = t.notResource) &&
    equalConditions s.condition t.condition && decide (s.effect = t.effect) &&
    decide (s.sid = t.sid)

def equalLists : List Statement → List Statement → Bool
  | [], [] => true
  | s :: ss, t :: ts => equalStatements s t && equalLists ss ts
  | _, _ => false

def equalPolicies (p q : Policy) : Bool :=
  decide (p.id = q.id) && decide (p.version = q.version) &&
    match p.statement, q.statement with
    | .many ss, .many ts => equalLists ss ts
    | .one s, .one t => equalStatements s t
    | _, _ => false

def policiesAreSame : Option Policy → Option Policy → Bool
  | some p, some q => equalPolicies (normalizePolicy lower p) (normalizePolicy lower q)
  | none, none => true
  | _, _ => false

end Model

section Idempotent

variable {lower : LowerCase}

theorem sorted_sorted (ss : List JsString) : sorted (sorted ss) = sorted ss :=
  (sorted_eq_self _).mpr (List.pairwise_insertionSort (fun s t : JsString => s ≤ t) ss)

theorem mem_sorted {s : JsString} {ss : List JsString} : s ∈ sorted ss ↔ s ∈ ss :=
  (List.perm_insertionSort (· ≤ ·) ss).mem_iff

theorem mem_uniq {α : Type} [DecidableEq α] {x : α} {xs : List α} : x ∈ uniq xs ↔ x ∈ xs := by
  induction xs with
  | nil => rfl
  | cons y xs ih =>
    rw [uniq, List.mem_cons, List.mem_cons, List.mem_filter, ih, decide_eq_true_eq]
    by_cases h : x = y <;> simp [h]

theorem nodup_uniq {α : Type} [DecidableEq α] (xs : List α) : (uniq xs).Nodup := by
  induction xs with
  | nil => exact List.nodup_nil
  | cons y xs ih =>
    refine List.nodup_cons.mpr ⟨fun hy => ?_, ih.filter _⟩
    simpa using (List.mem_filter.mp hy).2

theorem uniq_of_nodup {α : Type} [DecidableEq α] {xs : List α} (h : xs.Nodup) : uniq xs = xs := by
  induction xs with
  | nil => rfl
  | cons y xs ih =>
    obtain ⟨hy, hxs⟩ := List.nodup_cons.mp h
    rw [uniq, ih hxs, List.filter_eq_self.mpr]
    rintro x hx
    rw [decide_eq_true_eq]
    rintro rfl
    exact hy hx

theorem texts_strings (ss : List JsString) : texts (.many (ss.map .str)) = ss := by
  rw [texts, OneOrMany.toList, List.map_map]
  exact List.map_id ss

theorem normalizeValue_idem (v : OneOrMany ConditionValue) :
    normalizeValue (normalizeValue v) = normalizeValue v := by
  rw [normalizeValue, normalizeValue, texts_strings, uniq_of_nodup (nodup_uniq _)]

theorem present_idem {normalize : OneOrMany JsString → OneOrMany JsString}
    (h : ∀ a, normalize (normalize a) = normalize a) (htruthy : ∀ a, truthy (normalize a) = true)
    (a : OneOrMany JsString) : present normalize (present normalize a) = present normalize a := by
  by_cases ha : truthy a = true
  · rw [present, present, if_pos ha, if_pos (htruthy a), h]
  · rw [present, present, if_neg ha, if_neg ha]

theorem normalizeAction_idem (a : OneOrMany JsString) :
    normalizeAction lower (normalizeAction lower a) = normalizeAction lower a := by
  have hlower : (sorted (a.toList.map lower.toLowerCase)).map lower.toLowerCase =
      sorted (a.toList.map lower.toLowerCase) := by
    refine List.map_congr_left (fun s hs => ?_) |>.trans (List.map_id _)
    obtain ⟨t, -, rfl⟩ := List.mem_map.mp (mem_sorted.mp hs)
    exact lower.idem t
  simp only [normalizeAction, OneOrMany.toList_many, hlower, sorted_sorted]

theorem normalizeResource_idem (a : OneOrMany JsString) :
    normalizeResource (normalizeResource a) = normalizeResource a := by
  simp only [normalizeResource, OneOrMany.toList_many, sorted_sorted]

theorem normalizePrincipal_idem (p : Principal) :
    normalizePrincipal (normalizePrincipal p) = normalizePrincipal p := by
  have hlisted : ∀ a : Option (OneOrMany JsString),
      (a.map (present listed)).map (present listed) = a.map (present listed) := by
    intro a
    rw [Option.map_map]
    exact congrArg (Option.map · a) (funext (present_idem (fun a => rfl) fun a => rfl))
  cases p with
  | star => rfl
  | kinds k => simp only [normalizePrincipal, hlisted]

theorem normalizeKeys_idem (d : Keys) :
    normalizeKeys lower (normalizeKeys lower d) = normalizeKeys lower d := by
  have hentries : (normalizeKeys lower d).entries.map
      (fun e => (lower.toLowerCase e.1, normalizeValue e.2)) = (normalizeKeys lower d).entries := by
    refine List.map_congr_left (fun e he => ?_) |>.trans (List.map_id _)
    obtain ⟨l, w⟩ := e
    obtain ⟨⟨key, v⟩, -, heq⟩ := List.mem_map.mp (Dict.mem_of_mem_ofList he)
    obtain ⟨rfl, rfl⟩ := Prod.mk.inj heq
    exact Prod.ext (lower.idem key) (normalizeValue_idem v)
  ext1
  rw [normalizeKeys, hentries, Dict.entries_ofList (normalizeKeys lower d).nodup]

theorem entries_normalizeCondition (c : Condition) :
    (normalizeCondition lower c).entries =
      c.entries.map fun e => (e.1, normalizeKeys lower e.2) := by
  refine Dict.entries_ofList ?_
  rw [OrderedMap.keys, List.map_map]
  exact c.nodup

theorem normalizeCondition_idem (c : Condition) :
    normalizeCondition lower (normalizeCondition lower c) = normalizeCondition lower c := by
  ext1
  rw [entries_normalizeCondition, entries_normalizeCondition, List.map_map]
  refine List.map_congr_left fun e _ => ?_
  exact Prod.ext rfl (normalizeKeys_idem e.2)

theorem normalizeStatement_idem (s : Statement) :
    normalizeStatement lower (normalizeStatement lower s) = normalizeStatement lower s := by
  have haction : ∀ a, present (normalizeAction lower) (present (normalizeAction lower) a) =
      present (normalizeAction lower) a := present_idem normalizeAction_idem fun a => rfl
  have hresource : ∀ a, present normalizeResource (present normalizeResource a) =
      present normalizeResource a := present_idem normalizeResource_idem fun a => rfl
  simp only [normalizeStatement, Option.map_map, Function.comp_def, haction, hresource,
    normalizePrincipal_idem, normalizeCondition_idem]

-- a policy in its normal form is its own normal form
theorem normalizePolicy_idem (lower : LowerCase) (p : Policy) :
    normalizePolicy lower (normalizePolicy lower p) = normalizePolicy lower p := by
  simp only [normalizePolicy, OneOrMany.toList_many, List.map_map, Function.comp_def,
    normalizeStatement_idem]

end Idempotent

end Iasql.CanonicalPolicy
