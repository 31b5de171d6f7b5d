import Iasql.Aws
import Iasql.Calculus.Batches
import Iasql.Calculus.Dict
import Iasql.Calculus.Tables

namespace Iasql.SecurityGroups

open Program Prog Aws

structure Vpc where
  id : Option Nat := none
  vpcId : Option String := none
  isDefault : Bool := false
  region : String
deriving DecidableEq

-- the placeholders of reads in progress have none of the columns
structure SecurityGroup where
  id : Option Nat := none
  description : Option String := none
  groupName : Option String := none
  ownerId : Option String := none
  groupId : Option String := none
  vpc : Option Vpc := none
  region : Option String := none
deriving DecidableEq

def SecurityGroup.entityId (e : SecurityGroup) : String :=
  if Aws.truthy e.groupId && Aws.truthy e.region then generateId [e.groupId.getD "", e.region.getD ""]
  else (e.id.map toString).getD "undefined"

def SecurityGroup.vpcId (e : SecurityGroup) : Option String := e.vpc.bind (·.vpcId)

-- a rule as the table has it, with the group it belongs to
structure RuleRow where
  id : Nat
  securityGroup : SecurityGroup
  region : Option String
deriving DecidableEq

structure DeleteSecurityGroup where
  region : Option String
  groupId : Option String
deriving DecidableEq

abbrev Memo := Option (Dict String SecurityGroup)

structure State where
  calls : List DeleteSecurityGroup := []
  -- ctx.memo.cloud.SecurityGroup and ctx.memo.db.SecurityGroup
  cloudMemo : Memo
  dbMemo : Memo
  vpcs : List Vpc := []
  securityGroups : List SecurityGroup := []
  nextGroupId : Nat := 1
  rules : List RuleRow := []

def isDefault (e : SecurityGroup) : Bool := e.groupName == some "default"

-- the VPC of the group that the database read finds
def State.vpcDbRecord (s : State) (e : SecurityGroup) : Option Vpc :=
  s.vpcs.find? fun vpc => vpc.vpcId == some (e.vpcId.getD "") && some vpc.region == e.region

section Restoring

def memoAll (rows : List SecurityGroup) (memo : Memo) : Memo :=
  if rows.isEmpty then memo
  else some (rows.foldl (fun d row => d.set row.entityId row) (memo.getD ∅))

def isRecordOf (e a : SecurityGroup) : Bool :=
  isDefault a && a.region == e.region && a.vpcId == e.vpcId &&
    a.vpc.map (·.region) == e.region

-- the entity as securityGroup.db.update saves it
def State.resolved (s : State) (e : SecurityGroup) : SecurityGroup :=
  let vpc := match e.vpc with
    | some vpc => if Aws.truthy vpc.vpcId && vpc.id.isNone then (s.vpcDbRecord e).or (some vpc) else some vpc
    | none => none
  { e with vpc, id := e.id.or (some s.nextGroupId) }

def saved (e : SecurityGroup) (s : State) : State :=
  { s with
    securityGroups := Tables.put SecurityGroup.id (s.resolved e) s.securityGroups
    nextGroupId := if e.id.isNone then s.nextGroupId + 1 else s.nextGroupId }

-- returns from the whole loop where the default group is in the database already
def restoreDefault (e : SecurityGroup) : Prog State Thrown (Option Unit) := do
  let sgDbRecords ← reads State.securityGroups
  writes fun s => { s with dbMemo := memoAll sgDbRecords s.dbMemo }
  if sgDbRecords.any (isRecordOf e) then return some ()
  let entity ← reads fun s : State => s.resolved e
  writes (saved e)
  match ← reads State.dbMemo with
  | none => fail (.error "Cannot set properties of undefined")
  | some memo =>
    writes fun s => { s with dbMemo := some (memo.set entity.entityId entity) }
    return none

end Restoring

section Deleting

-- the two-field filter of the caches
def unlike (e v : SecurityGroup) : Bool := e.groupId != v.groupId && e.region != v.region

def clearCaches (e : SecurityGroup) : Prog State Thrown Unit := do
  match ← reads State.cloudMemo with
  | none => fail (.error "Cannot convert undefined or null to object")
  | some memo =>
    writes fun s => { s with cloudMemo := some (memo.filter fun _ v => unlike e v) }
    match ← reads State.dbMemo with
    | none => fail (.error "Cannot convert undefined or null to object")
    | some memo => writes fun s => { s with dbMemo := some (memo.filter fun _ v => unlike e v) }

-- what deleteSecurityGroup comes to for a group of a region
abbrev Removal := DeleteSecurityGroup → Except Thrown Unit

def deleteGroup (aws : Removal) (e : SecurityGroup) : Prog State Thrown Unit := do
  let call : DeleteSecurityGroup := ⟨e.region, e.groupId⟩
  writes fun s => { s with calls := s.calls ++ [call] }
  match aws call with
  | .error err => fail err
  | .ok () =>
    writes fun s => { s with rules := s.rules.filter fun r =>
      !(r.securityGroup.groupId == e.groupId && r.region == e.region) }
    clearCaches e

def deleteOne (aws : Removal) (e : SecurityGroup) : Prog State Thrown (Option Unit) := do
  let vpcDbRecord ← reads fun s : State => s.vpcDbRecord e
  if isDefault e && vpcDbRecord.isSome then restoreDefault e
  else do
    deleteGroup aws e
    return none

-- securityGroup.cloud.delete around the mapper's own
def delete (aws : Removal) (es : List SecurityGroup) : Prog State Thrown Unit := do
  let _ ← forOf (deleteOne aws) es
  unless es.isEmpty do
    writes fun s =>
      { s with cloudMemo := some ((s.cloudMemo.getD ∅).eraseAll (es.map SecurityGroup.entityId)) }

end Deleting

section Forgetting

variable {aws : Removal} {s t : State} {e v : SecurityGroup} {es : List SecurityGroup}
  {c d : Dict String SecurityGroup}

-- the same group id and region
def isGroup (e v : SecurityGroup) : Bool := e.groupId == v.groupId && e.region == v.region

def without (es : List SecurityGroup) (memo : Memo) : Memo :=
  memo.map fun d => d.filter fun _ v => !es.any (isGroup · v)

def ForgetsOnly (aws : Removal) (es : List SecurityGroup) (s : State) : Prop :=
  ∃ t, delete aws es s = (.returned (), t) ∧
    t.cloudMemo = without es s.cloudMemo ∧ t.dbMemo = without es s.dbMemo

theorem clearCaches_apply (hc : s.cloudMemo = some c) (hd : s.dbMemo = some d) :
    clearCaches e s = (.returned (),
      { s with
        cloudMemo := some (c.filter fun _ v => unlike e v)
        dbMemo := some (d.filter fun _ v => unlike e v) }) := by
  simp only [clearCaches, reads_bind_apply, writes_bind_apply, writes_apply, hc, hd]

theorem deleteOne_apply (hdefault : isDefault e = false) (hok : aws ⟨e.region, e.groupId⟩ = .ok ())
    (hc : s.cloudMemo = some c) (hd : s.dbMemo = some d) :
    ∃ calls rules, deleteOne aws e s = (.returned none,
      { s with
        calls, rules
        cloudMemo := some (c.filter fun _ v => unlike e v)
        dbMemo := some (d.filter fun _ v => unlike e v) }) := by
  refine ⟨s.calls ++ [⟨e.region, e.groupId⟩], s.rules.filter fun r =>
    !(r.securityGroup.groupId == e.groupId && r.region == e.region), ?_⟩
  have hgroup : deleteGroup aws e s = (.returned (),
      { s with
        calls := s.calls ++ [⟨e.region, e.groupId⟩]
        rules := s.rules.filter fun r =>
          !(r.securityGroup.groupId == e.groupId && r.region == e.region)
        cloudMemo := some (c.filter fun _ v => unlike e v)
        dbMemo := some (d.filter fun _ v => unlike e v) }) := by
    rw [deleteGroup, writes_bind_apply]
    simp only [hok, writes_bind_apply]
    exact clearCaches_apply hc hd
  simp only [deleteOne, reads_bind_apply, hdefault, Bool.false_and, Bool.false_eq_true, if_false]
  rw [bind_of_returned hgroup]
  rfl

theorem deleteOne_thrown (hdefault : isDefault e = false)
    (hok : aws ⟨e.region, e.groupId⟩ = .ok ()) (hmemo : s.cloudMemo = none ∨ s.dbMemo = none) :
    ∃ err t, deleteOne aws e s = (.thrown err, t) := by
  have hclear : ∀ u : State, u.cloudMemo = s.cloudMemo → u.dbMemo = s.dbMemo →
      ∃ err t, clearCaches e u = (.thrown err, t) := by
    intro u hc hd
    cases hcloud : u.cloudMemo with
    | none => exact ⟨_, _, by simp only [clearCaches, reads_bind_apply, hcloud]; rfl⟩
    | some c =>
      have hdb : u.dbMemo = none := by
        rw [hd]
        exact hmemo.resolve_left fun hnone => by rw [hc, hnone] at hcloud; cases hcloud
      exact ⟨_, _, by simp only [clearCaches, reads_bind_apply, hcloud, writes_bind_apply, hdb]; rfl⟩
  have hgroup : ∃ err t, deleteGroup aws e s = (.thrown err, t) := by
    rw [deleteGroup, writes_bind_apply]
    simp only [hok, writes_bind_apply]
    exact hclear _ rfl rfl
  obtain ⟨err, t, hthrown⟩ := hgroup
  refine ⟨err, t, ?_⟩
  simp only [deleteOne, reads_bind_apply, hdefault, Bool.false_and, Bool.false_eq_true, if_false]
  exact bind_of_thrown hthrown

theorem filter_filter (d : Dict String SecurityGroup) (p q : SecurityGroup → Bool) :
    (d.filter fun _ v => p v).filter (fun _ v => q v) = d.filter fun _ v => p v && q v := by
  ext1
  simp only [Dict.filter, List.filter_filter, Bool.and_comm]

-- every turn narrows the caches once more
theorem forOf_deleteOne (hdefault : ∀ e ∈ es, isDefault e = false)
    (hok : ∀ e ∈ es, aws ⟨e.region, e.groupId⟩ = .ok ()) (hc : s.cloudMemo = some c)
    (hd : s.dbMemo = some d) :
    ∃ t, forOf (deleteOne aws) es s = (.returned none, t) ∧
      t.cloudMemo = some (c.filter fun _ v => es.all (unlike · v)) ∧
      t.dbMemo = some (d.filter fun _ v => es.all (unlike · v)) := by
  induction es generalizing s c d with
  | nil =>
    refine ⟨s, rfl, ?_, ?_⟩
    · rw [hc]
      exact congrArg some (Dict.ext (List.filter_true _).symm)
    · rw [hd]
      exact congrArg some (Dict.ext (List.filter_true _).symm)
  | cons e es ih =>
    obtain ⟨calls, rules, hone⟩ := deleteOne_apply (hdefault e List.mem_cons_self)
      (hok e List.mem_cons_self) hc hd
    obtain ⟨t, hrest, hcloud, hdb⟩ := @ih { s with
        calls, rules
        cloudMemo := some (c.filter fun _ v => unlike e v)
        dbMemo := some (d.filter fun _ v => unlike e v) } _ _
      (fun f hf => hdefault f (List.mem_cons_of_mem _ hf))
      (fun f hf => hok f (List.mem_cons_of_mem _ hf)) rfl rfl
    refine ⟨t, (forOf_next hone).trans hrest, ?_, ?_⟩
    · rw [hcloud, filter_filter]
      simp only [List.all_cons]
    · rw [hdb, filter_filter]
      simp only [List.all_cons]

-- every entry is of a deleted group, or has nothing in common with any of them
def Apart (es : List SecurityGroup) (d : Dict String SecurityGroup) : Prop :=
  ∀ p ∈ d.entries, (∃ e ∈ es, isGroup e p.2 = true) ∨ ∀ e ∈ es, unlike e p.2 = true

-- no entry of another group stands under the id of a deleted one
def KeysApart (es : List SecurityGroup) (d : Dict String SecurityGroup) : Prop :=
  ∀ p ∈ d.entries, (∃ e ∈ es, isGroup e p.2 = true) ∨ p.1 ∉ es.map SecurityGroup.entityId

def Unshared (es : List SecurityGroup) (s : State) : Prop :=
  es = [] ∨ ∃ c d, s.cloudMemo = some c ∧ s.dbMemo = some d ∧ Apart es c ∧ KeysApart es c ∧
    Apart es d

theorem not_unlike_of_isGroup (h : isGroup e v = true) : unlike e v = false := by
  obtain ⟨hid, -⟩ := (Bool.and_eq_true _ _).mp h
  simp [unlike, beq_iff_eq.mp hid]

theorem filter_eq_iff (d : Dict String SecurityGroup) {p q : String → SecurityGroup → Bool} :
    d.filter p = d.filter q ↔ ∀ e ∈ d.entries, p e.1 e.2 = q e.1 e.2 := by
  constructor
  · intro h e hmem
    have hentries := congrArg (fun d => e ∈ Dict.entries d) h
    simp only [Dict.filter, List.mem_filter, hmem, true_and, eq_iff_iff] at hentries
    exact Bool.eq_iff_iff.mpr hentries
  · intro h
    exact Dict.ext (List.filter_congr h)

theorem narrowed_iff (es : List SecurityGroup) (d : Dict String SecurityGroup) :
    some (d.filter fun _ v => es.all (unlike · v)) = without es (some d) ↔ Apart es d := by
  rw [without, Option.map_some, Option.some.injEq, filter_eq_iff]
  refine forall_congr' fun p => forall_congr' fun _ => ?_
  cases hany : es.any (isGroup · p.2) with
  | true =>
    obtain ⟨e, he, hgroup⟩ := List.any_eq_true.mp hany
    refine iff_of_true ?_ (.inl ⟨e, he, hgroup⟩)
    exact List.all_eq_false.mpr ⟨e, he, by simp [not_unlike_of_isGroup hgroup]⟩
  | false =>
    have hnone : ¬ ∃ e ∈ es, isGroup e p.2 = true := by
      simpa using hany
    rw [or_iff_right hnone, Bool.not_false, List.all_eq_true]

theorem eraseAll_filter (d : Dict String SecurityGroup) (p : SecurityGroup → Bool)
    (ks : List String) :
    (d.filter fun _ v => p v).eraseAll ks = d.filter fun k v => p v && decide (k ∉ ks) := by
  ext1
  simp only [Dict.filter, Dict.eraseAll, List.filter_filter, Bool.and_comm]

theorem erased_iff (es : List SecurityGroup) (c : Dict String SecurityGroup) :
    some ((c.filter fun _ v => es.all (unlike · v)).eraseAll (es.map SecurityGroup.entityId)) =
        without es (some c) ↔ Apart es c ∧ KeysApart es c := by
  rw [eraseAll_filter, without, Option.map_some, Option.some.injEq, filter_eq_iff, Apart,
    KeysApart, ← forall_and]
  refine forall_congr' fun p => ?_
  rw [← imp_and]
  refine forall_congr' fun _ => ?_
  cases hany : es.any (isGroup · p.2) with
  | true =>
    obtain ⟨e, he, hgroup⟩ := List.any_eq_true.mp hany
    have hall : es.all (unlike · p.2) = false :=
      List.all_eq_false.mpr ⟨e, he, by simp [not_unlike_of_isGroup hgroup]⟩
    refine iff_of_true (by rw [hall]; rfl) ⟨.inl ⟨e, he, hgroup⟩, .inl ⟨e, he, hgroup⟩⟩
  | false =>
    have hnone : ¬ ∃ e ∈ es, isGroup e p.2 = true := by simpa using hany
    rw [or_iff_right hnone, or_iff_right hnone, Bool.not_false, Bool.and_eq_true, List.all_eq_true,
      decide_eq_true_iff]

theorem delete_thrown (h : ∃ err t, forOf (deleteOne aws) es s = (.thrown err, t)) :
    ¬ ForgetsOnly aws es s := by
  obtain ⟨err, t, h⟩ := h
  rintro ⟨u, hrun, -⟩
  rw [delete, bind_of_thrown h] at hrun
  cases hrun

def groupIn (region groupId : String) : SecurityGroup :=
  { groupId := some groupId, groupName := some groupId, region := some region }

-- both caches hold the groups, each under its id
def cached (groups : List SecurityGroup) : State where
  cloudMemo := some (Dict.ofList (groups.map fun g => (g.entityId, g)))
  dbMemo := some (Dict.ofList (groups.map fun g => (g.entityId, g)))

end Forgetting

end Iasql.SecurityGroups
