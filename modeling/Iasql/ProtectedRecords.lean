import Iasql.BatchOperations
import Iasql.RecordSets
import Iasql.Roles
import Mathlib.Data.List.Flatten

namespace Iasql

open Program Prog Aws

namespace Route53

def equalDomains (d1 d2 : String) : Bool := withoutDot d1 == withoutDot d2

-- a changeResourceRecordSets with the action DELETE
structure DeleteResourceRecordSet where
  hostedZoneId : Option String
  resourceRecordSet : AwsResourceRecordSet
deriving DecidableEq

namespace Deletion

structure State where
  calls : List DeleteResourceRecordSet := []
  records : List ResourceRecordSet := []
  nextRecordId : Nat := 1

-- the SOA record and the NS record of the apex
def isDefaultRecord (e : ResourceRecordSet) : Bool :=
  e.recordType == .SOA || e.recordType == .NS && equalDomains e.name e.parentHostedZone.domainName

-- UQ_name__record_type
def unique (e : ResourceRecordSet) : Option (Nat × String × RecordType) :=
  e.parentHostedZone.id.map fun zone => (zone, e.name, e.recordType)

def rowOf (e : ResourceRecordSet) (s : State) : ResourceRecordSet :=
  { e with id := e.id.or (some s.nextRecordId) }

def createRecord (e : ResourceRecordSet) : Prog State Thrown Unit := do
  match ← reads fun s => Tables.save ResourceRecordSet.id unique [rowOf e s] s.records with
  | none => fail (.error "duplicate key value violates unique constraint \"UQ_name__record_type\"")
  | some records =>
    writes fun s =>
      { s with
        records
        nextRecordId := if e.id.isNone then s.nextRecordId + 1 else s.nextRecordId }

abbrev Removal := DeleteResourceRecordSet → Except Thrown Unit

def deleteOne (aws : Removal) (e : ResourceRecordSet) : Prog State Thrown (Option Unit) := do
  if isDefaultRecord e then
    createRecord e
    return none
  else
    let call : DeleteResourceRecordSet := ⟨e.parentHostedZone.hostedZoneId, dbRecordToAwsObject e⟩
    writes fun s => { s with calls := s.calls ++ [call] }
    match aws call with
    | .error err => fail err
    | .ok () => return none

def delete (aws : Removal) (rrs : List ResourceRecordSet) : Prog State Thrown Unit := do
  let _ ← forOf (deleteOne aws) rrs

variable {aws : Removal} {e : ResourceRecordSet} {s : State}

def callsOf (e : ResourceRecordSet) : List DeleteResourceRecordSet :=
  [⟨e.parentHostedZone.hostedZoneId, dbRecordToAwsObject e⟩]

-- the row is saved; where the database refuses it, the record stands in it already
def Restored (e : ResourceRecordSet) (s t : State) : Prop :=
  t.records = (Tables.save ResourceRecordSet.id unique [rowOf e s] s.records).getD s.records

theorem deleteOne_default (h : isDefaultRecord e = true) :
    (deleteOne aws e s).2.calls = s.calls ∧ Restored e s (deleteOne aws e s).2 := by
  have hcreate : (deleteOne aws e s).2 = (createRecord e s).2 := by
    rw [deleteOne, if_pos h, bind_pure_snd]
  rw [hcreate, Restored]
  simp only [createRecord, reads_bind_apply]
  cases Tables.save ResourceRecordSet.id unique [rowOf e s] s.records with
  | none => exact ⟨rfl, rfl⟩
  | some records => exact ⟨rfl, rfl⟩

theorem spares (aws : Removal) :
    SparesEach State.calls (deleteOne aws) callsOf fun _ => isDefaultRecord where
  kept := fun _ _ => rfl
  logged := by
    intro e s
    by_cases h : isDefaultRecord e = true
    · refine ⟨[], ?_, List.nil_sublist _⟩
      rw [(deleteOne_default h).1, List.append_nil]
    · refine ⟨callsOf e, ?_, by rw [if_neg h]⟩
      rw [deleteOne, if_neg h, callsOf, writes_bind_apply]
      cases aws ⟨e.parentHostedZone.hostedZoneId, dbRecordToAwsObject e⟩ <;> rfl

end Deletion

end Route53

namespace SecurityGroups

variable {aws : Removal} {e : SecurityGroup} {s : State}

-- the default group is saved, unless the database has it
def Restored (e : SecurityGroup) (s t : State) : Prop :=
  t.securityGroups =
    if s.securityGroups.any (isRecordOf e) then s.securityGroups
    else Tables.put SecurityGroup.id (s.resolved e) s.securityGroups

theorem deleteOne_restored (h : isProtected s.vpcs e = true) :
    Restored e s (deleteOne aws e s).2 := by
  obtain ⟨o, t, hrun, -, -, hview, -⟩ := @deleteOne_protected aws e s h
  have hgroups : (view t).securityGroups = (after (view s) e).securityGroups := by rw [hview]
  have hprotected : isProtected (view s).vpcs e = true := h
  have hany' : (view s).securityGroups.any (isRecordOf e) = s.securityGroups.any (isRecordOf e) := rfl
  rw [after, if_pos hprotected, hany'] at hgroups
  rw [hrun, Restored]
  refine hgroups.trans ?_
  by_cases hany : s.securityGroups.any (isRecordOf e) = true
  · rw [if_pos hany, if_pos hany]
    rfl
  · rw [if_neg hany, if_neg hany]
    rfl

theorem deleteOne_logged (h : isProtected s.vpcs e = false) :
    (deleteOne aws e s).2.calls = s.calls ++ [⟨e.region, e.groupId⟩] ∧
      (deleteOne aws e s).2.vpcs = s.vpcs := by
  cases haws : aws ⟨e.region, e.groupId⟩ with
  | ok =>
    have hsame : deleteOne aws e s = deleteOne (fun _ => .ok ()) e s := by
      simp only [deleteOne, deleteGroup, haws]
    obtain ⟨o, t, hrun, hvpcs, hcalls, -⟩ := @deleteOne_unprotected (fun _ => .ok ()) e s (fun _ => rfl) h
    rw [hsame, hrun]
    exact ⟨hcalls, hvpcs⟩
  | error err =>
    have hunprotected : ¬ (isDefault e && (s.vpcDbRecord e).isSome) = true := by
      rw [Bool.not_eq_true]
      exact h
    have hrun : deleteOne aws e s =
        (.thrown err, { s with calls := s.calls ++ [⟨e.region, e.groupId⟩] }) := by
      simp only [deleteOne, reads_bind_apply, if_neg hunprotected, deleteGroup, haws]
      rfl
    rw [hrun]
    exact ⟨rfl, rfl⟩

theorem spares (aws : Removal) :
    SparesEach State.calls (deleteOne aws) (fun e => [⟨e.region, e.groupId⟩])
      fun s => isProtected s.vpcs where
  kept := by
    intro e s
    cases h : isProtected s.vpcs e with
    | true =>
      obtain ⟨o, t, hrun, hvpcs, -⟩ := @deleteOne_protected aws e s h
      rw [hrun]
      exact congrArg isProtected hvpcs
    | false => exact congrArg isProtected (deleteOne_logged h).2
  logged := by
    intro e s
    cases h : isProtected s.vpcs e with
    | true =>
      obtain ⟨o, t, hrun, -, hcalls, -⟩ := @deleteOne_protected aws e s h
      rw [hrun, if_pos rfl]
      exact ⟨[], hcalls.trans (List.append_nil _).symm, .refl _⟩
    | false =>
      rw [if_neg Bool.false_ne_true]
      exact ⟨_, (deleteOne_logged h).1, .refl _⟩

end SecurityGroups

namespace Routes

variable {aws : Removal} {e : Route} {es : List Route} {s : State}

def isDefault (s : State) (e : Route) : Bool := e.routeTable.any (inDefaultTable s.associations)

def isProtected (s : State) (e : Route) : Bool := isLocal e || isDefault s e

-- a local route is left to the database
def Restored (e : Route) (s t : State) : Prop :=
  t.routes = if isLocal e then s.routes else (restore e s).routes

-- the routes that a call is made for: the loop ends at any other, and where AWS refuses a call
def called (aws : Removal) : List Route → List Route
  | [] => []
  | e :: es =>
    if e.routeTable.isSome && !isLocal e then
      e :: if (callsOf e).all fun call => (aws call).isOk then called aws es else []
    else []

def SparesDefaults (aws : Removal) (es : List Route) (s : State) : Prop :=
  ∀ e ∈ called aws es, isDefault s e = false

theorem callsOf_some {routeTable : RouteTable} (h : e.routeTable = some routeTable)
    (hlocal : isLocal e = false) :
    callsOf e = [⟨e.region, routeTable.routeTableId, e.destination⟩] := by
  simp [callsOf, h, hlocal]

theorem delete_calls (aws : Removal) (es : List Route) (s : State) :
    (delete aws es s).2.calls = s.calls ++ (called aws es).flatMap callsOf := by
  rw [delete, bind_pure_snd]
  induction es generalizing s with
  | nil => exact (List.append_nil _).symm
  | cons e es ih =>
    rw [called]
    cases h : e.routeTable with
    | none =>
      rw [forOf_leave (deleteOne_none h)]
      exact (List.append_nil _).symm
    | some routeTable =>
      cases hlocal : isLocal e with
      | true =>
        rw [forOf_leave (deleteOne_local h hlocal)]
        exact (List.append_nil _).symm
      | false =>
        obtain ⟨t, hcalls, -, hrun⟩ := @deleteOne_called aws e s routeTable h hlocal
        have hgo : ((some routeTable).isSome && !false) = true := rfl
        rw [if_pos hgo, List.flatMap_cons, ← List.append_assoc, ← hcalls]
        cases haws : aws ⟨e.region, routeTable.routeTableId, e.destination⟩ with
        | error err =>
          rw [haws] at hrun
          have hstop : ((callsOf e).all fun call => (aws call).isOk) = false := by
            rw [callsOf_some h hlocal, List.all_cons, haws]
            rfl
          rw [forOf_throw hrun, hstop, if_neg Bool.false_ne_true, List.flatMap_nil, List.append_nil]
        | ok =>
          rw [haws] at hrun
          have hgoes : ((callsOf e).all fun call => (aws call).isOk) = true := by
            rw [callsOf_some h hlocal, List.all_cons, haws]
            rfl
          rw [forOf_next hrun, ih, hgoes, if_pos rfl]

theorem deleteOne_restored (h : isProtected s e = true) : Restored e s (deleteOne aws e s).2 := by
  rw [Restored]
  cases htable : e.routeTable with
  | none =>
    have hlocal : isLocal e = true := by
      rw [isProtected, isDefault, htable] at h
      simpa using h
    rw [deleteOne_none htable, if_pos hlocal]
  | some routeTable =>
    cases hlocal : isLocal e with
    | true =>
      rw [deleteOne_local htable hlocal]
      rfl
    | false =>
      obtain ⟨t, -, hroutes, hrun⟩ := @deleteOne_called aws e s routeTable htable hlocal
      have hdefault : inDefaultTable s.associations routeTable = true := by
        rw [isProtected, isDefault, htable, hlocal] at h
        exact h
      rw [if_pos hdefault] at hroutes
      rw [hrun]
      cases aws ⟨e.region, routeTable.routeTableId, e.destination⟩ <;> exact hroutes

theorem called_sublist (aws : Removal) (es : List Route) : (called aws es).Sublist es := by
  induction es with
  | nil => exact .refl _
  | cons e es ih =>
    rw [called]
    split
    · refine .cons_cons e ?_
      split
      · exact ih
      · exact List.nil_sublist _
    · exact List.nil_sublist _

theorem of_mem_called (h : e ∈ called aws es) : e.routeTable.isSome = true ∧ isLocal e = false := by
  induction es with
  | nil => cases h
  | cons d es ih =>
    rw [called] at h
    split at h
    · next hgo =>
      rcases List.mem_cons.mp h with rfl | h
      · simpa using hgo
      · split at h
        · exact ih h
        · cases h
    · cases h

-- the route table of a call tells whether its route is a default one
theorem isDefault_of_mem {call : DeleteRoute} (h : call ∈ callsOf e) :
    isDefault s e = s.associations.any fun a =>
      a.isMain && a.routeTable.routeTableId == call.routeTableId && a.routeTable.vpc.isDefault := by
  cases htable : e.routeTable with
  | none =>
    rw [callsOf_eq_nil.mpr (.inl htable)] at h
    cases h
  | some routeTable =>
    cases hlocal : isLocal e with
    | true =>
      rw [callsOf_eq_nil.mpr (.inr hlocal)] at h
      cases h
    | false =>
      rw [callsOf_some htable hlocal] at h
      obtain rfl := List.mem_singleton.mp h
      rw [isDefault, htable]
      rfl

theorem sparing_iff (aws : Removal) (es : List Route) (s : State) :
    Sparing State.calls (delete aws) (deleteOne aws) callsOf isProtected Restored es s ↔
      SparesDefaults aws es s := by
  rw [Sparing, delete_calls]
  constructor
  · rintro ⟨⟨part, hlog, hsub⟩, -⟩ e he
    obtain rfl := List.append_cancel_left hlog
    obtain ⟨htable, hlocal⟩ := of_mem_called he
    obtain ⟨routeTable, htable⟩ := Option.isSome_iff_exists.mp htable
    have hcall : ⟨e.region, routeTable.routeTableId, e.destination⟩ ∈ callsOf e := by
      rw [callsOf_some htable hlocal]
      exact List.mem_singleton_self _
    obtain ⟨d, hd, hcall'⟩ := List.mem_flatMap.mp
      (hsub.subset (List.mem_flatMap.mpr ⟨e, he, hcall⟩))
    have hunprotected := (List.mem_filter.mp hd).2
    rw [Bool.not_eq_true', isProtected, Bool.or_eq_false_iff] at hunprotected
    rw [isDefault_of_mem hcall, ← isDefault_of_mem hcall']
    exact hunprotected.2
  · intro hspares
    refine ⟨⟨_, rfl, List.Sublist.flatMap ?_ _⟩, fun e _ t h => deleteOne_restored h⟩
    have hkeep : (called aws es).filter (fun e => !isProtected s e) = called aws es := by
      refine List.filter_eq_self.mpr fun e he => ?_
      rw [isProtected, (of_mem_called he).2, hspares e he]
      rfl
    rw [← hkeep]
    exact (called_sublist aws es).filter _

end Routes

section Statement

variable (routesAws : Routes.Removal) (groupsAws : SecurityGroups.Removal)
  (recordsAws : Route53.Deletion.Removal) (lower : CanonicalPolicy.LowerCase) (rolesAws : Roles.Client)

structure ProtectedSpared (routes : List Routes.Route) (groups : List SecurityGroups.SecurityGroup)
    (records : List Route53.ResourceRecordSet) (roles : List Roles.IamRole) (s : Routes.State)
    (t : SecurityGroups.State) (u : Route53.Deletion.State) (v : Roles.State) : Prop where
  routes : Sparing Routes.State.calls (Routes.delete routesAws) (Routes.deleteOne routesAws)
    Routes.callsOf Routes.isProtected Routes.Restored routes s
  groups : Sparing SecurityGroups.State.calls (SecurityGroups.delete groupsAws)
    (SecurityGroups.deleteOne groupsAws) (fun e => [⟨e.region, e.groupId⟩])
    (fun s => SecurityGroups.isProtected s.vpcs) SecurityGroups.Restored groups t
  records : Sparing Route53.Deletion.State.calls (Route53.Deletion.delete recordsAws)
    (Route53.Deletion.deleteOne recordsAws) Route53.Deletion.callsOf
    (fun _ => Route53.Deletion.isDefaultRecord) Route53.Deletion.Restored records u
  roles : Sparing Roles.State.calls (Roles.delete lower rolesAws) (Roles.deleteOne lower rolesAws)
    Roles.callsOf Roles.isProtected Roles.Restored roles v

-- the main route table of a default VPC
def withMainTable : Routes.State where
  associations := [{
    isMain := true
    routeTable :=
      { routeTableId := some "rtb-1"
        vpc := defaultVpc
        region := "us-east-1" } }]

end Statement

end Iasql
