import Iasql.Rds
import Iasql.Routes
import Iasql.SecurityGroupRules

namespace Iasql

open Program Prog Aws

namespace SecurityGroups

variable {aws : Removal} {e : SecurityGroup} {s : State}

def findVpc (vpcs : List Vpc) (e : SecurityGroup) : Option Vpc :=
  vpcs.find? fun vpc => vpc.vpcId == some (e.vpcId.getD "") && some vpc.region == e.region

def isProtected (vpcs : List Vpc) (e : SecurityGroup) : Bool :=
  isDefault e && (findVpc vpcs e).isSome

def callsOf (vpcs : List Vpc) (e : SecurityGroup) : List DeleteSecurityGroup :=
  if isProtected vpcs e then [] else [⟨e.region, e.groupId⟩]

-- what the way through the loop depends on
def view (s : State) : State :=
  { s with
    calls := []
    rules := []
    cloudMemo := s.cloudMemo.map fun _ => ∅
    dbMemo := s.dbMemo.map fun _ => ∅ }

def loadRows (s : State) : State :=
  { s with dbMemo := if s.securityGroups.isEmpty then s.dbMemo else some ∅ }

-- whether the loop goes on: a default group is to be saved, and no memo is missing
def goes (s : State) (e : SecurityGroup) : Bool :=
  if isProtected s.vpcs e then
    !s.securityGroups.any (isRecordOf e) && (loadRows s).dbMemo.isSome
  else s.cloudMemo.isSome && s.dbMemo.isSome

def after (s : State) (e : SecurityGroup) : State :=
  if isProtected s.vpcs e then
    if s.securityGroups.any (isRecordOf e) then loadRows s else saved e (loadRows s)
  else s

theorem clearCaches_outcome (e : SecurityGroup) (s : State) :
    ∃ o t, clearCaches e s = (o, t) ∧ t.vpcs = s.vpcs ∧ t.calls = s.calls ∧ view t = view s ∧
      ((s.cloudMemo.isSome && s.dbMemo.isSome) = true ↔ o = .returned ()) := by
  cases hc : s.cloudMemo with
  | none =>
    refine ⟨.thrown (.error "Cannot convert undefined or null to object"), s, ?_, rfl, rfl, rfl,
      iff_of_false (fun hmemo => by cases hmemo) (fun hrun => by cases hrun)⟩
    simp only [clearCaches, reads_bind_apply, hc]
    rfl
  | some c =>
    cases hd : s.dbMemo with
    | none =>
      refine ⟨.thrown (.error "Cannot convert undefined or null to object"),
        { s with cloudMemo := some (c.filter fun _ v => unlike e v) }, ?_, rfl, rfl, ?_,
        iff_of_false (fun hmemo => by cases hmemo) (fun hrun => by cases hrun)⟩
      · simp only [clearCaches, reads_bind_apply, hc, writes_bind_apply, hd]
        rfl
      · simp [view, hc]
    | some d =>
      refine ⟨_, _, clearCaches_apply hc hd, rfl, rfl, ?_, iff_of_true rfl rfl⟩
      simp [view, hc, hd]

theorem deleteOne_unprotected (hok : ∀ call, aws call = .ok ()) (h : isProtected s.vpcs e = false) :
    ∃ o t, deleteOne aws e s = (o, t) ∧ t.vpcs = s.vpcs ∧
      t.calls = s.calls ++ [⟨e.region, e.groupId⟩] ∧ view t = view s ∧
      ((s.cloudMemo.isSome && s.dbMemo.isSome) = true ↔ o = .returned none) := by
  have hdelete : deleteOne aws e s =
      (clearCaches e >>= fun _ => pure none) { s with
        calls := s.calls ++ [⟨e.region, e.groupId⟩]
        rules := s.rules.filter fun r =>
          !(r.securityGroup.groupId == e.groupId && r.region == e.region) } := by
    have hunprotected : ¬ (isDefault e && (s.vpcDbRecord e).isSome) = true := by
      rw [Bool.not_eq_true]
      exact h
    simp only [deleteOne, reads_bind_apply, if_neg hunprotected, deleteGroup, hok]
    rw [bind_assoc_apply]
    rfl
  obtain ⟨o, t, hrun, hvpcs, hcalls, hview, hgoes⟩ := clearCaches_outcome e { s with
    calls := s.calls ++ [⟨e.region, e.groupId⟩]
    rules := s.rules.filter fun r =>
      !(r.securityGroup.groupId == e.groupId && r.region == e.region) }
  rw [bind_apply, hrun] at hdelete
  cases o with
  | returned => exact ⟨_, t, hdelete, hvpcs, hcalls, hview, hgoes.trans (iff_of_true rfl rfl)⟩
  | thrown => exact ⟨_, t, hdelete, hvpcs, hcalls, hview, hgoes.trans (iff_of_false (fun hmemo => by cases hmemo) (fun hrun => by cases hrun))⟩
  | diverged => exact ⟨_, t, hdelete, hvpcs, hcalls, hview, hgoes.trans (iff_of_false (fun hmemo => by cases hmemo) (fun hrun => by cases hrun))⟩

def loaded (s : State) : State := { s with dbMemo := memoAll s.securityGroups s.dbMemo }

theorem view_loaded (s : State) : view (loaded s) = loadRows (view s) := by
  by_cases h : s.securityGroups.isEmpty = true
  · simp [view, loadRows, loaded, memoAll, h]
  · simp [view, loadRows, loaded, memoAll, h]

theorem restoreDefault_found (h : s.securityGroups.any (isRecordOf e) = true) :
    restoreDefault e s = (.returned (some ()), loaded s) := by
  simp only [restoreDefault, reads_bind_apply, writes_bind_apply, h, if_true]
  rfl

theorem restoreDefault_saved (h : s.securityGroups.any (isRecordOf e) = false) :
    ∃ o t, restoreDefault e s = (o, t) ∧ t.vpcs = s.vpcs ∧ t.calls = s.calls ∧
      view t = saved e (view (loaded s)) ∧ ((loaded s).dbMemo.isSome = true ↔ o = .returned none) := by
  have hrun : restoreDefault e s =
      (loaded s).dbMemo.elim (.thrown (.error "Cannot set properties of undefined"), saved e (loaded s))
        fun memo => (.returned none, { saved e (loaded s) with
          dbMemo := some (memo.set (s.resolved e).entityId (s.resolved e)) }) := by
    simp only [restoreDefault, reads_bind_apply, writes_bind_apply, h, Bool.false_eq_true, if_false]
    cases hmemo : memoAll s.securityGroups s.dbMemo with
    | none =>
      simp only [saved, loaded, hmemo]
      rfl
    | some memo =>
      simp only [saved, loaded, hmemo]
      rfl
  rw [hrun]
  cases hmemo : (loaded s).dbMemo with
  | none => exact ⟨_, _, rfl, rfl, rfl, rfl, iff_of_false (fun hmemo => by cases hmemo) (fun hrun => by cases hrun)⟩
  | some memo =>
    refine ⟨_, _, rfl, rfl, rfl, ?_, iff_of_true rfl rfl⟩
    simp only [view, saved, hmemo]
    rfl

theorem deleteOne_protected (h : isProtected s.vpcs e = true) :
    ∃ o t, deleteOne aws e s = (o, t) ∧ t.vpcs = s.vpcs ∧ t.calls = s.calls ∧
      view t = after (view s) e ∧ (goes (view s) e = true ↔ o = .returned none) := by
  have hdelete : deleteOne aws e s = restoreDefault e s := by
    have hprotected : (isDefault e && (s.vpcDbRecord e).isSome) = true := h
    simp only [deleteOne, reads_bind_apply, if_pos hprotected]
  have hview : isProtected (view s).vpcs e = true := h
  have hany' : (view s).securityGroups.any (isRecordOf e) = s.securityGroups.any (isRecordOf e) := rfl
  rw [hdelete, goes, after, if_pos hview, if_pos hview, hany', ← view_loaded]
  cases hany : s.securityGroups.any (isRecordOf e) with
  | true => exact ⟨_, _, restoreDefault_found hany, rfl, rfl, rfl, iff_of_false (fun hmemo => by cases hmemo) (fun hrun => by cases hrun)⟩
  | false =>
    obtain ⟨o, t, hrun, hvpcs, hcalls, hsaved, hgoes⟩ := restoreDefault_saved hany
    refine ⟨o, t, hrun, hvpcs, hcalls, hsaved, ?_⟩
    rw [← hgoes]
    simp [view]

theorem turns (hok : ∀ call, aws call = .ok ()) (vpcs : List Vpc) :
    Turns (fun s => s.vpcs = vpcs) State.calls view (deleteOne aws) (callsOf vpcs) goes after where
  kept := by
    rintro e s rfl
    cases h : isProtected s.vpcs e with
    | true =>
      obtain ⟨o, t, hrun, hvpcs, -⟩ := @deleteOne_protected aws e s h
      rwa [hrun]
    | false =>
      obtain ⟨o, t, hrun, hvpcs, -⟩ := deleteOne_unprotected hok h
      rwa [hrun]
  logged := by
    rintro e s rfl
    cases h : isProtected s.vpcs e with
    | true =>
      obtain ⟨o, t, hrun, -, hcalls, -⟩ := @deleteOne_protected aws e s h
      rw [hrun, callsOf, if_pos h, List.append_nil]
      exact hcalls
    | false =>
      obtain ⟨o, t, hrun, -, hcalls, -⟩ := deleteOne_unprotected hok h
      rw [hrun, callsOf, h, if_neg Bool.false_ne_true]
      exact hcalls
  viewed := by
    rintro e s -
    cases h : isProtected s.vpcs e with
    | true =>
      obtain ⟨o, t, hrun, -, -, hview, -⟩ := @deleteOne_protected aws e s h
      rw [hrun]
      exact hview
    | false =>
      have h' : ¬ isProtected (view s).vpcs e = true := by
        rw [Bool.not_eq_true]
        exact h
      obtain ⟨o, t, hrun, -, -, hview, -⟩ := deleteOne_unprotected hok h
      rw [hrun, after, if_neg h']
      exact hview
  goes_iff := by
    rintro e s -
    cases h : isProtected s.vpcs e with
    | true =>
      obtain ⟨o, t, hrun, -, -, -, hgoes⟩ := @deleteOne_protected aws e s h
      rw [hrun]
      exact hgoes
    | false =>
      have h' : ¬ isProtected (view s).vpcs e = true := by
        rw [Bool.not_eq_true]
        exact h
      obtain ⟨o, t, hrun, -, -, -, hgoes⟩ := deleteOne_unprotected hok h
      rw [hrun, goes, if_neg h', ← hgoes]
      simp [view]

theorem delete_calls (aws : Removal) (es : List SecurityGroup) (s : State) :
    (delete aws es s).2.calls = (forOf (deleteOne aws) es s).2.calls := by
  rw [delete, bind_apply]
  rcases forOf (deleteOne aws) es s with ⟨o, t⟩
  cases o with
  | returned =>
    cases es with
    | nil => rfl
    | cons e es => rfl
  | thrown => rfl
  | diverged => rfl

end SecurityGroups

namespace SecurityGroupRules

variable {aws : Authorizing} {groups : Groups} {en : SecurityGroupRule} {es : List SecurityGroupRule}
  {s t : State}

-- the authorize call of a rule that has a group and a source
def wanted (en : SecurityGroupRule) : List Authorize :=
  if Aws.truthy (groupId en) then (request en).toList else []

def created (aws : Authorizing) (groups : Groups) (es : List SecurityGroupRule) :
    Prog State Thrown (List SecurityGroupRule) := do
  return (← create aws groups es).getD []

def CreatesEvery (aws : Authorizing) (groups : Groups) (es : List SecurityGroupRule) (s : State) :
    Prop :=
  (create aws groups es s).2.calls = s.calls ++ es.flatMap wanted ∧
    (created aws groups es s).1 = (gather (fun en => created aws groups [en]) es s).1

def Skipped (en : SecurityGroupRule) : Prop := refusal en = none ∧ request en = none

def Accepted (en : SecurityGroupRule) : Prop := refusal en = none ∧ (request en).isSome = true

def AtMostOne (es : List SecurityGroupRule) : Prop :=
  (∀ en ∈ es, wanted en = []) ∨
    ∃ before en behind, es = before ++ en :: behind ∧ Accepted en ∧ ∀ r ∈ before ++ behind, Skipped r

theorem truthy_of_accepted (h : refusal en = none) : Aws.truthy (groupId en) = true := by
  by_contra hno
  rw [Bool.not_eq_true] at hno
  simp [refusal, hno] at h

theorem wanted_skipped (h : Skipped en) : wanted en = [] := by
  rw [wanted, h.2, Option.toList_none, ite_self]

theorem skipped_of_unwanted (h : wanted en = []) (hno : refusal en = none) : Skipped en := by
  rw [wanted, if_pos (truthy_of_accepted hno), Option.toList_eq_nil_iff] at h
  exact ⟨hno, h⟩

theorem create_refused {err : Thrown} (h : refusal en = some err) :
    create aws groups (en :: es) s = (.thrown err, s) := forOf_throw (createOne_refused h)

theorem create_skipped (h : Skipped en) :
    create aws groups (en :: es) s = create aws groups es s := forOf_next (createOne_skipped h.1 h.2)

theorem created_of_returned {o : Option (List SecurityGroupRule)}
    (h : create aws groups es s = (.returned o, t)) :
    created aws groups es s = (.returned (o.getD []), t) := bind_of_returned h

theorem created_of_thrown {err : Thrown} (h : create aws groups es s = (.thrown err, t)) :
    created aws groups es s = (.thrown err, t) := bind_of_thrown h

-- the elements one by one
def singly (aws : Authorizing) (groups : Groups) (es : List SecurityGroupRule) :
    Prog State Thrown (List SecurityGroupRule) := gather (fun en => created aws groups [en]) es

theorem singly_refused {err : Thrown} (h : refusal en = some err) :
    singly aws groups (en :: es) s = (.thrown err, s) :=
  bind_of_thrown (created_of_thrown (create_refused h))

theorem singly_skipped (h : Skipped en) :
    singly aws groups (en :: es) s = singly aws groups es s := by
  have hone : created aws groups [en] s = (.returned [], s) :=
    @created_of_returned aws groups [en] s s none (create_skipped h)
  rw [singly, gather, bind_of_returned hone]
  change (singly aws groups es >>= fun out => pure ([] ++ out)) s = _
  rw [bind_apply]
  rcases singly aws groups es s with ⟨o, t⟩
  cases o <;> rfl

theorem singly_unwanted (h : ∀ en ∈ es, wanted en = []) (s : State) :
    singly aws groups es s = (.returned [], s) ∧ (∀ en ∈ es, Skipped en) ∨
      (∃ err, singly aws groups es s = (.thrown err, s)) ∧ ¬ ∀ en ∈ es, Skipped en := by
  induction es with
  | nil => exact .inl ⟨rfl, List.forall_mem_nil _⟩
  | cons en es ih =>
    obtain ⟨hen, hes⟩ := List.forall_mem_cons.mp h
    cases hrefusal : refusal en with
    | some err =>
      refine .inr ⟨⟨err, singly_refused hrefusal⟩, fun hall => ?_⟩
      rw [(hall en List.mem_cons_self).1] at hrefusal
      cases hrefusal
    | none =>
      have hskip := skipped_of_unwanted hen hrefusal
      rw [singly_skipped hskip, List.forall_mem_cons, and_iff_right hskip]
      exact ih hes

theorem atMostOne_skipped (h : Skipped en) : AtMostOne (en :: es) ↔ AtMostOne es := by
  refine or_congr ?_ ?_
  · rw [List.forall_mem_cons, and_iff_right (wanted_skipped h)]
  · constructor
    · rintro ⟨before, r, behind, hes, hr, hall⟩
      cases before with
      | nil =>
        cases hes
        have hsome := hr.2
        rw [h.2] at hsome
        cases hsome
      | cons b before =>
        cases hes
        exact ⟨before, r, behind, rfl, hr, fun x hx => hall x (List.mem_cons_of_mem _ hx)⟩
    · rintro ⟨before, r, behind, rfl, hr, hall⟩
      exact ⟨en :: before, r, behind, rfl, hr, List.forall_mem_cons.mpr ⟨h, hall⟩⟩

theorem atMostOne_refused (h : refusal en ≠ none) :
    AtMostOne (en :: es) ↔ ∀ r ∈ en :: es, wanted r = [] := by
  refine or_iff_left ?_
  rintro ⟨before, r, behind, hes, hr, hall⟩
  cases before with
  | nil =>
    cases hes
    exact h hr.1
  | cons b before =>
    cases hes
    exact h (hall en List.mem_cons_self).1

theorem atMostOne_accepted (h : Accepted en) : AtMostOne (en :: es) ↔ ∀ r ∈ es, Skipped r := by
  obtain ⟨call, hcall⟩ := Option.isSome_iff_exists.mp h.2
  have hwanted : wanted en = [call] := by
    rw [wanted, if_pos (truthy_of_accepted h.1), hcall, Option.toList_some]
  constructor
  · rintro (hnone | ⟨before, r, behind, hes, hr, hall⟩)
    · have hnil := hnone en List.mem_cons_self
      rw [hwanted] at hnil
      cases hnil
    · cases before with
      | nil =>
        cases hes
        exact hall
      | cons b before =>
        cases hes
        have hnone := (hall en List.mem_cons_self).2
        rw [hcall] at hnone
        cases hnone
  · exact fun hall => .inr ⟨[], en, es, rfl, h, hall⟩

theorem createsEvery_iff (haws : Answers aws) (es : List SecurityGroupRule) (s : State) :
    CreatesEvery aws groups es s ↔ AtMostOne es := by
  induction es with
  | nil =>
    exact iff_of_true ⟨(List.append_nil _).symm, rfl⟩ (.inl (List.forall_mem_nil _))
  | cons en es ih =>
    rw [CreatesEvery, ← singly, List.flatMap_cons]
    cases hrefusal : refusal en with
    | some err =>
      have hrun := @create_refused aws groups en es s err hrefusal
      have hne : refusal en ≠ none := by simp [hrefusal]
      rw [atMostOne_refused hne, hrun, created_of_thrown hrun,
        singly_refused hrefusal, and_iff_left rfl, ← List.flatMap_cons, eq_comm,
        List.append_right_eq_self, List.flatMap_eq_nil_iff]
    | none =>
      cases hcall : request en with
      | none =>
        have hskip : Skipped en := ⟨hrefusal, hcall⟩
        have hcreated : created aws groups (en :: es) s = created aws groups es s := by
          rw [created, created, bind_apply, bind_apply, create_skipped hskip]
        rw [atMostOne_skipped hskip, ← ih, CreatesEvery, ← singly, create_skipped hskip, hcreated,
          singly_skipped hskip, wanted_skipped hskip, List.nil_append]
      | some call =>
        have haccepted : Accepted en := ⟨hrefusal, by rw [hcall, Option.isSome_some]⟩
        have hwanted : wanted en = [call] := by
          rw [wanted, if_pos (truthy_of_accepted hrefusal), hcall, Option.toList_some]
        obtain ⟨out, t, hone, ht⟩ := @createOne_called aws groups en s call haws hrefusal hcall
        have hrun : create aws groups (en :: es) s = (.returned (some out), t) := forOf_leave hone
        have hsingle : created aws groups [en] s = (.returned out, t) :=
          created_of_returned (forOf_leave hone)
        have hsingly : singly aws groups (en :: es) s =
            (singly aws groups es >>= fun rest => pure (out ++ rest)) t := by
          rw [singly, gather, bind_of_returned hsingle]
          rfl
        rw [atMostOne_accepted haccepted, hrun, created_of_returned hrun, hsingly, ht, hwanted,
          ← List.append_assoc, eq_comm, List.append_right_eq_self, List.flatMap_eq_nil_iff]
        constructor
        · rintro ⟨hnone, houtcome⟩
          rcases @singly_unwanted aws groups es hnone t with ⟨-, hall⟩ | ⟨⟨err, hrest⟩, -⟩
          · exact hall
          · rw [bind_of_thrown hrest] at houtcome
            cases houtcome
        · intro hall
          have hnone : ∀ r ∈ es, wanted r = [] := fun r hr => wanted_skipped (hall r hr)
          refine ⟨hnone, ?_⟩
          rcases @singly_unwanted aws groups es hnone t with ⟨hrest, -⟩ | ⟨-, hno⟩
          · rw [bind_of_returned hrest]
            exact congrArg Outcome.returned (List.append_nil _).symm
          · exact absurd hall hno

end SecurityGroupRules

section Statement

variable {rulesAws : SecurityGroupRules.Authorizing} {groups : SecurityGroupRules.Groups}
  {routesAws : Routes.Removal} {groupsAws : SecurityGroups.Removal} {rdsAws : Rds.Removal}

def ruleFrom (cidrIpv4 : String) : SecurityGroupRules.SecurityGroupRule :=
  { securityGroup := some { groupId := some "sg-1", region := some "us-east-1" }
    ipProtocol := some "tcp"
    fromPort := some 443
    toPort := some 443
    cidrIpv4 := some cidrIpv4
    region := "us-east-1" }

def routeTo (gatewayId destination : String) : Routes.Route :=
  { routeTable := some
      { routeTableId := some "rtb-1"
        vpc := { region := "us-east-1" }
        region := "us-east-1" }
    destination
    gatewayId := some gatewayId
    region := "us-east-1" }

def defaultVpc : SecurityGroups.Vpc :=
  { id := some 1, vpcId := some "vpc-1", isDefault := true, region := "us-east-1" }

def groupNamed (groupName groupId : String) : SecurityGroups.SecurityGroup :=
  { groupName := some groupName
    groupId := some groupId
    vpc := some defaultVpc
    region := some "us-east-1" }

-- a default group and the VPC it belongs to are in the database
def withDefault : SecurityGroups.State where
  cloudMemo := some ∅
  dbMemo := some ∅
  vpcs := [defaultVpc]
  securityGroups := [{ groupNamed "default" "sg-1" with id := some 1 }]

def cluster : Rds.DBCluster :=
  { dbClusterIdentifier := "cluster"
    allocatedStorage := 100
    dbClusterInstanceClass := "db.m5d.large"
    region := "us-east-1" }

def instanceOf (dbInstanceIdentifier : String) (dbCluster : Option Rds.DBCluster) : Rds.RDS :=
  { dbInstanceIdentifier
    allocatedStorage := 20
    dbInstanceClass := "db.t3.micro"
    engine := "postgres"
    dbCluster
    region := "us-east-1" }

end Statement

end Iasql
