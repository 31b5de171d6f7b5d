import Iasql.Calculus.Separated
import Iasql.CloudIds
import Iasql.Route53

namespace Iasql.Route53

open Aws

section Entities

inductive LoadBalancerTypeEnum where
  | application | gateway | network
deriving DecidableEq

structure LoadBalancer where
  loadBalancerArn : Option String := none
  loadBalancerType : LoadBalancerTypeEnum
  dnsName : Option String := none
  canonicalHostedZoneId : Option String := none
deriving DecidableEq

structure HostedZone where
  id : Option Nat := none
  hostedZoneId : Option String
  domainName : String
deriving DecidableEq

structure AliasTarget where
  evaluateTargetHealth : Option Bool
  loadBalancer : Option LoadBalancer
deriving DecidableEq

structure ResourceRecordSet where
  id : Option Nat := none
  name : String
  recordType : RecordType
  record : Option String := none
  ttl : Option Nat := none
  parentHostedZone : HostedZone
  aliasTarget : Option AliasTarget := none
deriving DecidableEq

def ResourceRecordSet.entityId (e : ResourceRecordSet) : String :=
  generateId [e.parentHostedZone.hostedZoneId.getD "undefined", e.name, e.recordType.text]

end Entities

section Mappers

-- what the hosted zone and load balancer mappers read in the database and in the cloud
structure Context where
  dbHostedZone : String → Option HostedZone
  cloudHostedZone : String → Option HostedZone
  dbLoadBalancers : List LoadBalancer
  cloudLoadBalancers : List LoadBalancer

-- s.join('\n') and s.split('\n')
def joinLines (values : List String) : String :=
  String.ofList (['\n'].intercalate (values.map String.toList))

def splitLines (s : String) : List String := (s.toList.splitOn '\n').map String.ofList

def EndsInDot (s : String) : Prop := s.toList.getLast? = some '.'

instance (s : String) : Decidable (EndsInDot s) := inferInstanceAs (Decidable (_ = _))

def withoutDot (s : String) : String :=
  if EndsInDot s then String.ofList s.toList.dropLast else s

def LoadBalancer.aliasDns (lb : LoadBalancer) : Option String :=
  if lb.loadBalancerType = .application then some ("dualstack." ++ lb.dnsName.getD "undefined")
  else lb.dnsName

def Context.hostedZone (ctx : Context) (hostedZoneId : String) : Option HostedZone :=
  (ctx.dbHostedZone hostedZoneId).or (ctx.cloudHostedZone hostedZoneId)

def Context.loadBalancer (ctx : Context) (cleanAliasDns : String) : Option LoadBalancer :=
  let fits := fun lb : LoadBalancer => lb.aliasDns == some cleanAliasDns
  (ctx.dbLoadBalancers.find? fits).or (ctx.cloudLoadBalancers.find? fits)

def aliasTargetMapper (ctx : Context) (target : AwsAliasTarget) :
    Except String (Option AliasTarget) :=
  match target.dnsName with
  | none => .error "Cannot read properties of undefined (reading 'includes')"
  | some dnsName =>
    if includes ".elb." dnsName then
      .ok ((ctx.loadBalancer (withoutDot dnsName)).map fun lb =>
        { evaluateTargetHealth := target.evaluateTargetHealth, loadBalancer := some lb })
    -- other targets than load balancers are ignored
    else .ok none

-- the columns read from the values or from the alias target
def contentMapper (ctx : Context) (rrs : AwsResourceRecordSet) :
    Except String (Option String × Option AliasTarget) :=
  match rrs.resourceRecords, rrs.aliasTarget with
  | some values, _ => .ok (some (joinLines values), none)
  | none, some target => (aliasTargetMapper ctx target).map fun aliasTarget => (none, aliasTarget)
  | none, none => .ok (none, none)

def resourceRecordSetMapper (ctx : Context) (rrs : AwsResourceRecordSet) (hostedZoneId : String) :
    Except String (Option ResourceRecordSet) :=
  if rrs.name = "" then .ok none
  else match ctx.hostedZone hostedZoneId with
  | none => .error "Hosted zone need to be loaded."
  | some parentHostedZone =>
    if (rrs.resourceRecords.isNone || rrs.aliasTarget.isNone) &&
        Aws.truthy rrs.trafficPolicyInstanceId then .ok none
    else (contentMapper ctx rrs).map fun content =>
      if !Aws.truthy content.1 && content.2.isNone then none
      else some
        { parentHostedZone, name := rrs.name, recordType := rrs.type, ttl := rrs.ttl
          record := content.1, aliasTarget := content.2 }

def dbRecordToAwsObject (e : ResourceRecordSet) : AwsResourceRecordSet :=
  let resourceRecordSet : AwsResourceRecordSet :=
    { name := e.name, type := e.recordType, ttl := e.ttl }
  if Aws.truthy e.record then
    { resourceRecordSet with resourceRecords := some (splitLines (e.record.getD "")) }
  else match e.aliasTarget with
  | none => resourceRecordSet
  | some target =>
    { resourceRecordSet with
      aliasTarget := some
        { hostedZoneId := target.loadBalancer.bind (·.canonicalHostedZoneId)
          evaluateTargetHealth := target.evaluateTargetHealth
          dnsName := target.loadBalancer.bind (·.aliasDns) } }

end Mappers

section Importing

variable {ctx : Context} {s : AwsResourceRecordSet} {hostedZoneId : String}
  {e : ResourceRecordSet}

def Imports (ctx : Context) (s : AwsResourceRecordSet) (hostedZoneId : String)
    (e : ResourceRecordSet) : Prop :=
  resourceRecordSetMapper ctx s hostedZoneId = .ok (some e)

-- the content of a record set that is taken over
def Carries (ctx : Context) (s : AwsResourceRecordSet) : Prop :=
  match s.resourceRecords, s.aliasTarget with
  | some values, _ => joinLines values ≠ ""
  | none, some target => ∃ dnsName lb, target.dnsName = some dnsName ∧
      includes ".elb." dnsName = true ∧ ctx.loadBalancer (withoutDot dnsName) = some lb
  | none, none => False

structure Importable (ctx : Context) (hostedZoneId : String) (s : AwsResourceRecordSet) : Prop where
  named : s.name ≠ ""
  zone : (ctx.hostedZone hostedZoneId).isSome = true
  policy : Aws.truthy s.trafficPolicyInstanceId = true →
    s.resourceRecords.isSome = true ∧ s.aliasTarget.isSome = true
  carries : Carries ctx s

theorem loadBalancer_aliasDns {cleanAliasDns : String} {lb : LoadBalancer}
    (h : ctx.loadBalancer cleanAliasDns = some lb) : lb.aliasDns = some cleanAliasDns := by
  rcases Option.or_eq_some_iff.mp h with h | ⟨-, h⟩
  · simpa using List.find?_some h
  · simpa using List.find?_some h

theorem aliasTargetMapper_some {target : AwsAliasTarget} {aliasTarget : AliasTarget}
    (h : aliasTargetMapper ctx target = .ok (some aliasTarget)) :
    ∃ dnsName lb, target.dnsName = some dnsName ∧ includes ".elb." dnsName = true ∧
      ctx.loadBalancer (withoutDot dnsName) = some lb ∧
      aliasTarget = ⟨target.evaluateTargetHealth, some lb⟩ := by
  unfold aliasTargetMapper at h
  split at h
  · cases h
  · next dnsName hdns =>
    split at h
    · next hincludes =>
      obtain ⟨lb, hlb, heq⟩ := Option.map_eq_some_iff.mp (Except.ok.inj h)
      exact ⟨dnsName, lb, hdns, hincludes, hlb, heq.symm⟩
    · cases h

-- what an imported record set is, by the branch it was read in
structure Imported (ctx : Context) (s : AwsResourceRecordSet) (hostedZoneId : String)
    (e : ResourceRecordSet) : Prop where
  zone : ctx.hostedZone hostedZoneId = some e.parentHostedZone
  name : e.name = s.name
  recordType : e.recordType = s.type
  ttl : e.ttl = s.ttl
  content : contentMapper ctx s = .ok (e.record, e.aliasTarget)
  carried : Aws.truthy e.record = true ∨ e.aliasTarget.isSome = true

theorem imported (h : Imports ctx s hostedZoneId e) : Imported ctx s hostedZoneId e := by
  unfold Imports resourceRecordSetMapper at h
  split at h
  · cases h
  · split at h
    · cases h
    · next parentHostedZone hzone =>
      split at h
      · cases h
      · cases hcontent : contentMapper ctx s with
        | error err => rw [hcontent] at h; cases h
        | ok content =>
          rw [hcontent] at h
          simp only [Except.map, Except.ok.injEq] at h
          split at h
          · cases h
          · next hcarried =>
            cases h
            refine ⟨hzone, rfl, rfl, rfl, hcontent, ?_⟩
            cases htruthy : Aws.truthy content.1 with
            | true => exact .inl rfl
            | false =>
              simpa [htruthy, Option.isNone_iff_eq_none, Option.isSome_iff_ne_none] using hcarried

theorem imported_some_values {values : List String} (h : Imported ctx s hostedZoneId e)
    (hvalues : s.resourceRecords = some values) :
    e.record = some (joinLines values) ∧ e.aliasTarget = none ∧ joinLines values ≠ "" := by
  have hcontent := h.content
  rw [contentMapper, hvalues] at hcontent
  obtain ⟨hrecord, halias⟩ := Prod.mk.inj (Except.ok.inj hcontent)
  have hcarried := h.carried
  rw [← hrecord, ← halias] at hcarried
  exact ⟨hrecord.symm, halias.symm, by simpa [Aws.truthy] using hcarried⟩

theorem contentMapper_target {target : AwsAliasTarget} (hvalues : s.resourceRecords = none)
    (htarget : s.aliasTarget = some target) :
    contentMapper ctx s =
      (aliasTargetMapper ctx target).map fun aliasTarget => (none, aliasTarget) := by
  simp only [contentMapper, hvalues, htarget]

theorem imported_target (h : Imported ctx s hostedZoneId e) (hvalues : s.resourceRecords = none) :
    ∃ target dnsName lb, s.aliasTarget = some target ∧ target.dnsName = some dnsName ∧
      includes ".elb." dnsName = true ∧ ctx.loadBalancer (withoutDot dnsName) = some lb ∧
      e.record = none ∧ e.aliasTarget = some ⟨target.evaluateTargetHealth, some lb⟩ := by
  have hcontent := h.content
  have hcarried := h.carried
  cases htarget : s.aliasTarget with
  | none =>
    simp only [contentMapper, hvalues, htarget] at hcontent
    obtain ⟨hrecord, halias⟩ := Prod.mk.inj (Except.ok.inj hcontent)
    rw [← hrecord, ← halias] at hcarried
    exact absurd hcarried (by simp [Aws.truthy])
  | some target =>
    rw [contentMapper_target hvalues htarget] at hcontent
    cases hmapped : aliasTargetMapper ctx target with
    | error err => rw [hmapped] at hcontent; cases hcontent
    | ok aliasTarget =>
      rw [hmapped] at hcontent
      obtain ⟨hrecord, halias⟩ := Prod.mk.inj (Except.ok.inj hcontent)
      cases aliasTarget with
      | none =>
        rw [← hrecord, ← halias] at hcarried
        exact absurd hcarried (by simp [Aws.truthy])
      | some aliasTarget =>
        obtain ⟨dnsName, lb, hdns, hincludes, hlb, rfl⟩ := aliasTargetMapper_some hmapped
        exact ⟨target, dnsName, lb, rfl, hdns, hincludes, hlb, hrecord.symm, halias.symm⟩

theorem carries_of_imported (h : Imported ctx s hostedZoneId e) : Carries ctx s := by
  cases hvalues : s.resourceRecords with
  | some values =>
    simp only [Carries, hvalues]
    exact (imported_some_values h hvalues).2.2
  | none =>
    obtain ⟨target, dnsName, lb, htarget, hdns, hincludes, hlb, -⟩ := imported_target h hvalues
    simp only [Carries, hvalues, htarget]
    exact ⟨dnsName, lb, hdns, hincludes, hlb⟩

theorem contentMapper_of_carries (h : Carries ctx s) :
    ∃ content, contentMapper ctx s = .ok content ∧
      (!Aws.truthy content.1 && content.2.isNone) = false := by
  unfold Carries at h
  split at h
  · next values hvalues =>
    refine ⟨(some (joinLines values), none), by simp only [contentMapper, hvalues], ?_⟩
    simpa [Aws.truthy] using h
  · next target hvalues htarget =>
    obtain ⟨dnsName, lb, hdns, hincludes, hlb⟩ := h
    refine ⟨(none, some ⟨target.evaluateTargetHealth, some lb⟩), ?_, rfl⟩
    rw [contentMapper_target hvalues htarget]
    simp only [aliasTargetMapper, hdns, hincludes, if_true, hlb, Option.map_some, Except.map]
  · exact h.elim

theorem policy_iff :
    ((s.resourceRecords.isNone || s.aliasTarget.isNone) &&
        Aws.truthy s.trafficPolicyInstanceId) = false ↔
      (Aws.truthy s.trafficPolicyInstanceId = true →
        s.resourceRecords.isSome = true ∧ s.aliasTarget.isSome = true) := by
  cases s.resourceRecords <;> cases s.aliasTarget <;> simp

theorem imports_iff :
    (∃ e, Imports ctx s hostedZoneId e) ↔ Importable ctx hostedZoneId s := by
  constructor
  · rintro ⟨e, h⟩
    have hcarries := carries_of_imported (imported h)
    have hzone := (imported h).zone
    unfold Imports resourceRecordSetMapper at h
    split at h
    · cases h
    · next hnamed =>
      rw [hzone] at h
      refine ⟨hnamed, Option.isSome_of_eq_some hzone, policy_iff.mp ?_, hcarries⟩
      refine Bool.eq_false_iff.mpr fun hpolicy => ?_
      simp only [hpolicy, if_true] at h
      cases h
  · rintro ⟨hnamed, hzone, hpolicy, hcarries⟩
    obtain ⟨parentHostedZone, hzone⟩ := Option.isSome_iff_exists.mp hzone
    obtain ⟨content, hcontent, hcarried⟩ := contentMapper_of_carries hcarries
    have hpolicy := policy_iff.mpr hpolicy
    refine ⟨{ parentHostedZone, name := s.name, recordType := s.type, ttl := s.ttl
              record := content.1, aliasTarget := content.2 }, ?_⟩
    unfold Imports resourceRecordSetMapper
    simp only [if_neg hnamed, hzone, hpolicy, hcontent, Except.map, hcarried, Bool.false_eq_true,
      if_false]

end Importing

section Exporting

variable {ctx : Context} {s : AwsResourceRecordSet} {hostedZoneId : String}
  {e : ResourceRecordSet}

theorem splitLines_joinLines_iff {values : List String} (hne : values ≠ []) :
    splitLines (joinLines values) = values ↔ ∀ v ∈ values, '\n' ∉ v.toList := by
  constructor
  · intro h v hv
    rw [← h] at hv
    obtain ⟨part, hpart, rfl⟩ := List.mem_map.mp hv
    rw [String.toList_ofList]
    exact Separated.not_mem_of_mem_splitOn hpart
  · intro h
    rw [splitLines, joinLines, String.toList_ofList,
      List.splitOn_intercalate '\n' (by simpa using h) (by simpa using hne), List.map_map]
    simp

theorem withoutDot_eq_iff (dnsName : String) :
    withoutDot dnsName = dnsName ↔ ¬ EndsInDot dnsName := by
  unfold withoutDot
  split
  · next hdot =>
    refine iff_of_false (fun heq => ?_) (not_not.mpr hdot)
    have hlen := congrArg (fun s : String => s.toList.length) heq
    have hne : dnsName.toList ≠ [] := fun hnil => by simp [EndsInDot, hnil] at hdot
    have hpos := List.length_pos_of_ne_nil hne
    simp only [String.toList_ofList, List.length_dropLast] at hlen
    omega
  · next hdot => exact iff_of_true rfl hdot

def ContentKept (ctx : Context) (s : AwsResourceRecordSet) : Prop :=
  match s.resourceRecords, s.aliasTarget with
  | some values, aliasTarget => aliasTarget = none ∧ ∀ v ∈ values, '\n' ∉ v.toList
  | none, some target => ∀ dnsName lb, target.dnsName = some dnsName →
      ctx.loadBalancer (withoutDot dnsName) = some lb →
        ¬ EndsInDot dnsName ∧ target.hostedZoneId = lb.canonicalHostedZoneId
  | none, none => True

-- a simple record set: no routing policy, one value a line, the alias in the form that is sent
structure Kept (ctx : Context) (s : AwsResourceRecordSet) : Prop where
  routing : s.toRouting = {}
  content : ContentKept ctx s

theorem exported_iff (h : Imports ctx s hostedZoneId e) :
    dbRecordToAwsObject e = s ↔ Kept ctx s := by
  have h := imported h
  obtain ⟨routing, name, type, ttl, resourceRecords, aliasTarget⟩ := s
  cases resourceRecords with
  | some values =>
    obtain ⟨hrecord, halias, hne⟩ := imported_some_values h rfl
    have htruthy : Aws.truthy e.record = true := by simpa [hrecord, Aws.truthy] using hne
    have hvalues : values ≠ [] := by
      rintro rfl
      exact hne rfl
    rw [dbRecordToAwsObject, if_pos htruthy, hrecord, h.name, h.recordType, h.ttl]
    simp only [AwsResourceRecordSet.mk.injEq, Option.getD_some, Option.some.injEq, true_and,
      splitLines_joinLines_iff hvalues]
    constructor
    · rintro ⟨hrouting, hlines, hnone⟩
      exact ⟨hrouting.symm, hnone.symm, hlines⟩
    · rintro ⟨hrouting, hnone, hlines⟩
      exact ⟨hrouting.symm, hlines, hnone.symm⟩
  | none =>
    obtain ⟨target, dnsName, lb, htarget, hdns, -, hlb, hrecord, halias⟩ := imported_target h rfl
    obtain rfl : aliasTarget = some target := htarget
    have hsent := loadBalancer_aliasDns hlb
    have htruthy : ¬ Aws.truthy e.record = true := by simp [hrecord, Aws.truthy]
    rw [dbRecordToAwsObject, if_neg htruthy, halias, h.name, h.recordType, h.ttl]
    obtain ⟨zoneOfTarget, dnsOfTarget, health⟩ := target
    obtain rfl : dnsOfTarget = some dnsName := hdns
    simp only [Option.bind_some, hsent, AwsResourceRecordSet.mk.injEq, Option.some.injEq,
      AwsAliasTarget.mk.injEq, true_and, and_true, withoutDot_eq_iff]
    constructor
    · rintro ⟨hrouting, hzone, hdot⟩
      refine ⟨hrouting.symm, ?_⟩
      rintro dns lb' ⟨⟩ hlb'
      obtain rfl : lb = lb' := Option.some.inj (hlb.symm.trans hlb')
      exact ⟨hdot, hzone.symm⟩
    · rintro ⟨hrouting, hkept⟩
      obtain ⟨hdot, hzone⟩ := hkept dnsName lb rfl hlb
      exact ⟨hrouting.symm, hzone.symm, hdot⟩

end Exporting

section Survival

variable {κ : Type} [LinearOrder κ] {collation : String → κ}

def Survives (ctx : Context) (zone : Zone collation) (hostedZoneId : String) : Prop :=
  (∀ r ∈ zone.records, ∀ s ∈ zone.records, r ≠ s → ∀ e f,
    Imports ctx r hostedZoneId e → Imports ctx s hostedZoneId f → e.entityId ≠ f.entityId) ∧
  ∀ s ∈ zone.records, ∀ e, Imports ctx s hostedZoneId e → dbRecordToAwsObject e = s

theorem plain_text (t : RecordType) : Plain t.text := by cases t <;> decide

theorem entityId_inj {e f : ResourceRecordSet}
    (hzone : e.parentHostedZone = f.parentHostedZone) (h : e.entityId = f.entityId) :
    e.name = f.name ∧ e.recordType = f.recordType := by
  have hlist := congrArg String.toList h
  simp only [ResourceRecordSet.entityId, generateId_toList, hzone, List.map_cons, List.map_nil,
    List.intercalate, List.intersperse, List.flatten_cons, List.flatten_nil, List.append_nil,
    List.cons_append, List.nil_append, List.append_cancel_left_eq, List.cons.injEq,
    true_and] at hlist
  obtain ⟨hname, htype⟩ := append_cons_inj_right (plain_text _) (plain_text _) hlist
  exact ⟨String.toList_inj.mp hname, RecordType.text_injective (String.toList_inj.mp htype)⟩

theorem before_ne {r s : AwsResourceRecordSet} (h : Before collation r s) (hname : r.name = s.name)
    (htype : r.type = s.type) : r.setIdentifier ≠ s.setIdentifier := by
  intro heq
  rcases h with h | ⟨-, h | ⟨-, h⟩⟩
  · rw [hname] at h
    exact lt_irrefl _ h
  · rw [htype] at h
    exact String.lt_irrefl _ h
  · rw [heq] at h
    exact String.lt_irrefl _ h

theorem setIdentifier_ne (zone : Zone collation) {r s : AwsResourceRecordSet}
    (hr : r ∈ zone.records) (hs : s ∈ zone.records) (hne : r ≠ s) (hname : r.name = s.name)
    (htype : r.type = s.type) : r.setIdentifier ≠ s.setIdentifier := by
  obtain ⟨i, hi, rfl⟩ := List.getElem_of_mem hr
  obtain ⟨j, hj, rfl⟩ := List.getElem_of_mem hs
  have hbefore := List.pairwise_iff_getElem.mp zone.sorted
  rcases Nat.lt_trichotomy i j with hij | rfl | hji
  · exact before_ne (hbefore i j hi hj hij) hname htype
  · exact absurd rfl hne
  · exact (before_ne (hbefore j i hj hi hji) hname.symm htype.symm).symm

theorem record_survives_iff (ctx : Context) (zone : Zone collation) (hostedZoneId : String) :
    Survives ctx zone hostedZoneId ↔
      ∀ s ∈ zone.records, Importable ctx hostedZoneId s → Kept ctx s := by
  constructor
  · rintro ⟨-, h⟩ s hs hs'
    obtain ⟨e, he⟩ := imports_iff.mpr hs'
    exact (exported_iff he).mp (h s hs e he)
  · intro h
    have hkept : ∀ s ∈ zone.records, ∀ e, Imports ctx s hostedZoneId e → Kept ctx s :=
      fun s hs e he => h s hs (imports_iff.mp ⟨e, he⟩)
    refine ⟨fun r hr s hs hne e f he hf heq => ?_, fun s hs e he =>
      (exported_iff he).mpr (hkept s hs e he)⟩
    have hzone := Option.some.inj ((imported he).zone.symm.trans (imported hf).zone)
    obtain ⟨hname, htype⟩ := entityId_inj hzone heq
    rw [(imported he).name, (imported hf).name] at hname
    rw [(imported he).recordType, (imported hf).recordType] at htype
    refine setIdentifier_ne zone hr hs hne hname htype ?_
    rw [(hkept r hr e he).routing, (hkept s hs f hf).routing]

def oneZone : Context where
  dbHostedZone := fun id =>
    some { id := some 1, hostedZoneId := some id, domainName := "example.com." }
  cloudHostedZone := fun _ => none
  dbLoadBalancers := []
  cloudLoadBalancers := []

def weightedSet (value setIdentifier : String) (weight : Nat) : AwsResourceRecordSet :=
  { name := "www.example.com.", type := .A, ttl := some 60, resourceRecords := some [value]
    setIdentifier := some setIdentifier, weight := some weight }

def weighted : Zone String.length where
  records := [weightedSet "192.0.2.1" "blue" 1, weightedSet "192.0.2.2" "green" 3]
  sorted := by
    refine List.pairwise_pair.mpr (.inr ⟨rfl, .inr ⟨rfl, ?_⟩⟩)
    decide
  named := by decide
  pageSize := fun _ => 100
  pageSize_pos := fun _ => Nat.succ_pos _

theorem weightedSet_imported (value setIdentifier : String) (weight : Nat) (h : value ≠ "") :
    ∃ e, Imports oneZone (weightedSet value setIdentifier weight) "/hostedzone/Z1" e := by
  have hnamed : (weightedSet value setIdentifier weight).name ≠ "" := by simp [weightedSet]
  have hcarries : Carries oneZone (weightedSet value setIdentifier weight) := by
    simpa [Carries, weightedSet, joinLines, List.intercalate] using h
  have hpolicy : (weightedSet value setIdentifier weight).trafficPolicyInstanceId = none := rfl
  exact imports_iff.mpr ⟨hnamed, rfl, fun h => by simp [hpolicy, Aws.truthy] at h, hcarries⟩

theorem weighted_merged : ¬ Survives oneZone weighted "/hostedzone/Z1" := by
  rintro ⟨hapart, -⟩
  obtain ⟨e, he⟩ := weightedSet_imported "192.0.2.1" "blue" 1 (by decide)
  obtain ⟨f, hf⟩ := weightedSet_imported "192.0.2.2" "green" 3 (by decide)
  refine hapart _ (List.mem_cons_self) _ (List.mem_cons_of_mem _ List.mem_cons_self) (by decide) e f
    he hf ?_
  have hzone := Option.some.inj ((imported he).zone.symm.trans (imported hf).zone)
  rw [ResourceRecordSet.entityId, ResourceRecordSet.entityId, hzone, (imported he).name,
    (imported hf).name, (imported he).recordType, (imported hf).recordType]
  rfl

end Survival

end Iasql.Route53
