import Iasql.Calculus.Unawaited
import Iasql.CertificateRequest
import Iasql.Instances
import Iasql.IsEqual
import Iasql.PoliciesAreSame

namespace Iasql.OpenSearch

open Aws AwsDiff CanonicalPolicy Unawaited
open Acm (Certificate)
open Instances (Subnet)
open SecurityGroups (SecurityGroup)

section Types

-- the lists hold what is pushed: the record of a subnet or of a group, or undefined
structure Domain (S G : Type) where
  id : Option Nat := none
  domainName : Option String
  customEndpoint : Option String := none
  customEndpointCertificate : Option Certificate := none
  version : Option String := none
  availabilityZoneCount : Nat := 1
  instanceType : Option String := none
  instanceCount : Option Nat := none
  ebsOptions : Option Value := none
  warmInstanceType : Option String := none
  warmInstanceCount : Option Nat := none
  coldStorage : Option Bool := none
  dedicatedMasterType : Option String := none
  dedicatedMasterCount : Option Nat := none
  autoTune : Bool := true
  subnets : Option (List S) := none
  securityGroups : Option (List G) := none
  enableFineGrainedAccessControl : Bool := false
  fineGrainedAccessControlUserArn : Option String := none
  fineGrainedAccessControlMasterUsername : Option String := none
  fineGrainedAccessControlMasterPassword : Option String := none
  accessPolicy : Option Policy := none
  endpoint : Option String := none
  region : String

-- what AWS describes; accessPolicies: what JSON.parse makes of the text
structure AwsDomain where
  deleted : Bool := false
  domainName : Option String
  customEndpoint : Option String := none
  customEndpointCertificateArn : Option String := none
  engineVersion : Option String := none
  availabilityZoneCount : Option Nat := none
  instanceType : Option String := none
  instanceCount : Option Nat := none
  ebsOptions : Option Value := none
  warmType : Option String := none
  warmCount : Option Nat := none
  coldStorageEnabled : Option Bool := none
  dedicatedMasterType : Option String := none
  autoTuneState : Option String := none
  subnetIds : Option (List String) := none
  securityGroupIds : Option (List String) := none
  advancedSecurityEnabled : Option Bool := none
  accessPolicies : Except Thrown Policy
  endpoint : Option String := none

abbrev Reader (α : Type) : Type := String → Except Thrown (Option α)

-- the reads of the database and of the cloud by id; the i-th callback of a list makes its own
structure Readers where
  certificateDb : Reader Certificate
  certificateCloud : Reader Certificate
  subnetDb : Nat → Reader Subnet
  subnetCloud : Nat → Reader Subnet
  securityGroupDb : Nat → Reader SecurityGroup
  securityGroupCloud : Nat → Reader SecurityGroup

-- whose read completes
inductive Callback where
  | subnet (i : Nat)
  | securityGroup (i : Nat)
deriving DecidableEq

structure Lists where
  subnets : Filling Subnet := {}
  securityGroups : Filling SecurityGroup := {}

end Types

section Mapper

variable (readers : Readers) (domain : AwsDomain) (region : String)

def certificateFetch : Fetch Thrown Certificate :=
  let certificateId := generateId [domain.customEndpointCertificateArn.getD ""]
  { first := readers.certificateDb certificateId
    second := readers.certificateCloud certificateId }

def subnetFetches : List (Fetch Thrown Subnet) :=
  (domain.subnetIds.getD []).mapIdx fun i subnetId =>
    let subnetMapperId := generateId [subnetId, region]
    { first := readers.subnetDb i subnetMapperId
      second := readers.subnetCloud i subnetMapperId }

def securityGroupFetches : List (Fetch Thrown SecurityGroup) :=
  (domain.securityGroupIds.getD []).mapIdx fun i groupId =>
    let sgMapperId := generateId [groupId, region]
    { first := readers.securityGroupDb i sgMapperId
      second := readers.securityGroupCloud i sgMapperId }

-- the callbacks are started where AWS describes both lists, and nobody waits for them
def Started : Prop := domain.subnetIds.isSome = true ∧ domain.securityGroupIds.isSome = true

instance : Decidable (Started domain) := inferInstanceAs (Decidable (_ ∧ _))

-- the read of the certificate is awaited
def customEndpointCertificate : Except Thrown (Option Certificate) :=
  if Aws.truthy domain.customEndpoint then (certificateFetch readers domain).fetched else pure none

-- the record as it is when the function returns
def domainMapper : Except Thrown (Option (Domain (Option Subnet) (Option SecurityGroup))) := do
  if domain.deleted then return none
  let certificate ← customEndpointCertificate readers domain
  let accessPolicy ← domain.accessPolicies
  return some {
    domainName := domain.domainName
    customEndpoint := domain.customEndpoint.filter (· != "")
    customEndpointCertificate := certificate
    version := domain.engineVersion
    availabilityZoneCount := (domain.availabilityZoneCount.filter (· != 0)).getD 1
    instanceType := domain.instanceType
    instanceCount := domain.instanceCount
    ebsOptions := domain.ebsOptions
    warmInstanceType := domain.warmType
    warmInstanceCount := domain.warmCount
    coldStorage := domain.coldStorageEnabled
    dedicatedMasterType := domain.dedicatedMasterType
    autoTune := ["ENABLED", "ENABLE_IN_PROGRESS"].contains (domain.autoTuneState.getD "")
    subnets := some []
    securityGroups := some []
    enableFineGrainedAccessControl := domain.advancedSecurityEnabled.getD false
    accessPolicy := some accessPolicy
    endpoint := domain.endpoint
    region }

def turn (lists : Lists) : Callback → Lists
  | .subnet i => { lists with subnets := complete (subnetFetches readers domain region) lists.subnets i }
  | .securityGroup i =>
    { lists with securityGroups := complete (securityGroupFetches readers domain region) lists.securityGroups i }

-- the lists after these reads have completed
def lists (completions : List Callback) : Lists :=
  if Started domain then completions.foldl (turn readers domain region) {} else {}

-- what a caller has that goes on after these reads have completed
def mapped (completions : List Callback) : Except Thrown (Option (Domain (Option Subnet) (Option SecurityGroup))) :=
  (domainMapper readers domain region).map fun out => out.map fun record =>
    { record with
      subnets := some (lists readers domain region completions).subnets.out
      securityGroups := some (lists readers domain region completions).securityGroups.out }

end Mapper

section Complete

variable (readers : Readers) (domain : AwsDomain) (region : String) (completions : List Callback)

def Lists.Hold (out : Domain (Option Subnet) (Option SecurityGroup)) (subnets : List Subnet)
    (securityGroups : List SecurityGroup) : Prop :=
  (∃ l, out.subnets = some l ∧ l.Perm (subnets.map some)) ∧
    ∃ l, out.securityGroups = some l ∧ l.Perm (securityGroups.map some)

-- one of the reads that the function starts rejects
def Rejected : Prop :=
  domain.deleted = false ∧
    ((Aws.truthy domain.customEndpoint = true ∧ (certificateFetch readers domain).Rejects) ∨
      (Started domain ∧ ((∃ l ∈ subnetFetches readers domain region, l.Rejects) ∨
        ∃ l ∈ securityGroupFetches readers domain region, l.Rejects)))

structure Complete : Prop where
  lists : ∀ out, mapped readers domain region completions = .ok (some out) →
    Lists.Hold out ((subnetFetches readers domain region).filterMap Fetch.record)
      ((securityGroupFetches readers domain region).filterMap Fetch.record)
  rejects : Rejected readers domain region → ∃ e, mapped readers domain region completions = .error e

end Complete

section Schedule

variable {readers : Readers} {domain : AwsDomain} {region : String} {completions : List Callback}

def Callback.subnet? : Callback → Option Nat
  | .subnet i => some i
  | .securityGroup _ => none

def Callback.securityGroup? : Callback → Option Nat
  | .subnet _ => none
  | .securityGroup i => some i

-- the callbacks of one list do not touch the other one
theorem lists_eq (h : Started domain) : lists readers domain region completions =
    { subnets := filledAfter (subnetFetches readers domain region) (completions.filterMap Callback.subnet?)
      securityGroups := filledAfter (securityGroupFetches readers domain region) (completions.filterMap Callback.securityGroup?) } := by
  rw [lists, if_pos h]
  induction completions using List.reverseRecOn with
  | nil => rfl
  | append_singleton completions c ih =>
    rw [List.foldl_append, ih, List.filterMap_append, List.filterMap_append]
    cases c with
    | subnet i =>
      have hsubnet : [Callback.subnet i].filterMap Callback.subnet? = [i] := rfl
      have hgroup : [Callback.subnet i].filterMap Callback.securityGroup? = [] := rfl
      rw [hsubnet, hgroup, List.append_nil, filled_snoc]
      rfl
    | securityGroup i =>
      have hsubnet : [Callback.securityGroup i].filterMap Callback.subnet? = [] := rfl
      have hgroup : [Callback.securityGroup i].filterMap Callback.securityGroup? = [i] := rfl
      rw [hsubnet, hgroup, List.append_nil, filled_snoc]
      rfl

theorem count_subnet (i : Nat) : (completions.filterMap Callback.subnet?).count i = completions.count (.subnet i) := by
  induction completions with
  | nil => rfl
  | cons c completions ih =>
    cases c with
    | subnet j => simp [Callback.subnet?, List.filterMap_cons_some, List.count_cons, ih]
    | securityGroup j => rw [List.filterMap_cons_none rfl, ih, List.count_cons_of_ne fun h => by cases h]

theorem count_securityGroup (i : Nat) :
    (completions.filterMap Callback.securityGroup?).count i = completions.count (.securityGroup i) := by
  induction completions with
  | nil => rfl
  | cons c completions ih =>
    cases c with
    | subnet j => rw [List.filterMap_cons_none rfl, ih, List.count_cons_of_ne fun h => by cases h]
    | securityGroup j => simp [Callback.securityGroup?, List.filterMap_cons_some, List.count_cons, ih]

end Schedule

section Condition

variable (readers : Readers) (domain : AwsDomain) (region : String) (completions : List Callback)

-- the function is done before it looks at the lists, or the promise rejects
def Settled : Prop :=
  domain.deleted = true ∨ (Aws.truthy domain.customEndpoint = true ∧ (certificateFetch readers domain).Rejects) ∨
    ∃ e, domain.accessPolicies = .error e

-- no read rejects, and just those callbacks have completed that have a record to push
def OnTime : Prop :=
  if Started domain then
    (∀ i l, (subnetFetches readers domain region)[i]? = some l →
      ¬ Fetch.Rejects l ∧ Fetch.Timely l (completions.count (.subnet i))) ∧
    ∀ i l, (securityGroupFetches readers domain region)[i]? = some l →
      ¬ Fetch.Rejects l ∧ Fetch.Timely l (completions.count (.securityGroup i))
  else
    (subnetFetches readers domain region).filterMap Fetch.record = [] ∧
      (securityGroupFetches readers domain region).filterMap Fetch.record = []

variable {readers domain region completions}

theorem mapped_of_deleted (h : domain.deleted = true) : mapped readers domain region completions = .ok none := by
  rw [mapped, domainMapper, if_pos h]
  rfl

theorem mapped_of_certificate (hdeleted : domain.deleted = false) (hcustom : Aws.truthy domain.customEndpoint = true)
    {e : Thrown} (h : (certificateFetch readers domain).fetched = .error e) :
    mapped readers domain region completions = .error e := by
  have hcertificate : customEndpointCertificate readers domain = .error e := by
    rw [customEndpointCertificate, if_pos hcustom, h]
  rw [mapped, domainMapper, if_neg (by simp [hdeleted]), hcertificate]
  rfl

theorem certificate_of_not_rejects (h : Aws.truthy domain.customEndpoint = true → ¬ (certificateFetch readers domain).Rejects) :
    ∃ certificate, customEndpointCertificate readers domain = .ok certificate := by
  rw [customEndpointCertificate]
  split
  · next hcustom =>
    cases hfetched : (certificateFetch readers domain).fetched with
    | error e => exact absurd ⟨e, hfetched⟩ (h hcustom)
    | ok certificate => exact ⟨certificate, rfl⟩
  · exact ⟨none, rfl⟩

theorem mapped_of_policy (hdeleted : domain.deleted = false)
    (hcertificate : Aws.truthy domain.customEndpoint = true → ¬ (certificateFetch readers domain).Rejects) :
    (∃ e, domain.accessPolicies = .error e ∧ mapped readers domain region completions = .error e) ∨
      ∃ out, (∃ policy, domain.accessPolicies = .ok policy) ∧ mapped readers domain region completions = .ok (some out) ∧
        out.subnets = some (lists readers domain region completions).subnets.out ∧
        out.securityGroups = some (lists readers domain region completions).securityGroups.out := by
  obtain ⟨certificate, hcertificate⟩ := certificate_of_not_rejects hcertificate
  rw [mapped, domainMapper, if_neg (by simp [hdeleted]), hcertificate]
  cases hpolicy : domain.accessPolicies with
  | error e => exact .inl ⟨e, rfl, rfl⟩
  | ok policy => exact .inr ⟨_, ⟨policy, rfl⟩, rfl, rfl, rfl⟩

theorem each_fetch_iff {α : Type} {fetches : List (Fetch Thrown α)} {n : Nat → Nat} :
    (∀ i l, fetches[i]? = some l → ¬ Fetch.Rejects l ∧ Fetch.Timely l (n i)) ↔
      (¬ ∃ l ∈ fetches, Fetch.Rejects l) ∧ ∀ i l, fetches[i]? = some l → Fetch.Timely l (n i) := by
  constructor
  · refine fun h => ⟨?_, fun i l hl => (h i l hl).2⟩
    rintro ⟨l, hmem, hrejects⟩
    obtain ⟨i, hl⟩ := List.mem_iff_getElem?.mp hmem
    exact (h i l hl).1 hrejects
  · rintro ⟨hnone, htimely⟩ i l hl
    exact ⟨fun hrejects => hnone ⟨l, List.mem_of_getElem? hl, hrejects⟩, htimely i l hl⟩

theorem onTime_iff : OnTime readers domain region completions ↔
    ((lists readers domain region completions).subnets.out.Perm
        (((subnetFetches readers domain region).filterMap Fetch.record).map some) ∧
      (lists readers domain region completions).securityGroups.out.Perm
        (((securityGroupFetches readers domain region).filterMap Fetch.record).map some)) ∧
      ¬ (Started domain ∧ ((∃ l ∈ subnetFetches readers domain region, l.Rejects) ∨
        ∃ l ∈ securityGroupFetches readers domain region, l.Rejects)) := by
  rw [OnTime]
  split
  · next hstarted =>
    rw [lists_eq hstarted, filled_perm_records, filled_perm_records, each_fetch_iff, each_fetch_iff]
    simp only [count_subnet, count_securityGroup, hstarted, true_and, not_or]
    tauto
  · next hstarted =>
    rw [lists, if_neg hstarted, List.nil_perm, List.nil_perm, List.map_eq_nil_iff, List.map_eq_nil_iff]
    simp [hstarted]

theorem complete_of_error {e : Thrown} (h : mapped readers domain region completions = .error e) :
    Complete readers domain region completions := by
  refine ⟨fun out hout => ?_, fun _ => ⟨e, h⟩⟩
  rw [h] at hout
  cases hout

theorem complete_of_mapped {out : Domain (Option Subnet) (Option SecurityGroup)} (hdeleted : domain.deleted = false)
    (hcertificate : ¬ (Aws.truthy domain.customEndpoint = true ∧ (certificateFetch readers domain).Rejects))
    (hout : mapped readers domain region completions = .ok (some out))
    (hsubnets : out.subnets = some (lists readers domain region completions).subnets.out)
    (hgroups : out.securityGroups = some (lists readers domain region completions).securityGroups.out) :
    Complete readers domain region completions ↔ OnTime readers domain region completions := by
  rw [onTime_iff]
  constructor
  · rintro ⟨hlists, hrejects⟩
    obtain ⟨⟨ss, hss, hperm⟩, gs, hgs, hperm'⟩ := hlists out hout
    obtain rfl := Option.some.inj (hsubnets.symm.trans hss)
    obtain rfl := Option.some.inj (hgroups.symm.trans hgs)
    refine ⟨⟨hperm, hperm'⟩, fun hrejected => ?_⟩
    obtain ⟨e, he⟩ := hrejects ⟨hdeleted, .inr hrejected⟩
    cases hout.symm.trans he
  · rintro ⟨⟨hperm, hperm'⟩, hnone⟩
    refine ⟨fun out' hout' => ?_, fun hrejected => ?_⟩
    · obtain rfl := Option.some.inj (Except.ok.inj (hout.symm.trans hout'))
      exact ⟨⟨_, hsubnets, hperm⟩, _, hgroups, hperm'⟩
    · rcases hrejected.2 with hcert | hread
      · exact absurd hcert hcertificate
      · exact absurd hread hnone

-- the lists are complete only when every read is done before the caller goes on, which nothing ensures
theorem complete_iff : Complete readers domain region completions ↔
    Settled readers domain ∨ OnTime readers domain region completions := by
  cases hdeleted : domain.deleted with
  | true =>
    refine iff_of_true ⟨fun out hout => ?_, fun hrejected => ?_⟩ (.inl (.inl hdeleted))
    · rw [mapped_of_deleted hdeleted] at hout
      cases hout
    · cases hdeleted.symm.trans hrejected.1
  | false =>
    by_cases hcertificate : Aws.truthy domain.customEndpoint = true ∧ (certificateFetch readers domain).Rejects
    · obtain ⟨hcustom, e, he⟩ := hcertificate
      exact iff_of_true (complete_of_error (mapped_of_certificate hdeleted hcustom he)) (.inl (.inr (.inl ⟨hcustom, e, he⟩)))
    · rcases mapped_of_policy hdeleted fun hcustom hrejects => hcertificate ⟨hcustom, hrejects⟩ with
        ⟨e, hpolicy, he⟩ | ⟨out, ⟨policy, hpolicy⟩, hout, hsubnets, hgroups⟩
      · exact iff_of_true (complete_of_error he) (.inl (.inr (.inr ⟨e, hpolicy⟩)))
      · have hsettled : ¬ Settled readers domain := by
          rintro (h | h | ⟨e, he⟩)
          · cases hdeleted.symm.trans h
          · exact hcertificate h
          · cases hpolicy.symm.trans he
        rw [complete_of_mapped hdeleted hcertificate hout hsubnets hgroups]
        exact (or_iff_right hsettled).symm

end Condition

section Slow

def subnet : Subnet := ⟨some 1, some "subnet-0a", "us-east-1"⟩

def securityGroup : SecurityGroup := { groupId := some "sg-0b", region := some "us-east-1" }

def rowReaders : Readers where
  certificateDb _ := .ok none
  certificateCloud _ := .ok none
  subnetDb _ _ := .ok (some subnet)
  subnetCloud _ _ := .ok none
  securityGroupDb _ _ := .ok (some securityGroup)
  securityGroupCloud _ _ := .ok none

def logs : AwsDomain where
  domainName := some "logs"
  subnetIds := some ["subnet-0a"]
  securityGroupIds := some ["sg-0b"]
  accessPolicies := .ok ⟨none, .many [], []⟩

-- the caller goes on before the two reads complete
theorem logs_incomplete : ¬ Complete rowReaders logs "us-east-1" [] := by
  intro h
  obtain ⟨⟨subnets, hsubnets, hperm⟩, -⟩ := h.lists _ rfl
  obtain rfl : subnets = [] := (Option.some.inj hsubnets).symm
  have hlength : 0 = 1 := hperm.length_eq
  cases hlength

end Slow

end Iasql.OpenSearch
