import Iasql.Calculus.Settling
import Iasql.Comparators
import Iasql.Edits
import Iasql.ListEquals

namespace Iasql.OpenSearch

open Program Prog Aws AwsDiff CanonicalPolicy Edits GeneratedKeys ListEquals OneSided Settling
open Acm (Certificate)
open Instances (Subnet)
open SecurityGroups (SecurityGroup)

section Update

variable (subnetRows : Table Subnet (·.id)) (groupRows : Table SecurityGroup (·.id))

-- the records of the database, or else of the cloud; the lists are as they are once all are pushed
structure Lookups where
  certificate : String → Option Certificate
  certificate_arn : ∀ arn found, certificate (generateId [arn]) = some found → found.arn = arn
  subnets : List String → List subnetRows.Record
  securityGroups : List String → List groupRows.Record

variable {subnetRows groupRows}

-- no read rejects
def Lookups.readers (l : Lookups subnetRows groupRows) : Readers where
  certificateDb id := .ok (l.certificate id)
  certificateCloud _ := .ok none
  subnetDb _ _ := .ok none
  subnetCloud _ _ := .ok none
  securityGroupDb _ _ := .ok none
  securityGroupCloud _ _ := .ok none

def Lookups.filled (l : Lookups subnetRows groupRows) (domain : AwsDomain)
    (out : Domain (Option Subnet) (Option SecurityGroup)) : Domain subnetRows.Record groupRows.Record :=
  { out with
    subnets := some (if Started domain then l.subnets (domain.subnetIds.getD []) else [])
    securityGroups := some (if Started domain then l.securityGroups (domain.securityGroupIds.getD []) else []) }

def Lookups.domain (l : Lookups subnetRows groupRows) (domain : AwsDomain) (region : String) :
    Option (Domain subnetRows.Record groupRows.Record) :=
  match domainMapper l.readers domain region with
  | .ok (some out) => some (l.filled domain out)
  | _ => none

-- what is sent of the columns
structure UpdateDomainConfig where
  instanceType : Option String
  instanceCount : Option Nat
  dedicatedMasterEnabled : Bool
  zoneAwarenessEnabled : Bool
  dedicatedMasterType : Option String
  dedicatedMasterCount : Option Nat
  warmEnabled : Bool
  warmType : Option String
  warmCount : Option Nat
  coldStorageEnabled : Option Bool
  accessPolicies : Option Policy
  autoTuneDesiredState : String
  ebsOptions : Option Value
  domainEndpoint : Option (String × String)
  advancedSecurityEnabled : Option Bool

def numbered (count : Option Nat) : Bool := count.any (· != 0)

-- the custom endpoint and its certificate
def customDomain {S G : Type} (e : Domain S G) : Option (String × String) :=
  (e.customEndpoint.filter (· != "")).bind fun endpoint =>
    e.customEndpointCertificate.map fun certificate => (endpoint, certificate.arn)

def credentials {S G : Type} (e : Domain S G) : Bool :=
  (Aws.truthy e.fineGrainedAccessControlMasterUsername && Aws.truthy e.fineGrainedAccessControlMasterPassword) ||
    Aws.truthy e.fineGrainedAccessControlUserArn

-- the instance types without automatic tuning
def untuned (instanceType : String) : Bool := includes "t2." instanceType || includes "t3." instanceType

def sentEbsOptions (ebsOptions : Option Value) : Option Value :=
  ebsOptions.filter fun v => Codepipeline.truthyJson v.json

def updateInput {S G : Type} (e : Domain S G) (instanceType : String) : UpdateDomainConfig where
  instanceType := some instanceType
  instanceCount := e.instanceCount
  dedicatedMasterEnabled := numbered e.dedicatedMasterCount
  zoneAwarenessEnabled := decide (e.availabilityZoneCount > 1)
  dedicatedMasterType := e.dedicatedMasterType
  dedicatedMasterCount := e.dedicatedMasterCount
  warmEnabled := numbered e.warmInstanceCount
  warmType := e.warmInstanceType
  warmCount := e.warmInstanceCount
  coldStorageEnabled := e.coldStorage
  accessPolicies := e.accessPolicy
  autoTuneDesiredState := if untuned instanceType then "DISABLED" else "ENABLED"
  ebsOptions := sentEbsOptions e.ebsOptions
  domainEndpoint := customDomain e
  advancedSecurityEnabled := if credentials e then some true else none

-- AWS keeps what the request leaves out
def updateDomainConfig (input : UpdateDomainConfig) (d : AwsDomain) : AwsDomain :=
  { d with
    customEndpoint := (input.domainEndpoint.map (·.1)).or d.customEndpoint
    customEndpointCertificateArn := (input.domainEndpoint.map (·.2)).or d.customEndpointCertificateArn
    instanceType := input.instanceType.or d.instanceType
    instanceCount := input.instanceCount.or d.instanceCount
    ebsOptions := input.ebsOptions.or d.ebsOptions
    warmType := input.warmType.or d.warmType
    warmCount := input.warmCount.or d.warmCount
    coldStorageEnabled := input.coldStorageEnabled.or d.coldStorageEnabled
    dedicatedMasterType := input.dedicatedMasterType.or d.dedicatedMasterType
    autoTuneState := some input.autoTuneDesiredState
    advancedSecurityEnabled := input.advancedSecurityEnabled.or d.advancedSecurityEnabled
    accessPolicies := input.accessPolicies.elim d.accessPolicies .ok }

-- the credentials are not kept
def forgotten {S G : Type} (e : Domain S G) : Domain S G :=
  { e with
    fineGrainedAccessControlUserArn := none
    fineGrainedAccessControlMasterUsername := none
    fineGrainedAccessControlMasterPassword := none }

variable {S G : Type}

-- the endpoint comes from the cloud
def restored (cloudMemoRecord e : Domain S G) : Domain S G :=
  { e with endpoint := cloudMemoRecord.endpoint }

-- domain.cloud.update
def update (cloudMemoRecord e : Domain S G) : Prog (State AwsDomain (Domain S G)) Thrown Unit := do
  runIf (e.endpoint != cloudMemoRecord.endpoint) (save (restored cloudMemoRecord e))
  match e.instanceType with
  | none => fail (.error "Cannot read properties of undefined (reading 'includes')")
  | some instanceType => do
    send (updateDomainConfig (updateInput e instanceType))
    save (forgotten (restored cloudMemoRecord e))

def sync (lower : LowerCase) (l : Lookups subnetRows groupRows) :
    Sync (State AwsDomain (Domain subnetRows.Record groupRows.Record))
      (Domain subnetRows.Record groupRows.Record) where
  row := State.row
  read s := l.domain s.aws s.row.region
  equals := DomainMapper.equals lower
  update c s := (update c s.row s).2

end Update

section Read

variable {subnetRows : Table Subnet (·.id)} {groupRows : Table SecurityGroup (·.id)}
  (l : Lookups subnetRows groupRows)

def Lookups.customCertificate (d : AwsDomain) : Option Certificate :=
  if Aws.truthy d.customEndpoint then l.certificate (generateId [d.customEndpointCertificateArn.getD ""]) else none

-- the record of a domain whose policy is read as this one
def Lookups.record (d : AwsDomain) (region : String) (policy : Policy) :
    Domain subnetRows.Record groupRows.Record :=
  l.filled d {
    domainName := d.domainName
    customEndpoint := d.customEndpoint.filter (· != "")
    customEndpointCertificate := l.customCertificate d
    version := d.engineVersion
    availabilityZoneCount := (d.availabilityZoneCount.filter (· != 0)).getD 1
    instanceType := d.instanceType
    instanceCount := d.instanceCount
    ebsOptions := d.ebsOptions
    warmInstanceType := d.warmType
    warmInstanceCount := d.warmCount
    coldStorage := d.coldStorageEnabled
    dedicatedMasterType := d.dedicatedMasterType
    autoTune := ["ENABLED", "ENABLE_IN_PROGRESS"].contains (d.autoTuneState.getD "")
    subnets := some []
    securityGroups := some []
    enableFineGrainedAccessControl := d.advancedSecurityEnabled.getD false
    accessPolicy := some policy
    endpoint := d.endpoint
    region }

variable {l} {d : AwsDomain} {region : String} {c : Domain subnetRows.Record groupRows.Record}

theorem fetched_certificate (id : String) :
    Unawaited.Fetch.fetched (⟨.ok (l.certificate id), .ok none⟩ : Unawaited.Fetch Thrown Certificate) =
      .ok (l.certificate id) := by
  rw [Unawaited.Fetch.fetched]
  cases l.certificate id <;> rfl

theorem customEndpointCertificate_readers :
    customEndpointCertificate l.readers d = .ok (l.customCertificate d) := by
  rw [customEndpointCertificate, Lookups.customCertificate]
  split
  · exact fetched_certificate _
  · rfl

theorem domain_iff : l.domain d region = some c ↔
    d.deleted = false ∧ ∃ policy, d.accessPolicies = .ok policy ∧ c = l.record d region policy := by
  rw [Lookups.domain, domainMapper]
  cases hdeleted : d.deleted with
  | true => exact iff_of_false (fun hnone => by cases hnone) (by simp)
  | false =>
    rw [customEndpointCertificate_readers]
    cases hpolicy : d.accessPolicies with
    | error err =>
      refine iff_of_false (fun hnone => by cases hnone) ?_
      rintro ⟨-, policy, hok, -⟩
      cases hok
    | ok policy =>
      constructor
      · intro h
        exact ⟨rfl, policy, rfl, (Option.some.inj h).symm⟩
      · rintro ⟨-, policy', hok, rfl⟩
        cases hok
        rfl

end Read

section Condition

variable {subnetRows : Table Subnet (·.id)} {groupRows : Table SecurityGroup (·.id)}

-- a column is not edited, or it is set and sent
def SentOrSame {α : Type} (e c : Option α) : Prop := e = c ∨ e.isSome = true

-- the columns that are never sent are not edited, and those that are sent only where they are set are not cleared
structure Sendable (lower : LowerCase) (l : Lookups subnetRows groupRows)
    (e c : Domain subnetRows.Record groupRows.Record) (instanceType : String) : Prop where
  customEndpoint : (customDomain e).elim
    (e.customEndpoint = c.customEndpoint ∧
      e.customEndpointCertificate.map (·.arn) = c.customEndpointCertificate.map (·.arn))
    fun sent => (l.certificate (generateId [sent.2])).isSome = true
  version : e.version = c.version
  availabilityZoneCount : e.availabilityZoneCount = c.availabilityZoneCount
  instanceCount : SentOrSame e.instanceCount c.instanceCount
  ebsOptions : sameColumn e.ebsOptions c.ebsOptions = true ∨ (sentEbsOptions e.ebsOptions).isSome = true
  warmInstanceType : SentOrSame e.warmInstanceType c.warmInstanceType
  coldStorage : SentOrSame e.coldStorage c.coldStorage
  dedicatedMasterType : SentOrSame e.dedicatedMasterType c.dedicatedMasterType
  dedicatedMasterCount : e.dedicatedMasterCount = none
  autoTune : e.autoTune = !untuned instanceType
  subnets : listed (fun sa bs => (bs.find? fun sb => sa.1.id == sb.1.id).isSome) e.subnets c.subnets = true
  securityGroups :
    listed (fun sa bs => (bs.find? fun sb => sa.1.id == sb.1.id).isSome) e.securityGroups c.securityGroups = true
  enableFineGrainedAccessControl :
    e.enableFineGrainedAccessControl = (credentials e || c.enableFineGrainedAccessControl)
  accessPolicy : policiesAreSame lower e.accessPolicy c.accessPolicy = true ∨ e.accessPolicy.isSome = true

-- the type of the instances is never null in the database: where it is, the update throws after the
-- endpoint has been restored
def Reaches (lower : LowerCase) (l : Lookups subnetRows groupRows)
    (e c : Domain subnetRows.Record groupRows.Record) : Prop :=
  e.instanceType.elim (DomainMapper.equals lower (restored c e) c = true)
    (Sendable lower l e c)

end Condition

section Settle

variable {subnetRows : Table Subnet (·.id)} {groupRows : Table SecurityGroup (·.id)}
  {lower : LowerCase} {l : Lookups subnetRows groupRows} {d : AwsDomain} {region instanceType : String} {policy : Policy}
  {e c : Domain subnetRows.Record groupRows.Record}
  {s : State AwsDomain (Domain subnetRows.Record groupRows.Record)}

theorem eq_or_iff {α : Type} {new old : Option α} : new = new.or old ↔ SentOrSame new old := by
  rw [SentOrSame]
  cases new with
  | none => simp
  | some n => simp

theorem restore_run : runIf (s.row.endpoint != c.endpoint) (save (restored c s.row)) s =
    (.returned (), { s with row := restored c s.row }) := by
  by_cases h : s.row.endpoint = c.endpoint
  · have hsame : restored c s.row = s.row := by
      rw [restored, ← h]
    rw [hsame, bne_eq_false_iff_eq.mpr h]
    rfl
  · rw [bne_iff_ne.mpr h]
    rfl

theorem update_untyped (h : s.row.instanceType = none) :
    (update c s.row s).2 = { s with row := restored c s.row } := by
  rw [update, bind_of_returned restore_run, h]
  rfl

theorem update_typed (h : s.row.instanceType = some instanceType) :
    (update c s.row s).2 =
      { aws := updateDomainConfig (updateInput s.row instanceType) s.aws, row := forgotten (restored c s.row) } := by
  rw [update, bind_of_returned restore_run, h]
  rfl

theorem customDomain_eq_some {endpoint arn : String} (h : customDomain e = some (endpoint, arn)) :
    e.customEndpoint = some endpoint ∧ endpoint ≠ "" ∧ e.customEndpointCertificate.map (·.arn) = some arn := by
  obtain ⟨endpoint', hendpoint, hmap⟩ := Option.bind_eq_some_iff.mp h
  obtain ⟨certificate, hcertificate, hpair⟩ := Option.map_eq_some_iff.mp hmap
  obtain ⟨hset, hne⟩ := Option.filter_eq_some_iff.mp hendpoint
  cases hpair
  exact ⟨hset, bne_iff_ne.mp hne, by rw [hcertificate]; rfl⟩

theorem custom_sent {input : UpdateDomainConfig} (hinput : input.domainEndpoint = customDomain e) :
    (e.customEndpoint = (l.record (updateDomainConfig input d) region policy).customEndpoint ∧
      e.customEndpointCertificate.map (·.arn) =
        (l.record (updateDomainConfig input d) region policy).customEndpointCertificate.map (·.arn)) ↔
      (customDomain e).elim
        (e.customEndpoint = (l.record d region policy).customEndpoint ∧ e.customEndpointCertificate.map (·.arn) =
          (l.record d region policy).customEndpointCertificate.map (·.arn))
        fun sent => (l.certificate (generateId [sent.2])).isSome = true := by
  cases hcustom : customDomain e with
  | none =>
    have hendpoint : (updateDomainConfig input d).customEndpoint = d.customEndpoint := by
      rw [updateDomainConfig, hinput, hcustom]
      rfl
    have hcertificate : l.customCertificate (updateDomainConfig input d) = l.customCertificate d := by
      rw [Lookups.customCertificate, hendpoint, updateDomainConfig, hinput, hcustom]
      rfl
    change (_ = (updateDomainConfig input d).customEndpoint.filter _ ∧
      _ = (l.customCertificate (updateDomainConfig input d)).map _) ↔ _
    rw [hendpoint, hcertificate]
    rfl
  | some sent =>
    obtain ⟨endpoint, arn⟩ := sent
    obtain ⟨hset, hne, harn⟩ := customDomain_eq_some hcustom
    have hendpoint : (updateDomainConfig input d).customEndpoint = some endpoint := by
      rw [updateDomainConfig, hinput, hcustom]
      rfl
    have hcertificate : l.customCertificate (updateDomainConfig input d) = l.certificate (generateId [arn]) := by
      rw [Lookups.customCertificate, hendpoint, updateDomainConfig, hinput, hcustom, if_pos]
      · rfl
      · exact bne_iff_ne.mpr hne
    change (_ = (updateDomainConfig input d).customEndpoint.filter _ ∧
      _ = (l.customCertificate (updateDomainConfig input d)).map _) ↔ (l.certificate _).isSome = true
    have hkept : (some endpoint).filter (· != "") = some endpoint := if_pos (bne_iff_ne.mpr hne)
    rw [hendpoint, hcertificate, hset, harn, hkept]
    cases hfound : l.certificate (generateId [arn]) with
    | none => simp
    | some found => simp [l.certificate_arn arn found hfound]

theorem ebsOptions_sent (new old : Option Value) :
    sameColumn new ((sentEbsOptions new).or old) = true ↔
      sameColumn new old = true ∨ (sentEbsOptions new).isSome = true := by
  cases hsent : sentEbsOptions new with
  | none => simp
  | some v =>
    obtain ⟨hnew, -⟩ := Option.filter_eq_some_iff.mp hsent
    rw [hnew]
    simp [sameColumn_self]

theorem accessPolicy_sent (new : Option Policy) (old : Policy) :
    policiesAreSame lower new (some (new.getD old)) = true ↔
      policiesAreSame lower new (some old) = true ∨ new.isSome = true := by
  cases new with
  | none => simp
  | some policy => simp [policiesAreSame_equivalence.refl]

theorem autoTune_sent (untuned : Bool) :
    ["ENABLED", "ENABLE_IN_PROGRESS"].contains ((some (if untuned then "DISABLED" else "ENABLED")).getD "") =
      !untuned := by
  cases untuned <;> decide

theorem advancedSecurity_sent (credentials : Bool) (old : Option Bool) :
    ((if credentials then some true else none).or old).getD false = (credentials || old.getD false) := by
  cases credentials <;> rfl

theorem equals_sent (hc : c = l.record d region policy) (htype : e.instanceType = some instanceType) :
    DomainMapper.equals lower (forgotten (restored c e))
        (l.record (updateDomainConfig (updateInput e instanceType) d) region (e.accessPolicy.getD policy)) = true ↔
      Sendable lower l e c instanceType := by
  subst hc
  simp only [DomainMapper.equals, Bool.and_eq_true, beq_iff_eq, and_assoc]
  constructor
  · rintro ⟨hcustom, hcertificate, hversion, hzones, -, hcount, hebs, hwarm, hcold, hmaster, hmasters,
      htune, hsubnets, hgroups, hfine, -, -, -, hpolicy, -⟩
    exact {
      customEndpoint := (custom_sent rfl).mp ⟨hcustom, hcertificate⟩
      version := hversion
      availabilityZoneCount := hzones
      instanceCount := eq_or_iff.mp hcount
      ebsOptions := (ebsOptions_sent _ _).mp hebs
      warmInstanceType := eq_or_iff.mp hwarm
      coldStorage := eq_or_iff.mp hcold
      dedicatedMasterType := eq_or_iff.mp hmaster
      dedicatedMasterCount := hmasters
      autoTune := htune.trans (autoTune_sent _)
      subnets := hsubnets
      securityGroups := hgroups
      enableFineGrainedAccessControl := hfine.trans (advancedSecurity_sent _ _)
      accessPolicy := (accessPolicy_sent _ _).mp hpolicy }
  · intro h
    obtain ⟨hcustom, hcertificate⟩ :=
      (@custom_sent _ _ l d region policy e (updateInput e instanceType) rfl).mpr h.customEndpoint
    refine ⟨hcustom, hcertificate, h.version, h.availabilityZoneCount, htype, eq_or_iff.mpr h.instanceCount,
      (ebsOptions_sent _ _).mpr h.ebsOptions, eq_or_iff.mpr h.warmInstanceType, eq_or_iff.mpr h.coldStorage,
      eq_or_iff.mpr h.dedicatedMasterType, h.dedicatedMasterCount, h.autoTune.trans (autoTune_sent _).symm,
      h.subnets, h.securityGroups,
      h.enableFineGrainedAccessControl.trans (advancedSecurity_sent _ _).symm, rfl, rfl, rfl,
      (accessPolicy_sent _ _).mpr h.accessPolicy, rfl⟩

-- a second update sends the same, less the credentials
theorem updateDomainConfig_again (input : UpdateDomainConfig) :
    updateDomainConfig { input with advancedSecurityEnabled := none } (updateDomainConfig input d) =
      updateDomainConfig input d := by
  have hor : ∀ {α : Type} (new old : Option α), new.or (new.or old) = new.or old := by
    intro α new old
    cases new <;> rfl
  have helim : ∀ (new : Option Policy) (old : Except Thrown Policy),
      new.elim (new.elim old .ok) .ok = new.elim old .ok := by
    intro new old
    cases new <;> rfl
  simp only [updateDomainConfig, hor, helim, Option.none_or]

theorem accessPolicies_sent (input : UpdateDomainConfig) (h : d.accessPolicies = .ok policy) :
    (updateDomainConfig input d).accessPolicies = .ok (input.accessPolicies.getD policy) := by
  change input.accessPolicies.elim d.accessPolicies .ok = _
  rw [h]
  cases input.accessPolicies <;> rfl

theorem updateInput_forgotten :
    updateInput (forgotten (restored c e)) instanceType =
      { updateInput e instanceType with advancedSecurityEnabled := none } := rfl

theorem forgotten_again {c' : Domain subnetRows.Record groupRows.Record} (h : c'.endpoint = c.endpoint) :
    forgotten (restored c' (forgotten (restored c e))) = forgotten (restored c e) := by
  simp only [forgotten, restored, h]

-- what the first update does not make equal, no later one does
theorem settles_iff (h : (sync lower l).Differs s c) :
    (sync lower l).Settles s ↔ Reaches lower l s.row c := by
  obtain ⟨hdeleted, policy, hpolicy, hc⟩ := domain_iff.mp h.read
  rw [Reaches]
  cases htype : s.row.instanceType with
  | none =>
    have hupdate : (sync lower l).update c s = { s with row := restored c s.row } := update_untyped htype
    have hread : (sync lower l).read ((sync lower l).update c s) = some c := by
      rw [hupdate]
      exact h.read
    rw [Sync.settles_iff_update h ?_ (by rw [hread]; rfl), Sync.agreed_iff hread, hupdate]
    · rfl
    · intro c' h'
      obtain rfl := Option.some.inj (hread.symm.trans h'.read)
      rw [hupdate]
      exact update_untyped htype
  | some instanceType =>
    have hupdate : (sync lower l).update c s =
        { aws := updateDomainConfig (updateInput s.row instanceType) s.aws
          row := forgotten (restored c s.row) } := update_typed htype
    have hread : (sync lower l).read ((sync lower l).update c s) =
        some (l.record (updateDomainConfig (updateInput s.row instanceType) s.aws) s.row.region
          (s.row.accessPolicy.getD policy)) := by
      rw [hupdate]
      exact domain_iff.mpr ⟨hdeleted, _, accessPolicies_sent _ hpolicy, rfl⟩
    rw [Sync.settles_iff_update h ?_ (by rw [hread]; rfl), Sync.agreed_iff hread, hupdate]
    · exact equals_sent hc htype
    · intro c' h'
      have hendpoint : c'.endpoint = c.endpoint := by
        obtain rfl := Option.some.inj (hread.symm.trans h'.read)
        rw [hc]
        rfl
      rw [hupdate]
      refine (update_typed (s := { aws := _, row := forgotten (restored c s.row) }) (c := c') htype).trans ?_
      rw [updateInput_forgotten, updateDomainConfig_again, forgotten_again hendpoint]

end Settle

end Iasql.OpenSearch
