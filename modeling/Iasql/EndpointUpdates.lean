import Iasql.Calculus.Settling
import Iasql.Edits
import Iasql.GeneratedKeys
import Iasql.ServiceNames

namespace Iasql.Endpoints

open Program Prog Aws CanonicalPolicy GeneratedKeys SecurityGroups Settling Tags

section Mapper

-- subnetIds and tags as AWS lists them, policyDocument as it is parsed
structure AwsVpcEndpoint where
  serviceName : Option String
  vpcId : Option String := none
  policyDocument : Option Policy := none
  state : Option String := none
  dnsRecordIpType : Option DnsRecordIpType := none
  privateDnsEnabled : Option Bool := none
  subnetIds : List String := []
  tags : Dict String String := ∅

structure FoundSubnet where
  subnet : Subnet
  state : Option String

-- the records of the database, or else of the cloud, under an id of a region
structure Lookups (subnetRows : Table Subnet (·.id)) where
  vpc : String → String → Option Vpc
  subnet : String → String → Option FoundSubnet
  identified : ∀ subnetId region found, subnet subnetId region = some found →
    found.subnet.subnetId = some subnetId ∧ subnetId ≠ "" ∧ subnetRows.Holds found.subnet

variable {subnetRows : Table Subnet (·.id)} (l : Lookups subnetRows)

def Lookups.available (region subnetId : String) : Option Subnet :=
  (l.subnet subnetId region).bind fun s => if s.state = some "available" then some s.subnet else none

def mapped (vpcEndpointId : String) (eg : AwsVpcEndpoint) (region : String) (service : EndpointInterfaceService)
    (vpc : Vpc) : EndpointInterface where
  vpcEndpointId := some vpcEndpointId
  service
  vpc := some vpc
  policy := eg.policyDocument
  state := eg.state
  dnsNameRecordType := eg.dnsRecordIpType
  privateDnsEnabled := some (eg.privateDnsEnabled.getD false)
  subnets := eg.subnetIds.filterMap (l.available region)
  tags := readTags eg.tags
  region

def endpointInterfaceMapper (vpcEndpointId : String) (eg : AwsVpcEndpoint) (region : String) :
    Option EndpointInterface :=
  if !Aws.truthy eg.serviceName || vpcEndpointId = "" then none
  else (getInterfaceServiceFromServiceName (eg.serviceName.getD "")).bind fun service =>
    (l.vpc (eg.vpcId.getD "") region).map (mapped l vpcEndpointId eg region service)

end Mapper

section Update

variable {subnetRows : Table Subnet (·.id)}

abbrev Sides : Type := Edits.State (Dict String AwsVpcEndpoint) EndpointInterface

-- what AWS answers and chooses: the policy of an endpoint that is given none, and an id of its own
structure Service where
  region : Region
  defaultPolicy : Option Policy
  newId : Dict String AwsVpcEndpoint → String
  newId_ne : ∀ endpoints, newId endpoints ≠ ""
  newId_fresh : ∀ endpoints : Dict String AwsVpcEndpoint, endpoints.get? (newId endpoints) = none

variable (lower : LowerCase) (l : Lookups subnetRows) (service : Service)

def modify (vpcEndpointId : String) (f : AwsVpcEndpoint → AwsVpcEndpoint) : Prog Sides Thrown Unit := do
  match ← reads fun s : Sides => s.aws.get? vpcEndpointId with
  | none => fail (.error "InvalidVpcEndpointId.NotFound")
  | some eg => writes fun s => { s with aws := s.aws.set vpcEndpointId (f eg) }

-- no policy resets to the default one
def modifyPolicy (policy : Option Policy) (eg : AwsVpcEndpoint) : AwsVpcEndpoint :=
  { eg with policyDocument := policy.or service.defaultPolicy }

def modifySubnets (removeSubnetIds addSubnetIds : List String) (eg : AwsVpcEndpoint) : AwsVpcEndpoint :=
  let left := eg.subnetIds.filter (· ∉ removeSubnetIds)
  { eg with subnetIds := left ++ addSubnetIds.dedup.filter (· ∉ left) }

-- all tags are removed, and the new ones added
def recreateTags (tags : Option (Dict String String)) (eg : AwsVpcEndpoint) : AwsVpcEndpoint :=
  { eg with tags := tags.getD ∅ }

-- the mapper sets the tags where AWS has some only: a row that is saved keeps its own there
def kept (row record : EndpointInterface) : EndpointInterface :=
  { record with id := row.id, tags := record.tags.or row.tags }

def save (row record : EndpointInterface) : Prog Sides Thrown Unit :=
  writes fun s => { s with row := kept row record }

def getVpcEndpoint (vpcEndpointId region : String) (s : Sides) : Option EndpointInterface :=
  (s.aws.get? vpcEndpointId).bind fun eg => endpointInterfaceMapper l vpcEndpointId eg region

-- the endpoint is waited for, ten minutes at most
def waitForEndpointAvailable (vpcEndpointId : String) (s : Sides) : Bool :=
  (s.aws.get? vpcEndpointId).any (·.state == some "available")

def created (input : CreateVpcEndpoint) : AwsVpcEndpoint where
  serviceName := some input.serviceName
  vpcId := input.vpcId
  policyDocument := input.policyDocument.or service.defaultPolicy
  state := some "available"
  dnsRecordIpType := input.dnsRecordIpType
  privateDnsEnabled := input.privateDnsEnabled
  subnetIds := input.subnetIds
  tags := input.tags.getD ∅

def create (e : EndpointInterface) : Prog Sides Thrown Unit :=
  match createInput service.region e with
  | none => pure ()
  | some input => do
    let vpcEndpointId ← reads fun s : Sides => service.newId s.aws
    writes fun s : Sides => { s with aws := s.aws.set vpcEndpointId (created service input) }
    match ← reads (getVpcEndpoint l vpcEndpointId e.region) with
    | none => pure ()
    | some newEndpointInterface => save e newEndpointInterface

def delete (e : EndpointInterface) : Prog Sides Thrown Unit :=
  writes fun s => { s with aws := s.aws.eraseAll [e.vpcEndpointId.getD ""] }

-- endpointInterface.cloud.update
def update (cloudRecord e : EndpointInterface) : Prog Sides Thrown Unit :=
  if replaces cloudRecord e then do
    create l service e
    delete cloudRecord
  else do
    let vpcEndpointId := e.vpcEndpointId.getD ""
    let policy := !policiesAreSame lower cloudRecord.policy e.policy
    let subnets := !sameSubnets cloudRecord.subnets e.subnets
    let tags := !Vpc.eqTags cloudRecord.tags e.tags
    runIf policy (modify vpcEndpointId (modifyPolicy service e.policy))
    runIf subnets (modify vpcEndpointId (modifySubnets (subnetIds cloudRecord.subnets) (subnetIds e.subnets)))
    runIf tags (modify vpcEndpointId (recreateTags e.tags))
    if policy || subnets || tags then
      if ← reads (waitForEndpointAvailable vpcEndpointId) then pure ()
      else
        match ← reads (getVpcEndpoint l vpcEndpointId e.region) with
        | none => pure ()
        | some newEndpoint => save e newEndpoint
    else save e cloudRecord

-- the full read lists the endpoints of these states
def listed (eg : AwsVpcEndpoint) : Bool :=
  [some "available", some "rejected", some "failed"].contains eg.state

def sync : Sync Sides EndpointInterface where
  row := Edits.State.row
  read s := ((s.aws.get? (s.row.vpcEndpointId.getD "")).filter listed).bind fun eg =>
    endpointInterfaceMapper l (s.row.vpcEndpointId.getD "") eg s.row.region
  equals := equals lower
  update c s := (update lower l service c s.row s).2

end Update

section Conditions

variable {subnetRows : Table Subnet (·.id)} (lower : LowerCase) (l : Lookups subnetRows) (service : Service)

-- the subnets of a row are rows of their table, each of them once
structure Stored (subnetRows : Table Subnet (·.id)) (e : EndpointInterface) : Prop where
  rows : ∀ s ∈ e.subnets, s.id.isSome = true ∧ subnetRows.Holds s
  distinct : (e.subnets.map (·.id)).Nodup

-- AWS has the subnet under its id, and it is available
def Attachable (region : String) (s : Subnet) : Prop :=
  ∃ subnetId found, s.subnetId = some subnetId ∧ l.available region subnetId = some found ∧ found.id = s.id

-- the policy is not emptied, the subnets are available, and no tag is empty
structure Pushable (e c : EndpointInterface) : Prop where
  policy : policiesAreSame lower c.policy e.policy = true ∨ e.policy.isSome = true ∨
    policiesAreSame lower service.defaultPolicy e.policy = true
  subnets : sameSubnets c.subnets e.subnets = true ∨ ∀ s ∈ e.subnets, Attachable l e.region s
  tags : Vpc.eqTags c.tags e.tags = true ∨
    ∀ tags, e.tags = some tags → tags ≠ ∅ ∧ ∀ key value, tags.get? key = some value → written key value = true

-- the service has a name, which the service is read back from, and the VPC is found
def Created (e : EndpointInterface) : Prop :=
  ∃ serviceName, service.region.serviceName e = some serviceName ∧
    (getInterfaceServiceFromServiceName serviceName).isSome = true ∧ (l.vpc (e.vpcId.getD "") e.region).isSome = true

-- a new endpoint is created and read back, with the tags of the row
structure Replaceable (e : EndpointInterface) : Prop where
  created : Created l service e
  tags : e.tags ≠ some ∅

-- an endpoint that is not available is not waited for: what is read of it is saved
def Reaches (e c : EndpointInterface) : Prop :=
  if replaces c e then Replaceable l service e
  else if c.state = some "available" then Pushable lower l service e c
  else Vpc.eqTags c.tags e.tags = true ∨ e.tags ≠ some ∅

end Conditions

section Lists

variable {subnetRows : Table Subnet (·.id)} {l : Lookups subnetRows} {a b : List Subnet} {region : String}
  {e : EndpointInterface}

theorem sameSubnets_iff : sameSubnets a b = true ↔
    a.length = b.length ∧ ∀ s ∈ a, s.id ∈ b.map (·.id) := by
  rw [sameSubnets, Bool.and_eq_true, beq_iff_eq, List.all_eq_true]
  refine and_congr_right fun _ => forall₂_congr fun s _ => ?_
  simp only [List.find?_isSome, beq_iff_eq, List.mem_map, eq_comm (a := s.id)]

theorem sameSubnets_self (a : List Subnet) : sameSubnets a a = true :=
  sameSubnets_iff.mpr ⟨rfl, fun _ hs => List.mem_map_of_mem hs⟩

-- as many ids, none of them twice
theorem sameSubnets_perm (hnodup : (a.map (·.id)).Nodup) (h : sameSubnets a b = true) :
    (a.map (·.id)).Perm (b.map (·.id)) := by
  obtain ⟨hlength, hmem⟩ := sameSubnets_iff.mp h
  refine (List.subperm_of_subset hnodup ?_).perm_of_length_le ?_
  · intro id hid
    obtain ⟨s, hs, rfl⟩ := List.mem_map.mp hid
    exact hmem s hs
  · simp [hlength]

theorem sameSubnets_symm (hnodup : (a.map (·.id)).Nodup) (h : sameSubnets a b = true) :
    sameSubnets b a = true := by
  have hperm := sameSubnets_perm hnodup h
  refine sameSubnets_iff.mpr ⟨(sameSubnets_iff.mp h).1.symm, fun s hs => ?_⟩
  exact hperm.mem_iff.mpr (List.mem_map_of_mem hs)

theorem available_some {subnetId : String} {found : Subnet} (h : l.available region subnetId = some found) :
    found.subnetId = some subnetId ∧ subnetId ≠ "" ∧ subnetRows.Holds found := by
  obtain ⟨s, hs, hstate⟩ := Option.bind_eq_some_iff.mp h
  split at hstate
  · cases hstate
    exact l.identified _ _ _ hs
  · cases hstate

theorem mem_subnetIds {subnets : List Subnet} {subnetId : String} : subnetId ∈ subnetIds subnets ↔
    subnetId ≠ "" ∧ ∃ s ∈ subnets, s.subnetId = some subnetId := by
  simp only [subnetIds, List.mem_filterMap, Option.filter_eq_some_iff, bne_iff_ne]
  exact ⟨fun ⟨s, hs, hid, hne⟩ => ⟨hne, s, hs, hid⟩, fun ⟨hne, s, hs, hid⟩ => ⟨s, hs, hid, hne⟩⟩

-- what is read of the ids that are added
def attached (l : Lookups subnetRows) (e : EndpointInterface) : List Subnet :=
  (subnetIds e.subnets).dedup.filterMap (l.available e.region)

-- what the old record does not show stays hidden
theorem subnets_modified {eg : AwsVpcEndpoint} (hc : a = eg.subnetIds.filterMap (l.available e.region)) :
    (modifySubnets (subnetIds a) (subnetIds e.subnets) eg).subnetIds.filterMap (l.available e.region) =
      attached l e := by
  have hhidden : ∀ subnetId ∈ eg.subnetIds.filter (· ∉ subnetIds a), l.available e.region subnetId = none := by
    intro subnetId hmem
    obtain ⟨hin, hnot⟩ := List.mem_filter.mp hmem
    cases hfound : l.available e.region subnetId with
    | none => rfl
    | some found =>
      obtain ⟨hid, hne, -⟩ := available_some hfound
      refine absurd (mem_subnetIds.mpr ⟨hne, found, ?_, hid⟩) (of_decide_eq_true hnot)
      rw [hc]
      exact List.mem_filterMap.mpr ⟨subnetId, hin, hfound⟩
  have hleft : (eg.subnetIds.filter (· ∉ subnetIds a)).filterMap (l.available e.region) = [] :=
    List.filterMap_eq_nil_iff.mpr hhidden
  rw [modifySubnets, attached]
  dsimp only
  rw [List.filterMap_append, hleft, List.nil_append, List.filterMap_filter]
  refine List.filterMap_congr fun subnetId _ => ?_
  split
  · rfl
  · next hin =>
    rw [decide_eq_true_eq, not_not] at hin
    exact (hhidden subnetId hin).symm

theorem attached_id {s : Subnet} (hs : s ∈ attached l e) : ∃ subnetId, l.available e.region subnetId = some s ∧
    subnetId ∈ subnetIds e.subnets := by
  obtain ⟨subnetId, hin, hfound⟩ := List.mem_filterMap.mp hs
  exact ⟨subnetId, hfound, List.mem_dedup.mp hin⟩

-- a row of the table is found under its own id
theorem eq_of_id {s found : Subnet} (hstored : Stored subnetRows e) (hs : s ∈ e.subnets)
    (hfound : subnetRows.Holds found) (hid : found.id = s.id) : found = s := by
  obtain ⟨hset, hholds⟩ := hstored.rows s hs
  obtain ⟨i, hi⟩ := Option.isSome_iff_exists.mp hset
  rw [hholds i hi, hfound i (hid.trans hi)]

theorem nodup_attached (hstored : Stored subnetRows e) (h : sameSubnets (attached l e) e.subnets = true) :
    ((attached l e).map (·.id)).Nodup := by
  have hids := (sameSubnets_iff.mp h).2
  refine List.Nodup.map_on ?_ ?_
  · intro s hs t ht hid
    obtain ⟨row, hrow, hrowId⟩ := List.mem_map.mp (hids s hs)
    obtain ⟨subnetId, hfound, -⟩ := attached_id hs
    obtain ⟨subnetId', hfound', -⟩ := attached_id ht
    have hsame := eq_of_id hstored hrow (available_some hfound).2.2 hrowId.symm
    have hsame' := eq_of_id hstored hrow (available_some hfound').2.2 (hid.symm.trans hrowId.symm)
    exact hsame.trans hsame'.symm
  · refine List.Nodup.filterMap ?_ (List.nodup_dedup _)
    intro subnetId subnetId' s hs hs'
    have hid := (available_some hs).1.symm.trans (available_some hs').1
    exact Option.some.inj hid

theorem founds_of_attachable {subnets : List Subnet} (h : ∀ s ∈ subnets, Attachable l region s) :
    ∃ founds : List Subnet, (subnetIds subnets).map (l.available region) = founds.map some ∧
      founds.map (·.id) = subnets.map (·.id) := by
  induction subnets with
  | nil => exact ⟨[], rfl, rfl⟩
  | cons s subnets ih =>
    obtain ⟨hs, hrest⟩ := List.forall_mem_cons.mp h
    obtain ⟨subnetId, found, hid, hfound, hsame⟩ := hs
    obtain ⟨founds, havailable, hids⟩ := ih hrest
    have hkept : s.subnetId.filter (· != "") = some subnetId := by
      rw [hid]
      exact if_pos (bne_iff_ne.mpr (available_some hfound).2.1)
    have hcons : subnetIds (s :: subnets) = subnetId :: subnetIds subnets := List.filterMap_cons_some hkept
    refine ⟨found :: founds, ?_, ?_⟩
    · rw [hcons, List.map_cons, hfound, List.map_cons, havailable]
    · rw [List.map_cons, List.map_cons, hsame, hids]

theorem attached_iff (hstored : Stored subnetRows e) :
    sameSubnets (attached l e) e.subnets = true ↔ ∀ s ∈ e.subnets, Attachable l e.region s := by
  constructor
  · intro h s hs
    have hperm := sameSubnets_perm (nodup_attached hstored h) h
    obtain ⟨found, hfound, hid⟩ := List.mem_map.mp (hperm.mem_iff.mpr (List.mem_map_of_mem hs))
    obtain ⟨subnetId, havailable, -⟩ := attached_id hfound
    have hsame := eq_of_id hstored hs (available_some havailable).2.2 hid
    refine ⟨subnetId, found, ?_, havailable, hid⟩
    rw [← hsame]
    exact (available_some havailable).1
  · intro h
    obtain ⟨founds, havailable, hids⟩ := founds_of_attachable h
    have hnodup : (subnetIds e.subnets).Nodup := by
      refine List.Nodup.of_map (l.available e.region) ?_
      rw [havailable]
      refine List.Nodup.map (Option.some_injective _) (List.Nodup.of_map (·.id) ?_)
      rw [hids]
      exact hstored.distinct
    have hattached : attached l e = founds := by
      have hmap : (subnetIds e.subnets).filterMap (l.available e.region) =
          ((subnetIds e.subnets).map (l.available e.region)).filterMap id := by
        rw [List.filterMap_map]
        rfl
      rw [attached, hnodup.dedup, hmap, havailable, List.filterMap_map]
      exact List.filterMap_some
    rw [hattached]
    have hlength := congrArg List.length hids
    rw [List.length_map, List.length_map] at hlength
    refine sameSubnets_iff.mpr ⟨hlength, fun s hs => ?_⟩
    rw [← hids]
    exact List.mem_map_of_mem hs

end Lists

section Pushing

variable {subnetRows : Table Subnet (·.id)} {lower : LowerCase} {l : Lookups subnetRows} {service : Service}
  {s : Sides} {c e : EndpointInterface} {eg : AwsVpcEndpoint} {vpcEndpointId region : String}

structure Shown (l : Lookups subnetRows) (s : Sides) (c : EndpointInterface) (eg : AwsVpcEndpoint) : Prop where
  stored : s.aws.get? (s.row.vpcEndpointId.getD "") = some eg
  listed : listed eg = true
  mapped : endpointInterfaceMapper l (s.row.vpcEndpointId.getD "") eg s.row.region = some c

theorem read_iff : (sync lower l service).read s = some c ↔ ∃ eg, Shown l s c eg := by
  change ((s.aws.get? (s.row.vpcEndpointId.getD "")).filter listed).bind (fun eg =>
    endpointInterfaceMapper l (s.row.vpcEndpointId.getD "") eg s.row.region) = some c ↔ _
  constructor
  · intro h
    obtain ⟨eg, hfiltered, hmapped⟩ := Option.bind_eq_some_iff.mp h
    obtain ⟨hstored, hlisted⟩ := Option.filter_eq_some_iff.mp hfiltered
    exact ⟨eg, hstored, hlisted, hmapped⟩
  · rintro ⟨eg, hstored, hlisted, hmapped⟩
    refine Option.bind_eq_some_iff.mpr ⟨eg, ?_, hmapped⟩
    exact Option.filter_eq_some_iff.mpr ⟨hstored, hlisted⟩

theorem mapper_iff : endpointInterfaceMapper l vpcEndpointId eg region = some c ↔
    (Aws.truthy eg.serviceName = true ∧ vpcEndpointId ≠ "") ∧ ∃ service vpc,
      getInterfaceServiceFromServiceName (eg.serviceName.getD "") = some service ∧
      l.vpc (eg.vpcId.getD "") region = some vpc ∧ c = mapped l vpcEndpointId eg region service vpc := by
  rw [endpointInterfaceMapper]
  split
  · next h =>
    refine iff_of_false nofun ?_
    rintro ⟨⟨htruthy, hne⟩, -⟩
    rw [htruthy] at h
    simp [hne] at h
  · next h =>
    simp only [Bool.or_eq_true, Bool.not_eq_true', decide_eq_true_eq, not_or, Bool.not_eq_false] at h
    rw [and_iff_right h]
    constructor
    · intro hmapped
      obtain ⟨service, hservice, hmap⟩ := Option.bind_eq_some_iff.mp hmapped
      obtain ⟨vpc, hvpc, rfl⟩ := Option.map_eq_some_iff.mp hmap
      exact ⟨service, vpc, hservice, hvpc, rfl⟩
    · rintro ⟨service, vpc, hservice, hvpc, rfl⟩
      rw [hservice, Option.bind_some, hvpc]
      rfl

-- nothing is to be pushed
def alike (lower : LowerCase) (c e : EndpointInterface) : Bool :=
  policiesAreSame lower c.policy e.policy && sameSubnets c.subnets e.subnets && Vpc.eqTags c.tags e.tags

-- the endpoint behind the requests
def pushed (lower : LowerCase) (service : Service) (c e : EndpointInterface) (eg : AwsVpcEndpoint) :
    AwsVpcEndpoint :=
  { eg with
    policyDocument := if policiesAreSame lower c.policy e.policy then eg.policyDocument
      else e.policy.or service.defaultPolicy
    subnetIds := if sameSubnets c.subnets e.subnets then eg.subnetIds
      else (modifySubnets (subnetIds c.subnets) (subnetIds e.subnets) eg).subnetIds
    tags := if Vpc.eqTags c.tags e.tags then eg.tags else e.tags.getD ∅ }

def cloudAfter (lower : LowerCase) (l : Lookups subnetRows) (service : Service) (c e : EndpointInterface)
    (eg : AwsVpcEndpoint) : EndpointInterface :=
  { c with
    policy := (pushed lower service c e eg).policyDocument
    subnets := (pushed lower service c e eg).subnetIds.filterMap (l.available e.region)
    tags := readTags (pushed lower service c e eg).tags }

theorem modify_run {f : AwsVpcEndpoint → AwsVpcEndpoint} (b : Bool) (h : s.aws.get? vpcEndpointId = some eg) :
    ∃ t, runIf b (modify vpcEndpointId f) s = (.returned (), t) ∧
      t.aws.get? vpcEndpointId = some (if b then f eg else eg) ∧ t.row = s.row := by
  cases b with
  | false => exact ⟨s, rfl, h, rfl⟩
  | true =>
    refine ⟨{ s with aws := s.aws.set vpcEndpointId (f eg) }, ?_, Dict.get?_set_self, rfl⟩
    simp only [runIf, if_true, modify, reads_bind_apply, h]
    rfl

-- the requests, one after the other
theorem push_run (lower : LowerCase) (service : Service) (c e : EndpointInterface)
    (h : s.aws.get? vpcEndpointId = some eg) :
    ∃ t, t.aws.get? vpcEndpointId = some (pushed lower service c e eg) ∧ t.row = s.row ∧
      ∀ k : Prog Sides Thrown Unit, (do
        runIf (!policiesAreSame lower c.policy e.policy) (modify vpcEndpointId (modifyPolicy service e.policy))
        runIf (!sameSubnets c.subnets e.subnets)
          (modify vpcEndpointId (modifySubnets (subnetIds c.subnets) (subnetIds e.subnets)))
        runIf (!Vpc.eqTags c.tags e.tags) (modify vpcEndpointId (recreateTags e.tags))
        k) s = k t := by
  obtain ⟨s₁, hpolicy, hstored₁, hrow₁⟩ :=
    @modify_run s eg vpcEndpointId (modifyPolicy service e.policy) (!policiesAreSame lower c.policy e.policy) h
  obtain ⟨s₂, hsubnets, hstored₂, hrow₂⟩ :=
    @modify_run s₁ _ vpcEndpointId (modifySubnets (subnetIds c.subnets) (subnetIds e.subnets))
      (!sameSubnets c.subnets e.subnets) hstored₁
  obtain ⟨s₃, htags, hstored₃, hrow₃⟩ :=
    @modify_run s₂ _ vpcEndpointId (recreateTags e.tags) (!Vpc.eqTags c.tags e.tags) hstored₂
  refine ⟨s₃, ?_, ?_, fun k => ?_⟩
  · rw [hstored₃, pushed]
    cases policiesAreSame lower c.policy e.policy <;> cases sameSubnets c.subnets e.subnets <;>
      cases Vpc.eqTags c.tags e.tags <;> rfl
  · rw [hrow₃, hrow₂, hrow₁]
  · rw [bind_of_returned hpolicy, bind_of_returned hsubnets, bind_of_returned htags]

def rowAfter (lower : LowerCase) (l : Lookups subnetRows) (service : Service) (c e : EndpointInterface)
    (eg : AwsVpcEndpoint) : EndpointInterface :=
  if alike lower c e then kept e c
  else if eg.state = some "available" then e
  else kept e (cloudAfter lower l service c e eg)

-- the pair behind an update that replaces nothing
theorem shown_kept (lower : LowerCase) (service : Service) (h : Shown l s c eg)
    (hreplaces : replaces c s.row = false) :
    Shown l ((sync lower l service).update c s) (cloudAfter lower l service c s.row eg)
        (pushed lower service c s.row eg) ∧
      ((sync lower l service).update c s).row = rowAfter lower l service c s.row eg := by
  obtain ⟨⟨htruthy, hne⟩, endpointService, vpc, hservice, hvpc, hc⟩ := mapper_iff.mp h.mapped
  obtain ⟨t, hstored, hrow, hrun⟩ := push_run lower service c s.row h.stored
  have hmapped : endpointInterfaceMapper l (s.row.vpcEndpointId.getD "") (pushed lower service c s.row eg)
      s.row.region = some (cloudAfter lower l service c s.row eg) :=
    mapper_iff.mpr ⟨⟨htruthy, hne⟩, endpointService, vpc, hservice, hvpc, by rw [hc]; rfl⟩
  have hread : getVpcEndpoint l (s.row.vpcEndpointId.getD "") s.row.region t =
      some (cloudAfter lower l service c s.row eg) := by
    rw [getVpcEndpoint, hstored]
    exact hmapped
  have hwaited : waitForEndpointAvailable (s.row.vpcEndpointId.getD "") t =
      decide (eg.state = some "available") := by
    rw [waitForEndpointAvailable, hstored]
    exact Bool.eq_iff_iff.mpr (beq_iff_eq.trans decide_eq_true_iff.symm)
  have hpush : (!policiesAreSame lower c.policy s.row.policy || !sameSubnets c.subnets s.row.subnets ||
      !Vpc.eqTags c.tags s.row.tags) = !alike lower c s.row := by
    rw [alike, Bool.not_and, Bool.not_and]
  have hupdate : (sync lower l service).update c s =
      { t with row := rowAfter lower l service c s.row eg } := by
    change (update lower l service c s.row s).2 = _
    rw [update, hreplaces]
    simp only [Bool.false_eq_true, if_false]
    rw [hrun, hpush, rowAfter]
    cases alike lower c s.row with
    | true => rfl
    | false =>
      simp only [Bool.not_false, if_true, Bool.false_eq_true, if_false, reads_bind_apply, hwaited,
        decide_eq_true_eq]
      split
      · exact congrArg (fun row => { t with row }) hrow
      · rw [reads_bind_apply, hread]
        rfl
  have hid : (rowAfter lower l service c s.row eg).vpcEndpointId.getD "" = s.row.vpcEndpointId.getD "" := by
    rw [rowAfter]
    split
    · rw [hc]
      rfl
    · split
      · rfl
      · rw [hc]
        rfl
  have hregion : (rowAfter lower l service c s.row eg).region = s.row.region := by
    rw [rowAfter]
    split
    · rw [hc]
      rfl
    · split
      · rfl
      · rw [hc]
        rfl
  rw [hupdate]
  refine ⟨⟨?_, h.listed, ?_⟩, rfl⟩
  · change t.aws.get? ((rowAfter lower l service c s.row eg).vpcEndpointId.getD "") = _
    rw [hid]
    exact hstored
  · change endpointInterfaceMapper l ((rowAfter lower l service c s.row eg).vpcEndpointId.getD "") _
      (rowAfter lower l service c s.row eg).region = _
    rw [hid, hregion]
    exact hmapped

end Pushing

section Aspects

variable {subnetRows : Table Subnet (·.id)} {lower : LowerCase} {l : Lookups subnetRows} {service : Service}
  {c e : EndpointInterface} {eg : AwsVpcEndpoint} {a b : Option (Dict String String)}

theorem eqTags_self (a : Option (Dict String String)) : Vpc.eqTags a a = true := by
  cases a with
  | none => rfl
  | some a => exact Dict.isEqualBy_self (fun v => beq_self_eq_true v) a

theorem eqTags_symm (h : Vpc.eqTags a b = true) : Vpc.eqTags b a = true := by
  cases a with
  | none =>
    cases b with
    | none => rfl
    | some b => cases h
  | some a =>
    cases b with
    | none => cases h
    | some b => exact isEqualBy_beq_iff.mpr fun key => (isEqualBy_beq_iff.mp h key).symm

theorem readTags_iff : Vpc.eqTags (readTags (a.getD ∅)) a = true ↔
    ∀ tags, a = some tags → tags ≠ ∅ ∧ ∀ key value, tags.get? key = some value → written key value = true := by
  cases a with
  | none => exact iff_of_true rfl fun tags hnone => by cases hnone
  | some tags =>
    rw [Option.getD_some, readTags]
    simp only [Option.some.injEq, forall_eq']
    split
    · next hempty => exact iff_of_false (fun hsame => by cases hsame) fun h => h.1 (Dict.entries_eq_nil.mp hempty)
    · next hne =>
      rw [and_iff_right (fun h => hne (Dict.entries_eq_nil.mpr h))]
      change Dict.isEqualBy (· == ·) (tags.filter written) tags = true ↔ _
      rw [isEqualBy_beq_iff]
      refine forall_congr' fun key => ?_
      rw [Dict.get?_filter]
      cases tags.get? key with
      | none => simp
      | some value => simp [Option.filter]

theorem policy_after (hc : c.policy = eg.policyDocument) :
    policiesAreSame lower (cloudAfter lower l service c e eg).policy e.policy = true ↔
      policiesAreSame lower c.policy e.policy = true ∨ e.policy.isSome = true ∨
        policiesAreSame lower service.defaultPolicy e.policy = true := by
  change policiesAreSame lower (if _ then _ else _) e.policy = true ↔ _
  split
  · next hsame =>
    rw [← hc]
    exact iff_of_true hsame (.inl hsame)
  · next hdiffers =>
    rw [or_iff_right hdiffers]
    cases e.policy with
    | none => simp
    | some policy => simp [policiesAreSame_equivalence.refl]

theorem subnets_after (hstored : Stored subnetRows e)
    (hc : c.subnets = eg.subnetIds.filterMap (l.available e.region)) :
    sameSubnets (cloudAfter lower l service c e eg).subnets e.subnets = true ↔
      sameSubnets c.subnets e.subnets = true ∨ ∀ s ∈ e.subnets, Attachable l e.region s := by
  change sameSubnets ((if _ then _ else _ : List String).filterMap _) e.subnets = true ↔ _
  split
  · next hsame =>
    rw [← hc]
    exact iff_of_true hsame (.inl hsame)
  · next hdiffers =>
    rw [or_iff_right hdiffers, subnets_modified hc]
    exact attached_iff hstored

theorem tags_after (hc : c.tags = readTags eg.tags) :
    Vpc.eqTags (cloudAfter lower l service c e eg).tags e.tags = true ↔ Vpc.eqTags c.tags e.tags = true ∨
      ∀ tags, e.tags = some tags → tags ≠ ∅ ∧ ∀ key value, tags.get? key = some value → written key value = true := by
  change Vpc.eqTags (readTags (if _ then _ else _)) e.tags = true ↔ _
  split
  · next hsame =>
    rw [← hc]
    exact iff_of_true hsame (.inl hsame)
  · next hdiffers =>
    rw [or_iff_right hdiffers]
    exact readTags_iff

-- what is read of an endpoint
structure Described (l : Lookups subnetRows) (e c : EndpointInterface) (eg : AwsVpcEndpoint) : Prop where
  policy : c.policy = eg.policyDocument
  subnets : c.subnets = eg.subnetIds.filterMap (l.available e.region)
  tags : c.tags = readTags eg.tags
  state : c.state = eg.state

theorem alike_after (hstored : Stored subnetRows e) (hc : Described l e c eg) :
    alike lower (cloudAfter lower l service c e eg) e = true ↔ Pushable lower l service e c := by
  rw [alike, Bool.and_eq_true, Bool.and_eq_true, policy_after hc.policy, subnets_after hstored hc.subnets,
    tags_after hc.tags]
  exact ⟨fun ⟨⟨hpolicy, hsubnets⟩, htags⟩ => ⟨hpolicy, hsubnets, htags⟩,
    fun h => ⟨⟨h.policy, h.subnets⟩, h.tags⟩⟩

-- what cannot be pushed now cannot be pushed then
theorem pushable_of_after (hstored : Stored subnetRows e) (hc : Described l e c eg)
    (h : Pushable lower l service e (cloudAfter lower l service c e eg)) : Pushable lower l service e c := by
  refine ⟨?_, ?_, ?_⟩
  · rcases h.policy with hsame | hpushed
    · exact (policy_after hc.policy).mp hsame
    · exact .inr hpushed
  · rcases h.subnets with hsame | hattached
    · exact (subnets_after hstored hc.subnets).mp hsame
    · exact .inr hattached
  · rcases h.tags with hsame | hwritten
    · exact (tags_after hc.tags).mp hsame
    · exact .inr hwritten

-- a difference that is compared is one that is pushed
theorem alike_of_equals (hstored : Stored subnetRows e) (h : equals lower e c = true) : alike lower c e = true := by
  have hcompared := equals_iff.mp h
  rw [alike, policiesAreSame_equivalence.symm hcompared.policy,
    sameSubnets_symm hstored.distinct hcompared.subnets, eqTags_symm hcompared.tags]
  rfl

theorem pushable_of_alike (h : alike lower c e = true) : Pushable lower l service e c := by
  rw [alike, Bool.and_eq_true, Bool.and_eq_true] at h
  exact ⟨.inl h.1.1, .inl h.1.2, .inl h.2⟩

-- a row that is saved is equal to its record where it has the same tags
theorem equals_kept (h : Vpc.eqTags (kept e c).tags c.tags = true) : equals lower (kept e c) c = true :=
  equals_iff.mpr {
    dnsNameRecordType := rfl
    policy := policiesAreSame_equivalence.refl _
    state := rfl
    vpcId := rfl
    subnets := sameSubnets_self _
    tags := h
    privateDnsEnabled := rfl }

end Aspects

section Replaced

variable {subnetRows : Table Subnet (·.id)} {lower : LowerCase} {l : Lookups subnetRows} {service : Service}
  {s : Sides} {c e : EndpointInterface} {eg : AwsVpcEndpoint}

theorem mapper_created {input : CreateVpcEndpoint} {vpcEndpointId : String} (hne : vpcEndpointId ≠ "")
    (hinput : createInput service.region e = some input) :
    (Created l service e ↔
      (endpointInterfaceMapper l vpcEndpointId (created service input) e.region).isSome = true) ∧
    ∀ n, endpointInterfaceMapper l vpcEndpointId (created service input) e.region = some n →
      n.vpcEndpointId = some vpcEndpointId ∧ n.region = e.region ∧
        n.tags = readTags ((e.tags.filter (·.entries ≠ [])).getD ∅) := by
  obtain ⟨serviceName, hname, rfl⟩ := Option.map_eq_some_iff.mp hinput
  have htruthy : Aws.truthy (some serviceName) = true := (Option.filter_eq_some_iff.mp hname).2
  constructor
  · constructor
    · rintro ⟨serviceName', hname', hservice, hvpc⟩
      obtain rfl := Option.some.inj (hname.symm.trans hname')
      obtain ⟨endpointService, hservice⟩ := Option.isSome_iff_exists.mp hservice
      obtain ⟨vpc, hvpc⟩ := Option.isSome_iff_exists.mp hvpc
      refine Option.isSome_iff_exists.mpr ⟨_, mapper_iff.mpr ⟨⟨htruthy, hne⟩, _, vpc, hservice, hvpc, rfl⟩⟩
    · intro h
      obtain ⟨n, hn⟩ := Option.isSome_iff_exists.mp h
      obtain ⟨-, endpointService, vpc, hservice, hvpc, -⟩ := mapper_iff.mp hn
      exact ⟨serviceName, hname, Option.isSome_iff_exists.mpr ⟨_, hservice⟩,
        Option.isSome_iff_exists.mpr ⟨_, hvpc⟩⟩
  · intro n hn
    obtain ⟨-, endpointService, vpc, -, -, rfl⟩ := mapper_iff.mp hn
    exact ⟨rfl, rfl, rfl⟩

theorem shown_id (h : Shown l s c eg) : c.vpcEndpointId = some (s.row.vpcEndpointId.getD "") ∧
    c.region = s.row.region := by
  obtain ⟨-, endpointService, vpc, -, -, rfl⟩ := mapper_iff.mp h.mapped
  exact ⟨rfl, rfl⟩

theorem create_run {input : CreateVpcEndpoint} (hinput : createInput service.region e = some input) :
    create l service e s = (.returned (),
      { aws := s.aws.set (service.newId s.aws) (created service input)
        row := (endpointInterfaceMapper l (service.newId s.aws) (created service input) e.region).elim s.row
          (kept e) }) := by
  have hstored : (s.aws.set (service.newId s.aws) (created service input)).get? (service.newId s.aws) =
      some (created service input) := Dict.get?_set_self
  rw [create, hinput]
  simp only [reads_bind_apply, writes_bind_apply, getVpcEndpoint, hstored, Option.bind_some]
  cases endpointInterfaceMapper l (service.newId s.aws) (created service input) e.region <;> rfl

-- a replaced endpoint is gone, whether or not there is a new one
theorem update_replaced (hreplaces : replaces c s.row = true) (h : Shown l s c eg) :
    (Created l service s.row → ∃ n eg', Shown l ((sync lower l service).update c s) n eg' ∧
      ((sync lower l service).update c s).row = kept s.row n ∧
      n.tags = readTags ((s.row.tags.filter (·.entries ≠ [])).getD ∅)) ∧
    (¬ Created l service s.row → ((sync lower l service).update c s).aws.get?
      (((sync lower l service).update c s).row.vpcEndpointId.getD "") = none) := by
  have hid : c.vpcEndpointId.getD "" = s.row.vpcEndpointId.getD "" := by rw [(shown_id h).1]; rfl
  have hrun : (sync lower l service).update c s = ((create l service s.row >>= fun _ => delete c) s).2 := by
    change (update lower l service c s.row s).2 = _
    rw [update, if_pos hreplaces]
  cases hinput : createInput service.region s.row with
  | none =>
    refine ⟨?_, fun _ => ?_⟩
    · rintro ⟨serviceName, hname, -⟩
      rw [createInput, hname] at hinput
      cases hinput
    · rw [hrun, create, hinput]
      change (s.aws.eraseAll [c.vpcEndpointId.getD ""]).get? (s.row.vpcEndpointId.getD "") = none
      rw [Dict.get?_eraseAll, hid, if_pos (List.mem_singleton_self _)]
  | some input =>
    obtain ⟨hcreated, hread⟩ := mapper_created (l := l) (service.newId_ne s.aws) hinput
    rw [hrun, bind_of_returned (create_run hinput), hcreated]
    cases hmapped : endpointInterfaceMapper l (service.newId s.aws) (created service input) s.row.region with
    | none =>
      refine ⟨(fun hcreated => by cases hcreated), fun _ => ?_⟩
      change ((s.aws.set _ _).eraseAll [c.vpcEndpointId.getD ""]).get? (s.row.vpcEndpointId.getD "") = none
      rw [Dict.get?_eraseAll, hid, if_pos (List.mem_singleton_self _)]
    | some n =>
      obtain ⟨hn, hregion, htags⟩ := hread n hmapped
      have hother : service.newId s.aws ≠ c.vpcEndpointId.getD "" := by
        intro heq
        have hstored := h.stored
        rw [← hid, ← heq, service.newId_fresh] at hstored
        cases hstored
      have hnewId : (kept s.row n).vpcEndpointId.getD "" = service.newId s.aws := by
        change n.vpcEndpointId.getD "" = _
        rw [hn]
        rfl
      refine ⟨fun _ => ⟨n, created service input, ⟨?_, rfl, ?_⟩, rfl, htags⟩, fun hnot => absurd rfl hnot⟩
      · change ((s.aws.set _ _).eraseAll [c.vpcEndpointId.getD ""]).get? ((kept s.row n).vpcEndpointId.getD "") = _
        rw [hnewId, Dict.get?_eraseAll, if_neg (by simpa using hother), Dict.get?_set_self]
      · change endpointInterfaceMapper l ((kept s.row n).vpcEndpointId.getD "") _ n.region = _
        rw [hnewId, hregion]
        exact hmapped

end Replaced

section Settle

variable {subnetRows : Table Subnet (·.id)} {lower : LowerCase} {l : Lookups subnetRows} {service : Service}
  {s : Sides} {c e : EndpointInterface} {eg : AwsVpcEndpoint}

theorem described_of_shown (h : Shown l s c eg) : Described l s.row c eg := by
  obtain ⟨-, endpointService, vpc, -, -, rfl⟩ := mapper_iff.mp h.mapped
  exact ⟨rfl, rfl, rfl, rfl⟩

theorem kept_tags_iff : Vpc.eqTags (kept e c).tags c.tags = true ↔ c.tags.isSome = true ∨ e.tags = none := by
  change Vpc.eqTags (c.tags.or e.tags) c.tags = true ↔ _
  cases c.tags with
  | none =>
    cases e.tags with
    | none => exact iff_of_true rfl (.inr rfl)
    | some tags => exact iff_of_false nofun (by simp)
  | some tags => exact iff_of_true (eqTags_self _) (.inl rfl)

-- only an empty object of tags is kept where AWS has none
theorem kept_tags_after (hc : c.tags = readTags eg.tags) :
    Vpc.eqTags (kept e (cloudAfter lower l service c e eg)).tags (cloudAfter lower l service c e eg).tags = true ↔
      Vpc.eqTags c.tags e.tags = true ∨ e.tags ≠ some ∅ := by
  rw [kept_tags_iff]
  change (readTags (if _ then _ else _)).isSome = true ∨ _ ↔ _
  split
  · next hsame =>
    rw [← hc]
    refine iff_of_true ?_ (.inl hsame)
    cases hcloud : c.tags with
    | some tags => exact .inl rfl
    | none =>
      rw [hcloud] at hsame
      cases hrow : e.tags with
      | none => exact .inr rfl
      | some tags =>
        rw [hrow] at hsame
        cases hsame
  · next hdiffers =>
    rw [or_iff_right hdiffers]
    cases e.tags with
    | none => simp
    | some tags =>
      rw [Option.getD_some, readTags]
      split
      · next hempty => simp [Dict.entries_eq_nil.mp hempty]
      · next hne => simpa [Dict.entries_eq_nil] using hne

-- nothing that an update does makes the two sides agree
inductive Apart (lower : LowerCase) (l : Lookups subnetRows) (service : Service) (s : Sides) : Prop where
  | unread (h : s.aws.get? (s.row.vpcEndpointId.getD "") = none)
  | unpushable (c : EndpointInterface) (eg : AwsVpcEndpoint) (h : Shown l s c eg)
      (hreplaces : replaces c s.row = false) (hstored : Stored subnetRows s.row)
      (havailable : eg.state = some "available") (hpush : ¬ Pushable lower l service s.row c)
  | untagged (c : EndpointInterface) (eg : AwsVpcEndpoint) (h : Shown l s c eg)
      (hreplaces : replaces c s.row = false) (htags : s.row.tags = some ∅)
      (hdiffers : Vpc.eqTags c.tags s.row.tags = false)

theorem replaces_kept : replaces c (kept e c) = false := by
  rw [replaces]
  change (!(c.vpcId == c.vpcId && c.service == c.service)) = false
  rw [beq_self_eq_true, beq_self_eq_true]
  rfl

theorem differs_of_apart (h : Apart lower l service s) :
    (sync lower l service).read s = none ∨ ∃ c, (sync lower l service).Differs s c := by
  cases h with
  | unread h =>
    left
    change ((s.aws.get? (s.row.vpcEndpointId.getD "")).filter listed).bind _ = none
    rw [h]
    rfl
  | unpushable c eg h hreplaces hstored havailable hpush =>
    refine .inr ⟨c, read_iff.mpr ⟨eg, h⟩, ?_⟩
    change equals lower s.row c = false
    rw [← Bool.not_eq_true]
    exact fun hequals => hpush (pushable_of_alike (alike_of_equals hstored hequals))
  | untagged c eg h hreplaces htags hdiffers =>
    refine .inr ⟨c, read_iff.mpr ⟨eg, h⟩, ?_⟩
    change equals lower s.row c = false
    rw [← Bool.not_eq_true]
    intro hequals
    rw [eqTags_symm (equals_iff.mp hequals).tags] at hdiffers
    cases hdiffers

theorem apart_update (h : Apart lower l service s) (hdiffers : (sync lower l service).Differs s c) :
    Apart lower l service ((sync lower l service).update c s) := by
  obtain ⟨eg, hshown⟩ := read_iff.mp hdiffers.read
  have hsame : ∀ {c' eg'}, Shown l s c' eg' → c' = c ∧ eg' = eg := by
    intro c' eg' h
    obtain rfl := Option.some.inj (h.stored.symm.trans hshown.stored)
    exact ⟨Option.some.inj (h.mapped.symm.trans hshown.mapped), rfl⟩
  cases h with
  | unread h =>
    rw [hshown.stored] at h
    cases h
  | unpushable c' eg' h hreplaces hstored havailable hpush =>
    obtain ⟨rfl, rfl⟩ := hsame h
    obtain ⟨hshown', hrow⟩ := shown_kept lower service h hreplaces
    have hunlike : ¬ alike lower c' s.row = true := fun halike => hpush (pushable_of_alike halike)
    rw [rowAfter, if_neg hunlike, if_pos havailable] at hrow
    refine .unpushable _ _ hshown' ?_ ?_ havailable ?_
    · rw [hrow]
      exact hreplaces
    · rw [hrow]
      exact hstored
    · rw [hrow]
      exact fun hpush' => hpush (pushable_of_after hstored (described_of_shown h) hpush')
  | untagged c' eg' h hreplaces htags hunequal =>
    obtain ⟨rfl, rfl⟩ := hsame h
    obtain ⟨hshown', hrow⟩ := shown_kept lower service h hreplaces
    have hunlike : ¬ alike lower c' s.row = true := by
      rw [alike, hunequal, Bool.and_false]
      exact Bool.false_ne_true
    have hcleared : (cloudAfter lower l service c' s.row eg').tags = none := by
      change readTags (if _ then _ else _) = none
      rw [hunequal, htags]
      rfl
    rw [rowAfter, if_neg hunlike] at hrow
    have hempty : ((sync lower l service).update c' s).row.tags = some ∅ := by
      rw [hrow]
      split
      · exact htags
      · change (cloudAfter lower l service c' s.row eg').tags.or s.row.tags = some ∅
        rw [hcleared, htags]
        rfl
    refine .untagged _ _ hshown' ?_ hempty ?_
    · rw [hrow]
      split
      · exact hreplaces
      · exact replaces_kept
    · rw [hempty, hcleared]
      rfl

theorem agreed_of_alike (h : Shown l s c eg) (hreplaces : replaces c s.row = false)
    (halike : alike lower c s.row = true) : (sync lower l service).Agreed ((sync lower l service).update c s) := by
  obtain ⟨hshown, hrow⟩ := shown_kept lower service h hreplaces
  have hc := described_of_shown h
  have hparts := halike
  rw [alike, Bool.and_eq_true, Bool.and_eq_true] at hparts
  obtain ⟨⟨hpolicy, hsubnets⟩, htags⟩ := hparts
  have hsame : cloudAfter lower l service c s.row eg = c := by
    simp only [cloudAfter, pushed, hpolicy, hsubnets, htags, if_true, ← hc.policy, ← hc.subnets, ← hc.tags]
  rw [hsame] at hshown
  rw [rowAfter, if_pos halike] at hrow
  refine ⟨c, read_iff.mpr ⟨_, hshown⟩, ?_⟩
  change equals lower ((sync lower l service).update c s).row c = true
  rw [hrow]
  refine equals_kept (kept_tags_iff.mpr ?_)
  cases hcloud : c.tags with
  | some tags => exact .inl rfl
  | none =>
    rw [hcloud] at htags
    cases hrow : s.row.tags with
    | none => exact .inr rfl
    | some tags =>
      rw [hrow] at htags
      cases htags

theorem settles_replaced_iff (h : (sync lower l service).Differs s c) (hshown : Shown l s c eg)
    (hreplaces : replaces c s.row = true) : (sync lower l service).Settles s ↔ Replaceable l service s.row := by
  have hapart : ∀ {t}, Apart lower l service t → ¬ (sync lower l service).Settles t :=
    Sync.not_settles (fun _ => differs_of_apart) fun _ _ => apart_update
  obtain ⟨hnew, hgone⟩ := @update_replaced subnetRows lower l service s c eg hreplaces hshown
  rw [Sync.settles_iff_of_differs h]
  by_cases hcreated : Created l service s.row
  · obtain ⟨n, eg', hshown', hrow, htags⟩ := hnew hcreated
    by_cases hempty : s.row.tags = some ∅
    · have hnone : n.tags = none := by
        rw [htags, hempty]
        rfl
      refine iff_of_false (hapart (.untagged n eg' hshown' ?_ ?_ ?_)) fun hreplace => hreplace.tags hempty
      · rw [hrow]
        exact replaces_kept
      · rw [hrow]
        change n.tags.or s.row.tags = some ∅
        rw [hnone, hempty]
        rfl
      · rw [hrow]
        change Vpc.eqTags n.tags (n.tags.or s.row.tags) = false
        rw [hnone, hempty]
        rfl
    · refine iff_of_true (Sync.settles_of_agreed ⟨n, read_iff.mpr ⟨eg', hshown'⟩, ?_⟩) ⟨hcreated, hempty⟩
      change equals lower ((sync lower l service).update c s).row n = true
      rw [hrow]
      refine equals_kept (kept_tags_iff.mpr ?_)
      rw [htags]
      cases htagged : s.row.tags with
      | none => exact .inr rfl
      | some tags =>
        have hset : tags.entries ≠ [] := by
          intro hnil
          rw [htagged, Dict.entries_eq_nil.mp hnil] at hempty
          exact hempty rfl
        have hfilter : (some tags).filter (·.entries ≠ []) = some tags := if_pos (decide_eq_true hset)
        rw [hfilter, Option.getD_some, readTags, if_neg hset]
        exact .inl rfl
  · exact iff_of_false (hapart (.unread (hgone hcreated))) fun hreplace => hcreated hreplace.created

-- an endpoint that is available is updated twice at most
theorem settles_iff (h : (sync lower l service).Differs s c) (hstored : Stored subnetRows s.row) :
    (sync lower l service).Settles s ↔ Reaches lower l service s.row c := by
  have hapart : Apart lower l service s → ¬ (sync lower l service).Settles s :=
    Sync.not_settles (fun _ => differs_of_apart) fun _ _ => apart_update
  obtain ⟨eg, hshown⟩ := read_iff.mp h.read
  have hc := described_of_shown hshown
  rw [Reaches]
  split
  · next hreplaces => exact settles_replaced_iff h hshown hreplaces
  · next hreplaces =>
    rw [Bool.not_eq_true] at hreplaces
    obtain ⟨hshown', hrow⟩ := shown_kept lower service hshown hreplaces
    split
    · next havailable =>
      rw [hc.state] at havailable
      constructor
      · intro hsettles
        by_contra hpush
        exact hapart (.unpushable c eg hshown hreplaces hstored havailable hpush) hsettles
      · intro hpush
        by_cases halike : alike lower c s.row = true
        · exact Sync.settles_of_update h (agreed_of_alike hshown hreplaces halike)
        · rw [rowAfter, if_neg halike, if_pos havailable] at hrow
          rw [Sync.settles_iff_of_differs h]
          have hread := @read_iff subnetRows lower l service _ _ |>.mpr ⟨_, hshown'⟩
          cases hequals : equals lower s.row (cloudAfter lower l service c s.row eg) with
          | true =>
            refine Sync.settles_of_agreed ⟨_, hread, ?_⟩
            change equals lower ((sync lower l service).update c s).row _ = true
            rw [hrow]
            exact hequals
          | false =>
            refine Sync.settles_of_update ⟨hread, ?_⟩ (agreed_of_alike hshown' ?_ ?_)
            · change equals lower ((sync lower l service).update c s).row _ = false
              rw [hrow]
              exact hequals
            · rw [hrow]
              exact hreplaces
            · rw [hrow]
              exact (alike_after hstored hc).mpr hpush
    · next hunavailable =>
      rw [hc.state] at hunavailable
      constructor
      · intro hsettles
        by_contra hcleared
        rw [not_or, Bool.not_eq_true, not_not] at hcleared
        exact hapart (.untagged c eg hshown hreplaces hcleared.2 hcleared.1) hsettles
      · intro hkept
        by_cases halike : alike lower c s.row = true
        · exact Sync.settles_of_update h (agreed_of_alike hshown hreplaces halike)
        · rw [rowAfter, if_neg halike, if_neg hunavailable] at hrow
          refine Sync.settles_of_update h ⟨_, read_iff.mpr ⟨_, hshown'⟩, ?_⟩
          change equals lower ((sync lower l service).update c s).row _ = true
          rw [hrow]
          exact equals_kept ((kept_tags_after hc.tags).mpr hkept)

end Settle

end Iasql.Endpoints
