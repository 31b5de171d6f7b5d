import Iasql.SecurityGroups

namespace Iasql.Subnets

open Program Prog Aws SecurityGroups

structure NetworkAcl where
  id : Option Nat := none
  networkAclId : Option String
  region : String
deriving DecidableEq

structure AvailabilityZone where
  name : String
  region : String
deriving DecidableEq

inductive SubnetState where
  | available | pending
deriving DecidableEq

structure Subnet where
  id : Option Nat := none
  availabilityZone : Option AvailabilityZone
  vpc : Option Vpc
  state : Option SubnetState := none
  availableIpAddressCount : Option Int := none
  cidrBlock : Option String := none
  subnetId : Option String := none
  ownerId : Option String := none
  subnetArn : Option String := none
  networkAcl : Option NetworkAcl := none
  region : String
deriving DecidableEq

def Subnet.networkAclId (e : Subnet) : Option String := e.networkAcl.bind (·.networkAclId)

def Subnet.zone (e : Subnet) : Option String := e.availabilityZone.map (·.name)

def Subnet.vpcId (e : Subnet) : Option String := e.vpc.bind (·.vpcId)

def Subnet.entityId (e : Subnet) : String :=
  if Aws.truthy e.subnetId && e.region != "" then generateId [e.subnetId.getD "", e.region]
  else (e.id.map toString).getD "undefined"

def equals (a b : Subnet) : Bool :=
  a.cidrBlock == b.cidrBlock && a.zone == b.zone && a.vpcId == b.vpcId && a.networkAclId == b.networkAclId

section Ec2

structure AwsSubnet where
  subnetId : Option String
  vpcId : Option String
  availabilityZone : Option String
  state : Option SubnetState := none
  availableIpAddressCount : Option Int := none
  cidrBlock : Option String := none
  ownerId : Option String := none
  subnetArn : Option String := none
deriving DecidableEq

structure NetworkAclAssociation where
  networkAclAssociationId : String
  networkAclId : Option String
  subnetId : Option String
deriving DecidableEq

structure AwsNetworkAcl where
  networkAclId : Option String
  vpcId : Option String
  isDefault : Bool
  associations : List NetworkAclAssociation := []
deriving DecidableEq

-- what the client of a region has, in the order it is listed in
structure Ec2 where
  subnets : List AwsSubnet
  networkAcls : List AwsNetworkAcl

variable (ec2 : Ec2)

def getSubnet (id : Option String) : Option AwsSubnet := ec2.subnets.find? (·.subnetId == id)

def getNetworkAcl (aclId : Option String) : Option AwsNetworkAcl :=
  (ec2.networkAcls.filter (·.networkAclId == aclId)).getLast?

def getNetworkAclBySubnet (subnetId : Option String) : Option AwsNetworkAcl :=
  (ec2.networkAcls.filter fun acl => acl.associations.any (·.subnetId == subnetId)).getLast?

def getNetworkAclForVpc (vpcId : Option String) : Option AwsNetworkAcl :=
  (ec2.networkAcls.filter (·.vpcId == vpcId)).getLast?

def getAssociation (subnetId : Option String) : Option NetworkAclAssociation :=
  (getNetworkAclBySubnet ec2 subnetId).bind fun acl =>
    acl.associations.find? fun association =>
      association.subnetId == subnetId && Aws.truthy association.networkAclId

def AwsNetworkAcl.reassociate (association : NetworkAclAssociation) (newId : String)
    (aclId : Option String) (acl : AwsNetworkAcl) : AwsNetworkAcl :=
  { acl with
    associations := (acl.associations.filter fun a =>
        a.networkAclAssociationId != association.networkAclAssociationId) ++
      if acl.networkAclId = aclId then [⟨newId, aclId, association.subnetId⟩] else [] }

-- the subnet of an association is taken to another network ACL, under an id of its own
def Ec2.associate (association : NetworkAclAssociation) (newId : String) (aclId : Option String) : Ec2 :=
  { ec2 with networkAcls := ec2.networkAcls.map (AwsNetworkAcl.reassociate association newId aclId) }

end Ec2

-- the records of the database, or else of the cloud, and the network ACLs of the database
structure Known where
  enabledRegions : List String
  availabilityZone : String → String → Option AvailabilityZone
  vpc : String → String → Option Vpc
  networkAcl : String → String → Option NetworkAcl

structure CreateSubnet where
  availabilityZone : String
  vpcId : String
  cidrBlock : Option String

-- how AWS makes a subnet, and the id of an association that replaces another
structure Service where
  createSubnet : Ec2 → CreateSubnet → Except Thrown (Option String × Ec2)
  newAssociationId : Ec2 → String

-- the client of the region, ctx.memo.cloud.Subnet and the records saved to the database
structure State where
  ec2 : Ec2
  memo : Dict String Subnet := ∅
  saved : List Subnet := []

section Mapper

variable (known : Known) (ec2 : Ec2)

-- networkAcl.db.read, or else networkAcl.cloud.read
def readNetworkAcl (aclId region : String) : Option NetworkAcl :=
  (known.networkAcl aclId region).or ((getNetworkAcl ec2 (some aclId)).bind fun rawAcl =>
    if rawAcl.isDefault || !Aws.truthy rawAcl.networkAclId then none
    else some { networkAclId := rawAcl.networkAclId, region })

-- the default one is set to null
def mappedAcl (subnetId : Option String) (region : String) : Option NetworkAcl :=
  (getAssociation ec2 subnetId).bind fun association =>
    if (getNetworkAcl ec2 association.networkAclId).any (·.isDefault) then none
    else readNetworkAcl known ec2 (association.networkAclId.getD "") region

def subnetMapper (sn : AwsSubnet) (region : String) : Except Thrown (Option Subnet) :=
  if !Aws.truthy sn.subnetId || !Aws.truthy sn.vpcId || !Aws.truthy sn.availabilityZone then .ok none
  else
    match known.vpc (sn.vpcId.getD "") region with
    | none => .error (.error ("Waiting for VPC " ++ sn.vpcId.getD ""))
    | some vpc => .ok (some
        { availabilityZone := known.availabilityZone (sn.availabilityZone.getD "") region
          vpc := some vpc
          state := sn.state
          availableIpAddressCount := sn.availableIpAddressCount
          cidrBlock := sn.cidrBlock
          subnetId := sn.subnetId
          ownerId := sn.ownerId
          subnetArn := sn.subnetArn
          networkAcl := mappedAcl known ec2 sn.subnetId region
          region })

-- cloud.read of one subnet, whose id holds no other separator
def readSubnet (subnetId : Option String) (region : String) : Except Thrown (Option Subnet) :=
  if region ∈ known.enabledRegions then
    match getSubnet ec2 subnetId with
    | none => .ok none
    | some rawSubnet => subnetMapper known ec2 rawSubnet region
  else .ok none

end Mapper

section Update

variable (known : Known) (service : Service)

def given (read : Except Thrown (Option Subnet)) : Prog State Thrown (Option Subnet) :=
  match read with
  | .ok subnet => pure subnet
  | .error err => fail err

def mapSubnet (subnetId : Option String) (region : String) : Prog State Thrown (Option Subnet) := do
  match ← reads fun s : State => getSubnet s.ec2 subnetId with
  | none => return none
  | some rawSubnet => do
    let mapped ← reads fun s : State => subnetMapper known s.ec2 rawSubnet region
    given mapped

def replaceNetworkAclAssociation (association : NetworkAclAssociation) (aclId : Option String) :
    Prog State Thrown Unit := do
  let ec2 ← reads State.ec2
  match getNetworkAcl ec2 aclId with
  | none => fail (.error "InvalidNetworkAclID.NotFound")
  | some _ =>
    writes fun s => { s with ec2 := ec2.associate association (service.newAssociationId ec2) aclId }

def memo (e : Subnet) (s : State) : State := { s with memo := s.memo.set e.entityId e }

def unmemo (e : Subnet) (s : State) : State := { s with memo := s.memo.eraseAll [e.entityId] }

def save (e : Subnet) (s : State) : State := { s with saved := s.saved ++ [e] }

def undefinedRead (property : String) : Thrown :=
  .error ("Cannot read properties of undefined (reading '" ++ property ++ "')")

def failedSubnet : Thrown := .error "Failed to create subnet"

-- the new subnet is taken to the network ACL of e
def associateNew (e newSubnet : Subnet) : Prog State Thrown (Option Subnet) := do
  if Aws.truthy e.networkAclId && Aws.truthy newSubnet.subnetId then
    match ← reads fun s : State => getAssociation s.ec2 newSubnet.subnetId with
    | none => return some newSubnet
    | some association => do
      replaceNetworkAclAssociation service association e.networkAclId
      writes (unmemo e)
      mapSubnet known newSubnet.subnetId e.region
  else return some newSubnet

def createOne (e : Subnet) : Prog State Thrown (Option Subnet) :=
  match e.vpc, e.zone with
  | none, _ => fail (undefinedRead "vpcId")
  | some vpc, zone =>
    if !Aws.truthy vpc.vpcId then return none
    else
      match zone with
      | none => fail (undefinedRead "name")
      | some zone => do
        let ec2 ← reads State.ec2
        match service.createSubnet ec2 ⟨zone, vpc.vpcId.getD "", e.cidrBlock.filter (· != "")⟩ with
        | .error err => fail err
        | .ok (none, _) => fail failedSubnet
        | .ok (some subnetId, ec2') => do
          writes fun s => { s with ec2 := ec2' }
          match ← mapSubnet known (some subnetId) e.region with
          | none => return none
          | some newSubnet =>
            match ← associateNew known service e newSubnet with
            | none => return none
            | some newSubnet => do
              let newSubnet := { newSubnet with id := e.id, region := e.region }
              writes (save newSubnet)
              return some newSubnet

-- subnet.cloud.create
def cloudCreate (e : Subnet) : Prog State Thrown (Option Subnet) := do
  writes (memo e)
  match ← attempt (createOne known service e) with
  | .ok newSubnet => do
    writes fun s => newSubnet.elim s fun newSubnet => memo newSubnet s
    return newSubnet
  | .error err => do
    writes (unmemo e)
    fail err

def readRecord (e : Subnet) : Prog State Thrown (Option Subnet) := do
  match ← reads fun s : State => s.memo.get? e.entityId with
  | some cloudRecord => return some cloudRecord
  | none => do
    let record ← reads fun s : State => readSubnet known s.ec2 e.subnetId e.region
    given record

-- only the network ACL is not the same
def onlyAclChanged (e : Subnet) (cloudRecord : Subnet) : Bool :=
  e.networkAclId != cloudRecord.networkAclId && e.cidrBlock == cloudRecord.cidrBlock &&
    e.zone == cloudRecord.zone && e.vpcId == cloudRecord.vpcId

def newAcl (ec2 : Ec2) (e : Subnet) : Option String :=
  if !Aws.truthy e.networkAclId && Aws.truthy e.subnetId then
    (getNetworkAclForVpc ec2 e.vpcId).bind (·.networkAclId)
  else e.networkAclId

def replaceAcl (e : Subnet) : Prog State Thrown (Option Unit) := do
  let acl ← reads fun s : State => newAcl s.ec2 e
  match ← reads fun s : State => getAssociation s.ec2 e.subnetId with
  | none => return none
  | some association =>
    if Aws.truthy acl then do
      replaceNetworkAclAssociation service association acl
      writes (unmemo e)
      match ← mapSubnet known e.subnetId e.region with
      | none => return none
      | some newSubnet => do
        writes (save { newSubnet with id := e.id })
        return none
    else return none

-- a new subnet is made, and the next turn deletes the old one
def recreate (cloudRecord e : Subnet) : Prog State Thrown (Option Unit) := do
  let e := if cloudRecord.vpcId != e.vpcId then { e with vpc := cloudRecord.vpc, networkAcl := none } else e
  match ← cloudCreate known service e with
  | none => return none
  | some newSubnet =>
    match ← mapSubnet known newSubnet.subnetId e.region with
    | none => return none
    | some newSubnet => do
      writes (save { newSubnet with id := e.id, region := e.region })
      return none

def noCloudRecord (e : Subnet) : Thrown :=
  undefinedRead (if e.networkAclId.isSome then "cidrBlock" else if e.vpcId.isSome then "vpc" else "vpcId")

def updateOne (e : Subnet) : Prog State Thrown (Option Unit) := do
  match ← readRecord known e with
  | none => fail (noCloudRecord e)
  | some cloudRecord =>
    if onlyAclChanged e cloudRecord then replaceAcl known service e
    else recreate known service cloudRecord e

def update (es : List Subnet) : Prog State Thrown Unit := do
  let _ ← forOf (updateOne known service) es

end Update

section Associations

variable {ec2 : Ec2} {acl acl' : AwsNetworkAcl} {a b : NetworkAclAssociation} {subnetId : Option String}

theorem getLast?_of_forall {α : Type} {x : α} {xs : List α} (hx : x ∈ xs) (h : ∀ y ∈ xs, y = x) :
    xs.getLast? = some x := by
  have hne : xs ≠ [] := List.ne_nil_of_mem hx
  rw [List.getLast?_eq_some_getLast hne, h _ (List.getLast_mem hne)]

def Holds (ec2 : Ec2) (subnetId : Option String) (acl : AwsNetworkAcl) (a : NetworkAclAssociation) : Prop :=
  acl ∈ ec2.networkAcls ∧ a ∈ acl.associations ∧ a.subnetId = subnetId

-- each network ACL has an id of its own, and each subnet is on one of them
structure WellFormed (ec2 : Ec2) : Prop where
  ids : ∀ acl ∈ ec2.networkAcls, Aws.truthy acl.networkAclId = true
  apart : ∀ acl ∈ ec2.networkAcls, ∀ acl' ∈ ec2.networkAcls, acl.networkAclId = acl'.networkAclId → acl = acl'
  associated : ∀ subnetId acl a, Holds ec2 subnetId acl a → a.networkAclId = acl.networkAclId
  once : ∀ subnetId acl a acl' b, Holds ec2 subnetId acl a → Holds ec2 subnetId acl' b → acl = acl' ∧ a = b

theorem getNetworkAcl_of_mem (h : WellFormed ec2) (hacl : acl ∈ ec2.networkAcls) :
    getNetworkAcl ec2 acl.networkAclId = some acl := by
  refine getLast?_of_forall (List.mem_filter.mpr ⟨hacl, beq_self_eq_true _⟩) fun acl' hacl' => ?_
  obtain ⟨hmem, hid⟩ := List.mem_filter.mp hacl'
  exact h.apart acl' hmem acl hacl (beq_iff_eq.mp hid)

theorem holds_of_getAssociation (h : getAssociation ec2 subnetId = some a) :
    ∃ acl, Holds ec2 subnetId acl a ∧ Aws.truthy a.networkAclId = true := by
  obtain ⟨acl, hacl, hfind⟩ := Option.bind_eq_some_iff.mp h
  have hmem := (List.mem_filter.mp (List.mem_of_getLast? hacl)).1
  have hfound := List.find?_some hfind
  obtain ⟨hsubnet, htruthy⟩ := (Bool.and_eq_true _ _).mp hfound
  exact ⟨acl, ⟨hmem, List.mem_of_find?_eq_some hfind, beq_iff_eq.mp hsubnet⟩, htruthy⟩

theorem getAssociation_of_holds (h : WellFormed ec2) (hholds : Holds ec2 subnetId acl a) :
    getAssociation ec2 subnetId = some a := by
  have ⟨hacl, ha, hsubnet⟩ := hholds
  have hlast : getNetworkAclBySubnet ec2 subnetId = some acl := by
    refine getLast?_of_forall (List.mem_filter.mpr ⟨hacl, ?_⟩) fun acl' hacl' => ?_
    · exact List.any_eq_true.mpr ⟨a, ha, beq_iff_eq.mpr hsubnet⟩
    · obtain ⟨hmem, hany⟩ := List.mem_filter.mp hacl'
      obtain ⟨b, hb, hsubnet'⟩ := List.any_eq_true.mp hany
      exact (h.once _ _ _ _ _ ⟨hmem, hb, beq_iff_eq.mp hsubnet'⟩ hholds).1
  rw [getAssociation, hlast, Option.bind_some]
  have htruthy : Aws.truthy a.networkAclId = true := by
    rw [h.associated _ _ _ hholds]
    exact h.ids acl hacl
  have hsome : (acl.associations.find? fun association =>
      association.subnetId == subnetId && Aws.truthy association.networkAclId).isSome :=
    List.find?_isSome.mpr ⟨a, ha, (Bool.and_eq_true _ _).mpr ⟨beq_iff_eq.mpr hsubnet, htruthy⟩⟩
  obtain ⟨b, hb⟩ := Option.isSome_iff_exists.mp hsome
  have hfound := List.find?_some hb
  have hsubnet' := ((Bool.and_eq_true _ _).mp hfound).1
  have hsame := h.once _ _ _ _ _ ⟨hacl, List.mem_of_find?_eq_some hb, beq_iff_eq.mp hsubnet'⟩ hholds
  rw [hb, hsame.2]

variable {newId : String} {aclId : Option String}

theorem mem_reassociate : b ∈ (acl.reassociate a newId aclId).associations ↔
    b ∈ acl.associations ∧ b.networkAclAssociationId ≠ a.networkAclAssociationId ∨
      acl.networkAclId = aclId ∧ b = ⟨newId, aclId, a.subnetId⟩ := by
  rw [AwsNetworkAcl.reassociate, List.mem_append, List.mem_filter, bne_iff_ne]
  refine or_congr_right ?_
  by_cases h : acl.networkAclId = aclId
  · simp [h]
  · simp [h]

theorem holds_associate : Holds (ec2.associate a newId aclId) subnetId acl b ↔
    ∃ old ∈ ec2.networkAcls, acl = old.reassociate a newId aclId ∧ b.subnetId = subnetId ∧
      (b ∈ old.associations ∧ b.networkAclAssociationId ≠ a.networkAclAssociationId ∨
        old.networkAclId = aclId ∧ b = ⟨newId, aclId, a.subnetId⟩) := by
  rw [Holds, Ec2.associate, List.mem_map]
  constructor
  · rintro ⟨⟨old, hold, rfl⟩, hb, hsubnet⟩
    exact ⟨old, hold, rfl, hsubnet, mem_reassociate.mp hb⟩
  · rintro ⟨old, hold, rfl, hsubnet, hb⟩
    exact ⟨⟨old, hold, rfl⟩, mem_reassociate.mpr hb, hsubnet⟩

-- nothing else of the subnet is left
theorem moved_of_holds (h : WellFormed ec2) (hholds : Holds ec2 subnetId acl a)
    (hb : Holds (ec2.associate a newId aclId) subnetId acl' b) :
    ∃ old ∈ ec2.networkAcls, acl' = old.reassociate a newId aclId ∧ old.networkAclId = aclId ∧
      b = ⟨newId, aclId, a.subnetId⟩ := by
  obtain ⟨old, hold, heq, hsubnet, ⟨hmem, hne⟩ | ⟨hid, hnew⟩⟩ := holds_associate.mp hb
  · exact absurd (congrArg _ (h.once _ _ _ _ _ ⟨hold, hmem, hsubnet⟩ hholds).2) hne
  · exact ⟨old, hold, heq, hid, hnew⟩

theorem WellFormed.associate (h : WellFormed ec2) (hholds : Holds ec2 subnetId acl a) :
    WellFormed (ec2.associate a newId aclId) := by
  refine ⟨fun x hx => ?_, fun x hx y hy hid => ?_, fun sid x b hb => ?_, fun sid x b y c hb hc => ?_⟩
  · obtain ⟨old, hold, rfl⟩ := List.mem_map.mp hx
    exact h.ids old hold
  · obtain ⟨old, hold, rfl⟩ := List.mem_map.mp hx
    obtain ⟨old', hold', rfl⟩ := List.mem_map.mp hy
    rw [h.apart old hold old' hold' hid]
  · obtain ⟨old, hold, rfl, hsubnet, ⟨hmem, -⟩ | ⟨hid, rfl⟩⟩ := holds_associate.mp hb
    · exact h.associated sid old b ⟨hold, hmem, hsubnet⟩
    · exact hid.symm
  · by_cases hsid : sid = subnetId
    · subst hsid
      obtain ⟨old, hold, rfl, hid, rfl⟩ := moved_of_holds h hholds hb
      obtain ⟨old', hold', rfl, hid', rfl⟩ := moved_of_holds h hholds hc
      rw [h.apart old hold old' hold' (hid.trans hid'.symm)]
      exact ⟨rfl, rfl⟩
    · have hother : ∀ {x b}, Holds (ec2.associate a newId aclId) sid x b →
          ∃ old, Holds ec2 sid old b ∧ x = old.reassociate a newId aclId := by
        intro x b hx
        obtain ⟨old, hold, rfl, hsubnet, ⟨hmem, -⟩ | ⟨-, rfl⟩⟩ := holds_associate.mp hx
        · exact ⟨old, ⟨hold, hmem, hsubnet⟩, rfl⟩
        · exact absurd (hsubnet.symm.trans hholds.2.2) hsid
      obtain ⟨old, hold, rfl⟩ := hother hb
      obtain ⟨old', hold', rfl⟩ := hother hc
      obtain ⟨rfl, rfl⟩ := h.once _ _ _ _ _ hold hold'
      exact ⟨rfl, rfl⟩

end Associations

section Clearing

variable {known : Known} {service : Service} {s : State} {e c : Subnet} {ec2 ec2' : Ec2}
  {subnetId : Option String} {region : String}

theorem readSubnet_some (h : readSubnet known ec2 subnetId region = .ok (some c)) :
    ∃ rawSubnet, getSubnet ec2 subnetId = some rawSubnet ∧
      subnetMapper known ec2 rawSubnet region = .ok (some c) := by
  rw [readSubnet] at h
  split at h
  · cases hraw : getSubnet ec2 subnetId with
    | none => rw [hraw] at h; cases h
    | some rawSubnet => rw [hraw] at h; exact ⟨rawSubnet, rfl, h⟩
  · cases h

theorem subnetMapper_some {sn : AwsSubnet} (h : subnetMapper known ec2 sn region = .ok (some c)) :
    c.subnetId = sn.subnetId ∧ Aws.truthy sn.subnetId = true ∧ c.region = region ∧
      c.networkAcl = mappedAcl known ec2 sn.subnetId region ∧
      ∀ ec2', subnetMapper known ec2' sn region =
        .ok (some { c with networkAcl := mappedAcl known ec2' sn.subnetId region }) := by
  unfold subnetMapper at h ⊢
  split at h
  · cases h
  · next htruthy =>
    have hsubnet : Aws.truthy sn.subnetId = true := by
      simp only [Bool.or_eq_true, Bool.not_eq_true', not_or, Bool.not_eq_false] at htruthy
      exact htruthy.1.1
    cases hvpc : known.vpc (sn.vpcId.getD "") region with
    | none => rw [hvpc] at h; cases h
    | some vpc =>
      rw [hvpc] at h
      cases h
      exact ⟨rfl, hsubnet, rfl, rfl, fun _ => by rw [if_neg htruthy]⟩

theorem getSubnet_subnetId {sn : AwsSubnet} (h : getSubnet ec2 subnetId = some sn) :
    sn.subnetId = subnetId := by
  have hfound := List.find?_some h
  exact beq_iff_eq.mp hfound

theorem readSubnet_subnetId (h : readSubnet known ec2 subnetId region = .ok (some c)) :
    c.subnetId = subnetId ∧ Aws.truthy subnetId = true ∧ c.region = region ∧
      c.networkAcl = mappedAcl known ec2 subnetId region := by
  obtain ⟨rawSubnet, hraw, hmapped⟩ := readSubnet_some h
  obtain ⟨hid, htruthy, hregion, hacl, -⟩ := subnetMapper_some hmapped
  have hsubnet := getSubnet_subnetId hraw
  rw [hsubnet] at hid htruthy hacl
  exact ⟨hid, htruthy, hregion, hacl⟩

-- where the subnets are the same, a read gives the same but for the network ACL
theorem readSubnet_of_subnets (h : readSubnet known ec2 subnetId region = .ok (some c))
    (hsubnets : ec2'.subnets = ec2.subnets) :
    readSubnet known ec2' subnetId region =
      .ok (some { c with networkAcl := mappedAcl known ec2' subnetId region }) := by
  obtain ⟨rawSubnet, hraw, hmapped⟩ := readSubnet_some h
  have hraw' : getSubnet ec2' subnetId = some rawSubnet := by rw [getSubnet, hsubnets]; exact hraw
  have henabled : region ∈ known.enabledRegions := by
    by_contra hnot
    rw [readSubnet, if_neg hnot] at h
    cases h
  rw [readSubnet, if_pos henabled, hraw']
  dsimp only
  rw [(subnetMapper_some hmapped).2.2.2.2 ec2', getSubnet_subnetId hraw]

theorem mapSubnet_apply (h : readSubnet known s.ec2 subnetId region = .ok (some c)) :
    mapSubnet known subnetId region s = (.returned (some c), s) := by
  obtain ⟨rawSubnet, hraw, hmapped⟩ := readSubnet_some h
  simp only [mapSubnet, reads_bind_apply, hraw, hmapped, given]
  rfl

-- the record e of the database is the record c of the cloud, but has no network ACL any more
structure Cleared (known : Known) (s : State) (e c : Subnet) : Prop where
  memoised : ∀ record, s.memo.get? e.entityId = some record → record = c
  read : readSubnet known s.ec2 e.subnetId e.region = .ok (some c)
  had : c.networkAclId ≠ none
  same : e = { c with id := e.id, networkAcl := none }

structure OnDefault (known : Known) (ec2 : Ec2) (e : Subnet) : Prop where
  associated : ∃ acl a, Holds ec2 e.subnetId acl a ∧ acl.vpcId = e.vpcId ∧ acl.isDefault = true
  settled : ∃ r, readSubnet known ec2 e.subnetId e.region = .ok (some r) ∧ r.networkAcl = none ∧
    equals e r = true

def RestoresDefault (known : Known) (service : Service) (s : State) (e : Subnet) : Prop :=
  ∃ t, update known service [e] s = (.returned (), t) ∧ OnDefault known t.ec2 e

theorem updateOne_cleared (h : Cleared known s e c) :
    updateOne known service e s = replaceAcl known service e s := by
  have hrecord : readRecord known e s = (.returned (some c), s) := by
    simp only [readRecord, reads_bind_apply]
    cases hmemo : s.memo.get? e.entityId with
    | none => simp only [reads_bind_apply, h.read, given]; rfl
    | some record => simp only [h.memoised record hmemo]; rfl
  have hchanged : onlyAclChanged e c = true := by
    rw [h.same, onlyAclChanged]
    cases hc : c.networkAclId with
    | none => exact absurd hc h.had
    | some aclId => simp [Subnet.networkAclId, Subnet.zone, Subnet.vpcId]
  rw [updateOne, bind_of_returned hrecord]
  dsimp only
  rw [if_pos hchanged]

-- the subnet is on a network ACL of its own, which is none of the default ones
theorem Cleared.associated (h : Cleared known s e c) (hw : WellFormed s.ec2) :
    ∃ acl a, Holds s.ec2 e.subnetId acl a ∧ acl.isDefault = false := by
  have hacl : mappedAcl known s.ec2 e.subnetId e.region ≠ none := by
    rw [← (readSubnet_subnetId h.read).2.2.2]
    exact fun hnone => h.had (by rw [Subnet.networkAclId, hnone, Option.bind_none])
  obtain ⟨mapped, hmapped⟩ := Option.ne_none_iff_exists'.mp hacl
  obtain ⟨a, ha, hrest⟩ := Option.bind_eq_some_iff.mp hmapped
  obtain ⟨acl, hholds, -⟩ := holds_of_getAssociation ha
  refine ⟨acl, a, hholds, ?_⟩
  rw [hw.associated _ _ _ hholds, getNetworkAcl_of_mem hw hholds.1] at hrest
  cases hdefault : acl.isDefault with
  | false => rfl
  | true => simp [hdefault] at hrest

theorem newAcl_cleared (h : Cleared known s e c) :
    newAcl s.ec2 e = (getNetworkAclForVpc s.ec2 e.vpcId).bind (·.networkAclId) := by
  have hnone : e.networkAclId = none := by
    rw [h.same]
    rfl
  rw [newAcl, hnone, (readSubnet_subnetId h.read).2.1]
  rfl

theorem replaceAcl_none (h : Cleared known s e c) (hw : WellFormed s.ec2)
    (hlast : getNetworkAclForVpc s.ec2 e.vpcId = none) :
    replaceAcl known service e s = (.returned none, s) := by
  obtain ⟨acl, a, hholds, -⟩ := h.associated hw
  have hnew : newAcl s.ec2 e = none := by rw [newAcl_cleared h, hlast, Option.bind_none]
  simp only [replaceAcl, reads_bind_apply, hnew, getAssociation_of_holds hw hholds]
  rfl

-- the subnet is taken to the last network ACL of the VPC
theorem replaceAcl_some {last acl : AwsNetworkAcl} {a : NetworkAclAssociation}
    (h : Cleared known s e c) (hw : WellFormed s.ec2)
    (hholds : Holds s.ec2 e.subnetId acl a) (hlast : getNetworkAclForVpc s.ec2 e.vpcId = some last) :
    ∃ t, replaceAcl known service e s = (.returned none, t) ∧
      t.ec2 = s.ec2.associate a (service.newAssociationId s.ec2) last.networkAclId := by
  have hmem : last ∈ s.ec2.networkAcls := (List.mem_filter.mp (List.mem_of_getLast? hlast)).1
  have hnew : newAcl s.ec2 e = last.networkAclId := by rw [newAcl_cleared h, hlast, Option.bind_some]
  have hreplace : ∀ u : State, u.ec2 = s.ec2 →
      replaceNetworkAclAssociation service a last.networkAclId u = (.returned (), { u with
        ec2 := s.ec2.associate a (service.newAssociationId s.ec2) last.networkAclId }) := by
    intro u hu
    simp only [replaceNetworkAclAssociation, reads_bind_apply, hu, getNetworkAcl_of_mem hw hmem]
    rfl
  simp only [replaceAcl, reads_bind_apply, hnew, getAssociation_of_holds hw hholds, hw.ids last hmem,
    if_true]
  rw [bind_of_returned (hreplace s rfl), writes_bind_apply]
  have hread := @readSubnet_of_subnets known c s.ec2
    (s.ec2.associate a (service.newAssociationId s.ec2) last.networkAclId) _ _ h.read rfl
  have hmap := @mapSubnet_apply known (unmemo e { s with
    ec2 := s.ec2.associate a (service.newAssociationId s.ec2) last.networkAclId }) _ _ _ hread
  rw [bind_of_returned hmap]
  exact ⟨_, rfl, rfl⟩

theorem update_one {t : State} (h : Cleared known s e c)
    (hrun : replaceAcl known service e s = (.returned none, t)) :
    update known service [e] s = (.returned (), t) := by
  rw [← updateOne_cleared h] at hrun
  rw [update, bind_of_returned (forOf_next hrun)]
  rfl

theorem getNetworkAclForVpc_some {last : AwsNetworkAcl} (h : getNetworkAclForVpc ec2 (e.vpcId) = some last) :
    last ∈ ec2.networkAcls ∧ last.vpcId = e.vpcId := by
  obtain ⟨hmem, hvpc⟩ := List.mem_filter.mp (List.mem_of_getLast? h)
  exact ⟨hmem, beq_iff_eq.mp hvpc⟩

-- a subnet that was taken to a network ACL is on no other, and is read back with it
theorem onDefault_associate_iff {last acl : AwsNetworkAcl} {a : NetworkAclAssociation} {newId : String}
    (h : Cleared known s e c) (hw : WellFormed s.ec2) (hholds : Holds s.ec2 e.subnetId acl a)
    (hlast : getNetworkAclForVpc s.ec2 e.vpcId = some last) :
    OnDefault known (s.ec2.associate a newId last.networkAclId) e ↔ last.isDefault = true := by
  obtain ⟨hmem, hvpc⟩ := getNetworkAclForVpc_some hlast
  have hw' : WellFormed (s.ec2.associate a newId last.networkAclId) := hw.associate hholds
  have hmoved : Holds (s.ec2.associate a newId last.networkAclId) e.subnetId
      (last.reassociate a newId last.networkAclId) ⟨newId, last.networkAclId, a.subnetId⟩ :=
    holds_associate.mpr ⟨last, hmem, rfl, hholds.2.2, .inr ⟨rfl, rfl⟩⟩
  constructor
  · rintro ⟨⟨acl', b, hb, -, hdefault⟩, -⟩
    obtain ⟨old, hold, rfl, hid, -⟩ := moved_of_holds hw hholds hb
    obtain rfl := hw.apart old hold last hmem hid
    exact hdefault
  · intro hdefault
    refine ⟨⟨_, _, hmoved, hvpc, hdefault⟩, ?_⟩
    have hread := @readSubnet_of_subnets known c s.ec2 (s.ec2.associate a newId last.networkAclId)
      _ _ h.read rfl
    have hget : getNetworkAcl (s.ec2.associate a newId last.networkAclId) last.networkAclId =
        some (last.reassociate a newId last.networkAclId) := getNetworkAcl_of_mem hw' hmoved.1
    have hnone : mappedAcl known (s.ec2.associate a newId last.networkAclId) e.subnetId e.region =
        none := by
      rw [mappedAcl, getAssociation_of_holds hw' hmoved, Option.bind_some, hget, Option.any_some]
      exact if_pos hdefault
    rw [hnone] at hread
    refine ⟨_, hread, rfl, ?_⟩
    rw [h.same]
    simp [equals, Subnet.zone, Subnet.vpcId, Subnet.networkAclId]

-- clearing the network ACL of a subnet takes it to the default one exactly where AWS lists that last
theorem restoresDefault_iff (known : Known) (service : Service) (s : State) (e c : Subnet)
    (hw : WellFormed s.ec2) (h : Cleared known s e c) :
    RestoresDefault known service s e ↔
      ((s.ec2.networkAcls.filter (·.vpcId == e.vpcId)).getLast?).any (·.isDefault) = true := by
  obtain ⟨acl, a, hholds, hnot⟩ := h.associated hw
  change _ ↔ (getNetworkAclForVpc s.ec2 e.vpcId).any (·.isDefault) = true
  cases hlast : getNetworkAclForVpc s.ec2 e.vpcId with
  | none =>
    refine iff_of_false ?_ (by simp)
    rintro ⟨t, hrun, ⟨acl', b, hb, -, hdefault⟩, -⟩
    obtain rfl : s = t := by
      rw [update_one h (replaceAcl_none h hw hlast)] at hrun
      cases hrun
      rfl
    rw [(hw.once _ _ _ _ _ hb hholds).1, hnot] at hdefault
    cases hdefault
  | some last =>
    obtain ⟨t, hrun, ht⟩ := @replaceAcl_some known service s e c last acl a h hw hholds hlast
    rw [Option.any_some, ← onDefault_associate_iff h hw hholds hlast, ← ht]
    constructor
    · rintro ⟨u, hu, hdefault⟩
      rw [update_one h hrun] at hu
      cases hu
      exact hdefault
    · exact fun hdefault => ⟨t, update_one h hrun, hdefault⟩

end Clearing

section Lists

def available : Known where
  enabledRegions := ["eu-west-1"]
  availabilityZone name region := some ⟨name, region⟩
  vpc vpcId region := some { vpcId := some vpcId, region }
  networkAcl _ _ := none

def numbered : Service where
  createSubnet _ _ := .error (.error "SubnetLimitExceeded")
  newAssociationId _ := "aclassoc-2"

def defaultAcl : AwsNetworkAcl := ⟨some "acl-default", some "vpc-1", true, []⟩

def customAcl : AwsNetworkAcl :=
  ⟨some "acl-1", some "vpc-1", false, [⟨"aclassoc-1", some "acl-1", some "subnet-1"⟩]⟩

def vpcWith (acls : List AwsNetworkAcl) : Ec2 :=
  ⟨[⟨some "subnet-1", some "vpc-1", some "eu-west-1a", none, none, none, none, none⟩], acls⟩

def withoutAcl : Subnet where
  id := some 1
  availabilityZone := some ⟨"eu-west-1a", "eu-west-1"⟩
  vpc := some { vpcId := some "vpc-1", region := "eu-west-1" }
  subnetId := some "subnet-1"
  region := "eu-west-1"

def withAcl : Subnet :=
  { withoutAcl with
    id := none
    networkAcl := some { networkAclId := some "acl-1", region := "eu-west-1" } }

theorem wellFormed_of_two {acls : List AwsNetworkAcl}
    (hacls : acls = [customAcl, defaultAcl] ∨ acls = [defaultAcl, customAcl]) :
    WellFormed (vpcWith acls) := by
  have hmem : ∀ acl ∈ (vpcWith acls).networkAcls, acl = customAcl ∨ acl = defaultAcl := by
    rcases hacls with rfl | rfl
    · simp [vpcWith]
    · simp [vpcWith, or_comm]
  have hholds : ∀ sid acl a, Holds (vpcWith acls) sid acl a →
      acl = customAcl ∧ a = ⟨"aclassoc-1", some "acl-1", some "subnet-1"⟩ := by
    rintro sid acl a ⟨hacl, ha, -⟩
    rcases hmem acl hacl with rfl | rfl
    · exact ⟨rfl, List.mem_singleton.mp ha⟩
    · cases ha
  refine ⟨fun acl hacl => ?_, fun acl hacl acl' hacl' hid => ?_, fun sid acl a h => ?_,
    fun sid acl a acl' b ha hb => ?_⟩
  · rcases hmem acl hacl with rfl | rfl <;> decide
  · rcases hmem acl hacl with rfl | rfl <;> rcases hmem acl' hacl' with rfl | rfl
    · rfl
    · exact absurd hid (by decide)
    · exact absurd hid (by decide)
    · rfl
  · obtain ⟨rfl, rfl⟩ := hholds sid acl a h
    rfl
  · obtain ⟨rfl, rfl⟩ := hholds sid acl a ha
    obtain ⟨rfl, rfl⟩ := hholds sid acl' b hb
    exact ⟨rfl, rfl⟩

theorem cleared_of_two {acls : List AwsNetworkAcl}
    (hacls : acls = [customAcl, defaultAcl] ∨ acls = [defaultAcl, customAcl]) :
    Cleared available { ec2 := vpcWith acls } withoutAcl withAcl := by
  have hread : readSubnet available (vpcWith acls) (some "subnet-1") "eu-west-1" =
      .ok (some withAcl) := by
    rcases hacls with rfl | rfl
    · rfl
    · rfl
  exact
    { memoised := fun record (hmemo : none = some record) => by cases hmemo
      read := hread
      had := by decide
      same := rfl }

theorem default_last_restored : RestoresDefault available numbered
    { ec2 := vpcWith [customAcl, defaultAcl] } withoutAcl :=
  (restoresDefault_iff available numbered { ec2 := vpcWith [customAcl, defaultAcl] } withoutAcl withAcl
    (wellFormed_of_two (.inl rfl)) (cleared_of_two (.inl rfl))).mpr rfl

theorem custom_last_kept : ¬ RestoresDefault available numbered
    { ec2 := vpcWith [defaultAcl, customAcl] } withoutAcl := by
  have hw := wellFormed_of_two (.inr rfl)
  have h := cleared_of_two (.inr rfl)
  have hholds : Holds (vpcWith [defaultAcl, customAcl]) withoutAcl.subnetId customAcl
      ⟨"aclassoc-1", some "acl-1", some "subnet-1"⟩ := by
    refine ⟨?_, List.mem_singleton.mpr rfl, rfl⟩
    exact List.mem_cons_of_mem _ (List.mem_singleton.mpr rfl)
  obtain ⟨t, hrun, ht⟩ := @replaceAcl_some available numbered _ _ _ customAcl _ _ h hw hholds rfl
  rintro ⟨u, hu, hdefault⟩
  rw [update_one h hrun] at hu
  cases hu
  rw [ht] at hdefault
  exact absurd ((onDefault_associate_iff h hw hholds rfl).mp hdefault) (by decide)

end Lists

end Iasql.Subnets
