import Iasql.Calculus.Turns
import Iasql.Edits
import Iasql.Tags

namespace Iasql.Vpcs

open Program Prog Aws Edits Tags

section Entities

inductive VpcState where
  | available | pending
deriving DecidableEq

structure DhcpOptions where
  id : Option Nat := none
  dhcpOptionsId : Option String := none
  region : String
deriving DecidableEq

-- a flag that an entity does not set is undefined
structure Vpc where
  id : Option Nat := none
  vpcId : Option String := none
  cidrBlock : String
  state : Option VpcState := none
  isDefault : Bool := false
  enableDnsHostnames : Option Bool := some false
  enableDnsSupport : Option Bool := some false
  enableNetworkAddressUsageMetrics : Option Bool := some false
  tags : Option (Dict String String) := none
  dhcpOptions : Option DhcpOptions := none
  region : String
deriving DecidableEq

def Vpc.dhcpOptionsId (e : Vpc) : Option String := e.dhcpOptions.bind (·.dhcpOptionsId)

structure AwsVpc where
  vpcId : Option String
  cidrBlock : Option String
  state : Option VpcState := none
  isDefault : Option Bool := some false
  tags : Dict String String := ∅
  dhcpOptionsId : Option String := none
deriving DecidableEq

structure VpcAttributes where
  enableDnsHostnames : Bool := false
  enableDnsSupport : Bool := false
  enableNetworkAddressUsageMetrics : Bool := false
deriving DecidableEq

inductive VpcAttributeName where
  | enableDnsHostnames | enableDnsSupport | enableNetworkAddressUsageMetrics
deriving DecidableEq

def VpcAttributes.set (attributes : VpcAttributes) (value : Bool) : VpcAttributeName → VpcAttributes
  | .enableDnsHostnames => { attributes with enableDnsHostnames := value }
  | .enableDnsSupport => { attributes with enableDnsSupport := value }
  | .enableNetworkAddressUsageMetrics => { attributes with enableNetworkAddressUsageMetrics := value }

-- a VPC as AWS has it: its attributes are asked for one by one
structure Held where
  vpc : AwsVpc
  attributes : VpcAttributes
deriving DecidableEq

abbrev State := Edits.State (Option Held) Vpc

end Entities

section Ec2

structure CreateVpc where
  cidrBlock : String
  tags : Option (Dict String String)

-- the attributes that AWS gives to a VPC
def newAttributes : VpcAttributes where
  enableDnsSupport := true

-- a VPC in the answer of AWS has the block in its canonical form, and the tags of the request
structure Created (canonical : String → String) (input : CreateVpc) (vpc : AwsVpc) : Prop where
  vpcId : Aws.truthy vpc.vpcId = true
  cidrBlock : vpc.cidrBlock = some (canonical input.cidrBlock)
  nonempty : canonical input.cidrBlock ≠ ""
  isDefault : vpc.isDefault.getD false = false
  tags : vpc.tags = input.tags.getD ∅

-- createVpc waits until the VPC is there
structure Service where
  canonical : String → String
  createVpc : String → CreateVpc → Except Thrown (Option AwsVpc)
  created : ∀ region input res, createVpc region input = .ok res →
    ∃ vpc, res = some vpc ∧ Created canonical input vpc
  modifyVpcAttribute : String → Option String → VpcAttributeName → Bool → Except Thrown Unit
  associateDhcpOptions : String → Option String → Option String → Except Thrown Unit
  -- the options that the database, or else AWS, has under an id
  dhcpOptions : String → String → Option DhcpOptions

variable (service : Service)

def createInput (e : Vpc) : CreateVpc where
  cidrBlock := e.cidrBlock
  tags := e.tags.filter (·.entries ≠ [])

def vpcMapper (vpc : AwsVpc) (attributes : VpcAttributes) (region : String) : Option Vpc :=
  if !Aws.truthy vpc.vpcId || !Aws.truthy vpc.cidrBlock then none
  else
    let isDefault := vpc.isDefault.getD false
    some {
      vpcId := vpc.vpcId
      cidrBlock := vpc.cidrBlock.getD ""
      state := vpc.state
      isDefault
      tags := some vpc.tags
      region
      enableDnsHostnames := some (!isDefault && attributes.enableDnsHostnames)
      enableDnsSupport := some (!isDefault && attributes.enableDnsSupport)
      enableNetworkAddressUsageMetrics := some (!isDefault && attributes.enableNetworkAddressUsageMetrics)
      dhcpOptions := (vpc.dhcpOptionsId.filter fun id => id ≠ "" && id ≠ "default").bind fun id =>
        service.dhcpOptions id region
    }

def modifyVpcAttribute (region : String) (vpcId : Option String) (name : VpcAttributeName) :
    Option Bool → Prog State Thrown Unit
  | none => pure ()
  | some value =>
    match service.modifyVpcAttribute region vpcId name value with
    | .error err => fail err
    | .ok () => send fun aws => aws.map fun held => { held with attributes := held.attributes.set value name }

def updateVpcAttribute (vpcId : Option String) (e : Vpc) : Prog State Thrown Unit := do
  modifyVpcAttribute service e.region vpcId .enableDnsHostnames e.enableDnsHostnames
  modifyVpcAttribute service e.region vpcId .enableDnsSupport e.enableDnsSupport
  modifyVpcAttribute service e.region vpcId .enableNetworkAddressUsageMetrics e.enableNetworkAddressUsageMetrics

-- the attributes are sent where one of them is to be enabled
def updatesAttributes (e : Vpc) : Bool :=
  !e.isDefault && (e.enableDnsHostnames == some true || e.enableDnsSupport == some true ||
    e.enableNetworkAddressUsageMetrics == some true)

def associateDhcpOptions (e newVpc : Vpc) : Prog State Thrown Vpc :=
  if Aws.truthy e.dhcpOptionsId && newVpc.dhcpOptionsId != e.dhcpOptionsId then
    match service.associateDhcpOptions e.region e.dhcpOptionsId newVpc.vpcId with
    | .error err => fail err
    | .ok () => do
      send fun aws => aws.map fun held => { held with vpc.dhcpOptionsId := e.dhcpOptionsId }
      return { newVpc with dhcpOptions := e.dhcpOptions }
  else
    return newVpc

def attributesOf (s : State) : VpcAttributes := (s.aws.map (·.attributes)).getD {}

def createOne (e : Vpc) : Prog State Thrown (List Vpc) :=
  match service.createVpc e.region (createInput e) with
  | .error err => fail err
  | .ok none => return []
  | .ok (some res) => do
    send fun _ => some ⟨res, newAttributes⟩
    runIf (Aws.truthy res.vpcId && updatesAttributes e) (updateVpcAttribute service res.vpcId e)
    let attributes ← reads attributesOf
    match vpcMapper service res attributes e.region with
    | none => return []
    | some newVpc => do
      let newVpc ← associateDhcpOptions service e { newVpc with id := e.id }
      save newVpc
      return [newVpc]

-- each row has an entry of its own, with what AWS has for it
def create (es : List Vpc) : Prog (Option Nat → State) Thrown (List Vpc) :=
  gather (turn (·.id) (createOne service)) es

end Ec2

section Creation

variable {service : Service} {e : Vpc} {s t : State} {vpcId : Option String} {name : VpcAttributeName}
  {value : Option Bool} {out : List Vpc}

def Held.set (held : Held) (name : VpcAttributeName) (value : Option Bool) : Held :=
  value.elim held fun value => { held with attributes := held.attributes.set value name }

-- the attributes that a VPC of the row has
def settled (e : Vpc) : VpcAttributes :=
  if updatesAttributes e then
    { enableDnsHostnames := e.enableDnsHostnames.getD false
      enableDnsSupport := e.enableDnsSupport.getD true
      enableNetworkAddressUsageMetrics := e.enableNetworkAddressUsageMetrics.getD false }
  else newAttributes

theorem modifyVpcAttribute_returned {region : String} {held : Held} (haws : s.aws = some held)
    (h : modifyVpcAttribute service region vpcId name value s = (.returned (), t)) :
    t = { s with aws := some (held.set name value) } := by
  cases value with
  | none =>
    cases h
    rw [show held.set name none = held from rfl, ← haws]
  | some value =>
    rw [modifyVpcAttribute] at h
    cases hanswer : service.modifyVpcAttribute region vpcId name value with
    | error err =>
      rw [hanswer] at h
      cases h
    | ok _ =>
      rw [hanswer] at h
      rw [send_returned h, haws]
      rfl

theorem updateVpcAttribute_returned {res : AwsVpc} (haws : s.aws = some ⟨res, newAttributes⟩)
    (hupdates : updatesAttributes e = true) (h : updateVpcAttribute service vpcId e s = (.returned (), t)) :
    t = { s with aws := some ⟨res, settled e⟩ } := by
  obtain ⟨⟨⟩, u, hhostnames, hrest⟩ := bind_returned_inv h
  obtain ⟨⟨⟩, v, hsupport, hmetrics⟩ := bind_returned_inv hrest
  obtain rfl := modifyVpcAttribute_returned haws hhostnames
  obtain rfl := modifyVpcAttribute_returned rfl hsupport
  obtain rfl := modifyVpcAttribute_returned rfl hmetrics
  rw [settled, if_pos hupdates]
  rcases e.enableDnsHostnames with _ | hostnames <;> rcases e.enableDnsSupport with _ | support <;>
    rcases e.enableNetworkAddressUsageMetrics with _ | metrics <;> rfl

theorem vpcMapper_created {canonical : String → String} {input : CreateVpc} {res : AwsVpc}
    {attributes : VpcAttributes} {region : String} (h : Created canonical input res) :
    ∃ newVpc, vpcMapper service res attributes region = some newVpc ∧ newVpc.vpcId = res.vpcId ∧
      newVpc.cidrBlock = canonical input.cidrBlock ∧ newVpc.tags = some (input.tags.getD ∅) ∧
      newVpc.enableDnsHostnames = some attributes.enableDnsHostnames ∧
      newVpc.enableDnsSupport = some attributes.enableDnsSupport := by
  have hcidr : Aws.truthy res.cidrBlock = true := by
    rw [h.cidrBlock]
    simpa [Aws.truthy] using h.nonempty
  rw [vpcMapper, h.vpcId, hcidr]
  refine ⟨_, rfl, rfl, ?_, ?_, ?_, ?_⟩
  · simp [h.cidrBlock]
  · simp [h.tags]
  · simp [h.isDefault]
  · simp [h.isDefault]

-- the VPC behind a creation that returns, and the row that is saved of it
structure Left (service : Service) (e : Vpc) (held : Held) (row : Vpc) : Prop where
  cidrBlock : held.vpc.cidrBlock = some (service.canonical e.cidrBlock)
  tags : held.vpc.tags = (createInput e).tags.getD ∅
  attributes : held.attributes = settled e
  rowCidrBlock : row.cidrBlock = service.canonical e.cidrBlock
  rowTags : row.tags = some ((createInput e).tags.getD ∅)
  rowDnsHostnames : row.enableDnsHostnames = some (settled e).enableDnsHostnames
  rowDnsSupport : row.enableDnsSupport = some (settled e).enableDnsSupport

theorem associateDhcpOptions_returned {held : Held} {newVpc newVpc' : Vpc} (haws : s.aws = some held)
    (hleft : Left service e held newVpc)
    (h : associateDhcpOptions service e newVpc s = (.returned newVpc', t)) :
    ∃ held', t.aws = some held' ∧ Left service e held' newVpc' := by
  rw [associateDhcpOptions] at h
  split at h
  · cases hanswer : service.associateDhcpOptions e.region e.dhcpOptionsId newVpc.vpcId with
    | error err =>
      rw [hanswer] at h
      cases h
    | ok _ =>
      rw [hanswer] at h
      obtain ⟨⟨⟩, u, hsend, hpure⟩ := bind_returned_inv h
      obtain rfl := send_returned hsend
      cases hpure
      refine ⟨{ held with vpc.dhcpOptionsId := e.dhcpOptionsId }, ?_, { hleft with }⟩
      dsimp only
      rw [haws]
      rfl
  · cases h
    exact ⟨held, haws, hleft⟩

theorem createOne_left (h : createOne service e s = (.returned out, t)) :
    ∃ held, t.aws = some held ∧ Left service e held t.row := by
  rw [createOne] at h
  cases hanswer : service.createVpc e.region (createInput e) with
  | error err =>
    rw [hanswer] at h
    cases h
  | ok answer =>
    rw [hanswer] at h
    obtain ⟨res, rfl, hcreated⟩ := service.created _ _ _ hanswer
    obtain ⟨⟨⟩, u, hsend, hrest⟩ := bind_returned_inv h
    obtain rfl := send_returned hsend
    obtain ⟨⟨⟩, v, hupdate, hrest⟩ := bind_returned_inv hrest
    have hv : v = { s with aws := some ⟨res, settled e⟩ } := by
      rw [hcreated.vpcId, Bool.true_and] at hupdate
      cases hupdates : updatesAttributes e with
      | true =>
        rw [hupdates, runIf, if_pos rfl] at hupdate
        rw [updateVpcAttribute_returned rfl hupdates hupdate]
      | false =>
        rw [hupdates] at hupdate
        cases hupdate
        rw [settled, hupdates]
        rfl
    subst hv
    obtain ⟨attributes, w, hreads, hrest⟩ := bind_returned_inv hrest
    cases hreads
    obtain ⟨newVpc, hmapped, -, hcidr, htags, hhostnames, hsupport⟩ :=
      @vpcMapper_created service _ _ _ (settled e) e.region hcreated
    have hattributes : attributesOf { s with aws := some ⟨res, settled e⟩ } = settled e := rfl
    simp only [hattributes, hmapped] at hrest
    obtain ⟨newVpc', x, hassociate, hrest⟩ := bind_returned_inv hrest
    have hleft : Left service e ⟨res, settled e⟩ { newVpc with id := e.id } :=
      ⟨hcreated.cidrBlock, hcreated.tags, rfl, hcidr, htags, hhostnames, hsupport⟩
    obtain ⟨held, hheld, hleft⟩ := associateDhcpOptions_returned rfl hleft hassociate
    obtain ⟨⟨⟩, y, hsave, hpure⟩ := bind_returned_inv hrest
    obtain rfl := save_returned hsave
    cases hpure
    exact ⟨held, hheld, hleft⟩

end Creation

section Agreement

-- what AWS has agrees with the columns that e sets
structure AwsAgrees (e : Vpc) (held : Held) : Prop where
  cidrBlock : held.vpc.cidrBlock = some e.cidrBlock
  enableDnsSupport : ∀ v ∈ e.enableDnsSupport, held.attributes.enableDnsSupport = v
  enableDnsHostnames : ∀ v ∈ e.enableDnsHostnames, held.attributes.enableDnsHostnames = v
  tags : ∀ tags ∈ e.tags, SameTags (some held.vpc.tags) (some tags)

structure RowAgrees (e row : Vpc) : Prop where
  cidrBlock : row.cidrBlock = e.cidrBlock
  enableDnsSupport : ∀ v ∈ e.enableDnsSupport, row.enableDnsSupport = some v
  enableDnsHostnames : ∀ v ∈ e.enableDnsHostnames, row.enableDnsHostnames = some v
  tags : ∀ tags ∈ e.tags, SameTags row.tags (some tags)

def Honoured (e : Vpc) (s : State) : Prop := ∃ held, s.aws = some held ∧ AwsAgrees e held ∧ RowAgrees e s.row

-- the block is canonical, and a VPC whose attributes are not sent has those that AWS gives
def Kept (service : Service) (e : Vpc) : Prop :=
  service.canonical e.cidrBlock = e.cidrBlock ∧
    (updatesAttributes e = true ∨ e.enableDnsHostnames ≠ some true ∧ e.enableDnsSupport ≠ some false)

variable {service : Service} {e row : Vpc} {held : Held} {s t : State} {out : List Vpc}

theorem createInput_tags {tags : Dict String String} (h : tags ∈ e.tags) :
    (createInput e).tags.getD ∅ = tags := by
  obtain rfl | hne := eq_or_ne tags ∅
  · rw [createInput, Option.mem_def.mp h]
    rfl
  · have hentries : tags.entries ≠ [] := fun hnil => hne (Dict.entries_eq_nil.mp hnil)
    simp [createInput, Option.mem_def.mp h, Option.filter, hentries]

theorem settled_iff : (∀ v ∈ e.enableDnsHostnames, (settled e).enableDnsHostnames = v) ∧
    (∀ v ∈ e.enableDnsSupport, (settled e).enableDnsSupport = v) ↔
      updatesAttributes e = true ∨ e.enableDnsHostnames ≠ some true ∧ e.enableDnsSupport ≠ some false := by
  rw [settled]
  cases updatesAttributes e with
  | true =>
    refine iff_of_true ⟨fun v hv => ?_, fun v hv => ?_⟩ (.inl rfl)
    · simp [Option.mem_def.mp hv]
    · simp [Option.mem_def.mp hv]
  | false =>
    rcases e.enableDnsHostnames with _ | hostnames <;> rcases e.enableDnsSupport with _ | support <;>
      simp [newAttributes, eq_comm]

theorem Left.awsAgrees_iff (h : Left service e held row) : AwsAgrees e held ↔ Kept service e := by
  rw [Kept, ← settled_iff]
  constructor
  · intro hagrees
    refine ⟨Option.some.inj (h.cidrBlock.symm.trans hagrees.cidrBlock), ?_, ?_⟩
    · rw [← h.attributes]
      exact hagrees.enableDnsHostnames
    · rw [← h.attributes]
      exact hagrees.enableDnsSupport
  · rintro ⟨hcanonical, hhostnames, hsupport⟩
    refine ⟨by rw [h.cidrBlock, hcanonical], ?_, ?_, fun tags htags key => ?_⟩
    · rwa [h.attributes]
    · rwa [h.attributes]
    · rw [h.tags, createInput_tags htags]

theorem Left.rowAgrees (h : Left service e held row) (hkept : Kept service e) : RowAgrees e row := by
  obtain ⟨hcanonical, hsettled⟩ := hkept
  obtain ⟨hhostnames, hsupport⟩ := settled_iff.mpr hsettled
  refine ⟨h.rowCidrBlock.trans hcanonical, fun v hv => ?_, fun v hv => ?_, fun tags htags key => ?_⟩
  · rw [h.rowDnsSupport, hsupport v hv]
  · rw [h.rowDnsHostnames, hhostnames v hv]
  · rw [h.rowTags, createInput_tags htags]

theorem honoured_iff (h : createOne service e s = (.returned out, t)) : Honoured e t ↔ Kept service e := by
  obtain ⟨held, hheld, hleft⟩ := createOne_left h
  constructor
  · rintro ⟨held', hheld', hagrees, -⟩
    obtain rfl : held = held' := Option.some.inj (hheld.symm.trans hheld')
    exact hleft.awsAgrees_iff.mp hagrees
  · intro hkept
    exact ⟨held, hheld, hleft.awsAgrees_iff.mpr hkept, hleft.rowAgrees hkept⟩

end Agreement

end Iasql.Vpcs
