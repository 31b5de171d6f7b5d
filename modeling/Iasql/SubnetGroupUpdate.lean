import Iasql.Edits

namespace Iasql.MemoryDB

open Program Prog Aws SecurityGroups
open Edits (send save Reaches reaches_iff not_reaches)

structure SubnetGroup where
  id : Option Nat := none
  subnetGroupName : String
  description : Option String := none
  arn : Option String := none
  subnets : Option (List String) := none
  region : String
deriving DecidableEq

structure Subnet where
  subnetId : Option String := none
  availabilityZone : String
  vpc : Vpc
deriving DecidableEq

-- the rows that getDefaultSubnets reads
structure Network where
  vpcs : List Vpc
  subnets : List Subnet

structure AwsSubnetGroup where
  arn : Option String
  name : Option String
  description : Option String := none
  subnets : List String := []
deriving DecidableEq

-- find gives the text itself, and an empty text is falsy
def everyIn (a b : Option (List String)) : Bool :=
  a.elim false fun subnets => subnets.all fun asn => Aws.truthy ((b.getD []).find? fun bsn => asn == bsn)

def equals (a b : SubnetGroup) : Bool :=
  a.description == b.description && a.subnets.map (·.length) == b.subnets.map (·.length) &&
    everyIn a.subnets b.subnets

section Update

def subnetGroupMapper (cloudE : AwsSubnetGroup) (region : String) : Option SubnetGroup :=
  if !Aws.truthy cloudE.arn || !Aws.truthy cloudE.name then none
  else some
    { subnetGroupName := cloudE.name.getD ""
      description := cloudE.description
      arn := cloudE.arn
      subnets := some cloudE.subnets
      region }

def noDefaultVpc : Thrown := .error "Cannot read properties of undefined (reading 'id')"

def getDefaultSubnets (network : Network) (region : String) : Except Thrown (List Subnet) :=
  match ((network.vpcs.filter (·.isDefault)).filter (·.region == region)).getLast? with
  | some defaultVpc => .ok (network.subnets.filter fun sn => sn.vpc.id == defaultVpc.id)
  | none => if network.subnets.isEmpty then .ok [] else .error noDefaultVpc

structure UpdateSubnetGroup where
  subnetGroupName : String
  subnetIds : List String
  description : Option String
deriving DecidableEq

def UpdateSubnetGroup.apply (input : UpdateSubnetGroup) (a : AwsSubnetGroup) : AwsSubnetGroup :=
  { a with
    subnets := input.subnetIds
    description := input.description.or a.description }

section Retries

def lastIndexOf (sub s : List Char) : Option Nat :=
  ((List.range (s.length + 1)).filter fun i => sub.isPrefixOf (s.drop i)).getLast?

-- the bounds may stand in either order
def substring (s : List Char) (i j : Nat) : List Char := (s.take (max i j)).drop (min i j)

def relevantSubstring : String := "Supported availability zones are ["

-- the zones that the message of a refusal names
def allowedAz (message : String) : Option (List String) :=
  let s := message.toList
  (lastIndexOf relevantSubstring.toList s).map fun i =>
    let text := substring s (i + relevantSubstring.length) (s.length - 1 - 1)
    (String.ofList text).splitOn ", "

end Retries

-- the message of AWS where it refuses a request
abbrev Refusal := UpdateSubnetGroup → Option String

-- the number is that of the retries left
def handleUpdate (network : Network) (refuses : Refusal) (e : SubnetGroup) :
    Nat → List String → Prog (Edits.State AwsSubnetGroup SubnetGroup) Thrown Unit
  | retries, subnetIds =>
    let input : UpdateSubnetGroup := ⟨e.subnetGroupName, subnetIds, e.description⟩
    match refuses input with
    | none => send input.apply
    | some message =>
      match retries, allowedAz message with
      | n + 1, some zones =>
        match getDefaultSubnets network e.region with
        | .error err => fail err
        | .ok defaultSubnets =>
          handleUpdate network refuses e n
            ((defaultSubnets.filter fun sn => sn.availabilityZone ∈ zones).map (·.subnetId.getD ""))
      | _, _ => fail (.error message)

def isEmpty (subnets : Option (List String)) : Bool := (subnets.getD []).isEmpty

def subnetIds (network : Network) (e : SubnetGroup) : Except Thrown (List String) :=
  if isEmpty e.subnets then
    (getDefaultSubnets network e.region).map fun defaultSubnets => defaultSubnets.map (·.subnetId.getD "")
  else .ok (e.subnets.getD [])

-- the subnets differ in number, and one that AWS has is not among those of the record
def subnetsChanged (cloudRecord e : SubnetGroup) : Bool :=
  !(cloudRecord.subnets.map (·.length) == e.subnets.map (·.length)) &&
    !everyIn cloudRecord.subnets e.subnets

def isDescribed (cloudRecord e : SubnetGroup) : Bool := !(cloudRecord.description == e.description)

def updateSubnets (network : Network) (refuses : Refusal) (e : SubnetGroup) :
    Prog (Edits.State AwsSubnetGroup SubnetGroup) Thrown Unit :=
  match subnetIds network e with
  | .error err => fail err
  | .ok ids => handleUpdate network refuses e 3 ids

-- the turn of the loop for one group
def updateSubnetGroup (network : Network) (refuses : Refusal) (cloudRecord e : SubnetGroup) :
    Prog (Edits.State AwsSubnetGroup SubnetGroup) Thrown Unit := do
  runIf (subnetsChanged cloudRecord e) (updateSubnets network refuses e)
  runIf (isDescribed cloudRecord e) (handleUpdate network refuses e 3 (e.subnets.getD []))
  if subnetsChanged cloudRecord e || isDescribed cloudRecord e then do
    match ← reads fun s : Edits.State AwsSubnetGroup SubnetGroup => subnetGroupMapper s.aws e.region with
    | none => pure ()
    | some newObj => save { newObj with id := e.id }
  else save { cloudRecord with id := e.id }

end Update

section Reach

variable {network : Network} {refuses : Refusal} {aws : AwsSubnetGroup} {e c : SubnetGroup}

def SameSubnets (a b : Option (List String)) : Prop := ∀ sn, sn ∈ a.getD [] ↔ sn ∈ b.getD []

structure Agrees (e r : SubnetGroup) : Prop where
  description : r.description = e.description
  subnets : SameSubnets r.subnets e.subnets

-- the subnets are sent with a new description, or where their number differs and one goes
def Sends (network : Network) (e c : SubnetGroup) : Prop :=
  isDescribed c e = true ∨
    subnetsChanged c e = true ∧ (isEmpty e.subnets = false ∨ subnetIds network e = .ok [])

structure Meets (network : Network) (e c : SubnetGroup) : Prop where
  defaults : subnetsChanged c e = true → ∃ ids, subnetIds network e = .ok ids
  description : isDescribed c e = true → e.description.isSome = true
  subnets : SameSubnets c.subnets e.subnets ∨ Sends network e c

def Reached (network : Network) (refuses : Refusal) (c e : SubnetGroup) (aws : AwsSubnetGroup) : Prop :=
  Reaches (updateSubnetGroup network refuses c e) (fun a => subnetGroupMapper a e.region)
    (fun r => { r with id := e.id }) (fun r _ => Agrees e r) ⟨aws, e⟩

theorem subnetGroupMapper_eq_some {a : AwsSubnetGroup} {region : String} :
    subnetGroupMapper a region = some c ↔ (Aws.truthy a.arn && Aws.truthy a.name) = true ∧
      SubnetGroup.mk none (a.name.getD "") a.description a.arn (some a.subnets) region = c := by
  rw [subnetGroupMapper]
  cases Aws.truthy a.arn <;> cases Aws.truthy a.name <;> simp

theorem handleUpdate_accepted (haccepts : ∀ input, refuses input = none) (n : Nat) (ids : List String)
    (s : Edits.State AwsSubnetGroup SubnetGroup) :
    handleUpdate network refuses e n ids s =
      send (UpdateSubnetGroup.apply ⟨e.subnetGroupName, ids, e.description⟩) s := by
  cases n <;> simp only [handleUpdate, haccepts]

-- what AWS has behind the update, given what it is asked for where the subnets changed
def pushedGroup (ids : List String) (e c : SubnetGroup) (aws : AwsSubnetGroup) : AwsSubnetGroup :=
  let first := if subnetsChanged c e then
    UpdateSubnetGroup.apply ⟨e.subnetGroupName, ids, e.description⟩ aws else aws
  if isDescribed c e then
    UpdateSubnetGroup.apply ⟨e.subnetGroupName, e.subnets.getD [], e.description⟩ first
  else first

section Accepted

variable {ids : List String} (hread : subnetGroupMapper aws e.region = some c)
  (haccepts : ∀ input, refuses input = none)
  (hids : subnetsChanged c e = true → subnetIds network e = .ok ids)

theorem pushedGroup_named : (pushedGroup ids e c aws).arn = aws.arn ∧
    (pushedGroup ids e c aws).name = aws.name := by
  rw [pushedGroup]
  cases subnetsChanged c e <;> cases isDescribed c e <;> exact ⟨rfl, rfl⟩

include haccepts hids in
theorem updateSubnets_apply : runIf (subnetsChanged c e) (updateSubnets network refuses e) ⟨aws, e⟩ =
    (.returned (), ⟨if subnetsChanged c e then
      UpdateSubnetGroup.apply ⟨e.subnetGroupName, ids, e.description⟩ aws else aws, e⟩) := by
  cases hchanged : subnetsChanged c e with
  | false => rfl
  | true =>
    rw [runIf, if_pos rfl, updateSubnets, hids hchanged]
    exact handleUpdate_accepted haccepts 3 ids _

include hread in
theorem mapper_pushedGroup : subnetGroupMapper (pushedGroup ids e c aws) e.region =
    some { c with
      description := (pushedGroup ids e c aws).description
      subnets := some (pushedGroup ids e c aws).subnets } := by
  obtain ⟨hnamed, rfl⟩ := subnetGroupMapper_eq_some.mp hread
  obtain ⟨harn, hname⟩ := @pushedGroup_named aws e _ ids
  refine subnetGroupMapper_eq_some.mpr ⟨?_, ?_⟩
  · rw [harn, hname]
    exact hnamed
  · rw [harn, hname]

include hread haccepts hids in
theorem updateSubnetGroup_pushes : updateSubnetGroup network refuses c e ⟨aws, e⟩ =
    (.returned (), ⟨pushedGroup ids e c aws, { c with
      id := e.id
      description := (pushedGroup ids e c aws).description
      subnets := some (pushedGroup ids e c aws).subnets }⟩) := by
  have hdescribed : runIf (isDescribed c e) (handleUpdate network refuses e 3 (e.subnets.getD []))
      ⟨if subnetsChanged c e then
        UpdateSubnetGroup.apply ⟨e.subnetGroupName, ids, e.description⟩ aws else aws, e⟩ =
        (.returned (), ⟨pushedGroup ids e c aws, e⟩) := by
    rw [pushedGroup]
    cases isDescribed c e with
    | false => rfl
    | true =>
      rw [runIf, if_pos rfl]
      exact handleUpdate_accepted haccepts 3 _ _
  rw [updateSubnetGroup, bind_of_returned (updateSubnets_apply haccepts hids), bind_of_returned hdescribed]
  cases hpushed : subnetsChanged c e || isDescribed c e with
  | true =>
    rw [if_pos rfl, reads_bind_apply, mapper_pushedGroup hread]
    rfl
  | false =>
    obtain ⟨hchanged, hdescribed⟩ := Bool.or_eq_false_iff.mp hpushed
    have hsame : pushedGroup ids e c aws = aws := by
      rw [pushedGroup, hchanged, hdescribed]
      rfl
    obtain ⟨-, rfl⟩ := subnetGroupMapper_eq_some.mp hread
    rw [hsame]
    rfl

include hread in
theorem pushed_description :
    (pushedGroup ids e c aws).description = e.description ↔
      (isDescribed c e = true → e.description.isSome = true) := by
  obtain ⟨-, hc⟩ := subnetGroupMapper_eq_some.mp hread
  have hdescription : c.description = aws.description := hc ▸ rfl
  rw [pushedGroup]
  cases hdescribed : isDescribed c e with
  | true =>
    have hne : ¬ e.description = aws.description := by
      intro heq
      simp [isDescribed, hdescription, heq] at hdescribed
    cases hsome : e.description with
    | none => cases subnetsChanged c e <;> simpa [UpdateSubnetGroup.apply, hsome, eq_comm] using hne
    | some d => cases subnetsChanged c e <;> simp [UpdateSubnetGroup.apply]
  | false =>
    have heq : aws.description = e.description := by
      simpa [isDescribed, hdescription] using hdescribed
    cases subnetsChanged c e <;> simp [UpdateSubnetGroup.apply, heq]

theorem not_same_of_emptied (hchanged : subnetsChanged c e = true) (hempty : isEmpty e.subnets = true) :
    c.subnets ≠ none → ¬ SameSubnets c.subnets e.subnets := by
  intro hc hsame
  cases hsubnets : c.subnets with
  | none => exact hc hsubnets
  | some subnets =>
    have hnil : e.subnets.getD [] = [] := List.isEmpty_iff.mp hempty
    rw [hsubnets] at hsame
    have hsubnets' : subnets = [] := List.eq_nil_iff_forall_not_mem.mpr fun sn hsn => by
      have hmem := (hsame sn).mp hsn
      rw [hnil] at hmem
      cases hmem
    simp [subnetsChanged, everyIn, hsubnets, hsubnets'] at hchanged

include hread hids in
theorem pushed_subnets :
    SameSubnets (some (pushedGroup ids e c aws).subnets) e.subnets ↔
      SameSubnets c.subnets e.subnets ∨ Sends network e c := by
  obtain ⟨-, hc⟩ := subnetGroupMapper_eq_some.mp hread
  have hsubnets : c.subnets = some aws.subnets := hc ▸ rfl
  rw [Sends]
  cases hdescribed : isDescribed c e with
  | true =>
    refine iff_of_true ?_ (.inr (.inl rfl))
    rw [pushedGroup, hdescribed]
    exact fun _ => Iff.rfl
  | false =>
    rw [or_iff_right Bool.false_ne_true]
    cases hchanged : subnetsChanged c e with
    | false =>
      rw [pushedGroup, hdescribed, hchanged, hsubnets]
      simp
    | true =>
      have hpushed : (pushedGroup ids e c aws).subnets = ids := by
        rw [pushedGroup, hdescribed, hchanged]
        rfl
      rw [hpushed, hids hchanged]
      cases hempty : isEmpty e.subnets with
      | false =>
        have hsent : ids = e.subnets.getD [] := by
          have h := hids hchanged
          rw [subnetIds, hempty] at h
          exact (Except.ok.inj h).symm
        refine iff_of_true ?_ (.inr ⟨rfl, .inl rfl⟩)
        rw [hsent]
        exact fun _ => Iff.rfl
      | true =>
        have hnot : ¬ SameSubnets c.subnets e.subnets :=
          not_same_of_emptied hchanged hempty (by rw [hsubnets]; nofun)
        have hnil : e.subnets.getD [] = [] := List.isEmpty_iff.mp hempty
        rw [or_iff_right hnot]
        simp [SameSubnets, hnil, List.eq_nil_iff_forall_not_mem]

end Accepted

theorem updateSubnetGroup_throws {err : Thrown} (hchanged : subnetsChanged c e = true)
    (hids : subnetIds network e = .error err) :
    updateSubnetGroup network refuses c e ⟨aws, e⟩ = (.thrown err, ⟨aws, e⟩) := by
  have hthrown : runIf (subnetsChanged c e) (updateSubnets network refuses e) ⟨aws, e⟩ =
      (.thrown err, ⟨aws, e⟩) := by
    rw [hchanged, runIf, if_pos rfl, updateSubnets, hids]
    rfl
  rw [updateSubnetGroup, bind_of_thrown hthrown]

theorem reached_iff (hread : subnetGroupMapper aws e.region = some c)
    (haccepts : ∀ input, refuses input = none) :
    Reached network refuses c e aws ↔ Meets network e c := by
  by_cases hdefaults : subnetsChanged c e = true → ∃ ids, subnetIds network e = .ok ids
  · obtain ⟨ids, hids⟩ : ∃ ids, subnetsChanged c e = true → subnetIds network e = .ok ids := by
      by_cases hchanged : subnetsChanged c e = true
      · obtain ⟨ids, hok⟩ := hdefaults hchanged
        exact ⟨ids, fun _ => hok⟩
      · exact ⟨[], fun h => absurd h hchanged⟩
    have hmapped := @mapper_pushedGroup aws e c ids hread
    refine (reaches_iff (updateSubnetGroup_pushes hread haccepts hids) fun r hr => ?_).trans ?_
    · obtain rfl := Option.some.inj (hmapped.symm.trans hr)
      rfl
    · constructor
      · rintro ⟨r, hr, hagrees⟩
        obtain rfl := Option.some.inj (hmapped.symm.trans hr)
        exact ⟨hdefaults, (pushed_description hread).mp hagrees.description,
          (pushed_subnets hread hids).mp hagrees.subnets⟩
      · exact fun h => ⟨_, hmapped, (pushed_description hread).mpr h.description,
          (pushed_subnets hread hids).mpr h.subnets⟩
  · obtain ⟨hchanged, hnone⟩ := Classical.not_imp.mp hdefaults
    refine iff_of_false ?_ fun h => hdefaults h.defaults
    cases hids : subnetIds network e with
    | ok ids => exact absurd ⟨ids, hids⟩ hnone
    | error err => exact not_reaches (updateSubnetGroup_throws hchanged hids)

end Reach

end Iasql.MemoryDB
