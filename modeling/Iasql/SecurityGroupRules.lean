import Iasql.SecurityGroups

namespace Iasql.SecurityGroupRules

open Program Prog Aws SecurityGroups

structure SecurityGroupRule where
  id : Option Nat := none
  securityGroupRuleId : Option String := none
  securityGroup : Option SecurityGroup := none
  isEgress : Bool := false
  ipProtocol : Option String := none
  fromPort : Option Int := none
  toPort : Option Int := none
  cidrIpv4 : Option String := none
  cidrIpv6 : Option String := none
  prefixListId : Option String := none
  description : Option String := none
  sourceSecurityGroup : Option SecurityGroup := none
  region : String
deriving DecidableEq

def equals (a b : SecurityGroupRule) : Bool :=
  if a.sourceSecurityGroup.isNone != b.sourceSecurityGroup.isNone then false
  else match a.sourceSecurityGroup with
    -- ranges and description are made up by AWS for a source group
    | some source =>
      a.isEgress == b.isEgress && a.prefixListId == b.prefixListId && a.ipProtocol == b.ipProtocol &&
        source.groupId == b.sourceSecurityGroup.bind (·.groupId)
    | none =>
      a.isEgress == b.isEgress && a.ipProtocol == b.ipProtocol && a.fromPort == b.fromPort &&
        a.toPort == b.toPort && a.cidrIpv4 == b.cidrIpv4 && a.cidrIpv6 == b.cidrIpv6 &&
        a.prefixListId == b.prefixListId && a.description == b.description

section Reading

-- a rule as AWS describes it
structure AwsSecurityGroupRule where
  securityGroupRuleId : Option String := none
  groupId : Option String := none
  isEgress : Option Bool := none
  ipProtocol : Option String := none
  fromPort : Option Int := none
  toPort : Option Int := none
  cidrIpv4 : Option String := none
  cidrIpv6 : Option String := none
  prefixListId : Option String := none
  referencedGroupId : Option String := none
  description : Option String := none
deriving DecidableEq

-- what securityGroup.db.read and securityGroup.cloud.read find under an id
structure Groups where
  db : String → Option SecurityGroup
  cloud : String → Option SecurityGroup

def Groups.find (groups : Groups) (groupId region : String) : Option SecurityGroup :=
  (groups.db (generateId [groupId, region])).or (groups.cloud (generateId [groupId, region]))

def sgrMapper (groups : Groups) (sgr : AwsSecurityGroupRule) (region : String) :
    SecurityGroupRule :=
  let referenced := Aws.truthy sgr.referencedGroupId
  { securityGroupRuleId := sgr.securityGroupRuleId
    securityGroup := groups.find (sgr.groupId.getD "") region
    isEgress := sgr.isEgress.getD false
    sourceSecurityGroup :=
      if referenced then groups.find (sgr.referencedGroupId.getD "") region else none
    fromPort := if referenced then none else sgr.fromPort
    toPort := if referenced then none else sgr.toPort
    cidrIpv4 := if referenced then none else sgr.cidrIpv4
    cidrIpv6 := if referenced then none else sgr.cidrIpv6
    ipProtocol := some (sgr.ipProtocol.getD "")
    prefixListId := sgr.prefixListId
    description := sgr.description
    region }

end Reading

section Requests

structure IpRange where
  cidrIp : String
  description : Option String := none
deriving DecidableEq

structure Ipv6Range where
  cidrIpv6 : String
  description : Option String := none
deriving DecidableEq

structure IpPermission where
  ipRanges : Option (List IpRange) := none
  ipv6Ranges : Option (List Ipv6Range) := none
  fromPort : Option Int := none
  ipProtocol : Option String := none
  -- the bare ids, cast to the type of the field
  prefixListIds : Option (List String) := none
  toPort : Option Int := none
deriving DecidableEq

-- an authorizeSecurityGroupEgress or authorizeSecurityGroupIngress
structure Authorize where
  region : String
  isEgress : Bool
  groupId : Option String
  ipPermissions : Option (List IpPermission) := none
  sourceSecurityGroupName : Option String := none
  sourceSecurityGroupOwnerId : Option String := none
deriving DecidableEq

def given (text : Option String) : Option String := if Aws.truthy text then text else none

-- a port is sent where it is defined and not zero
def givenPort (port : Option Int) : Option Int := if port.getD 0 = 0 then none else port

def newRule (en : SecurityGroupRule) : IpPermission where
  ipRanges := (given en.cidrIpv4).map fun cidrIp => [{ cidrIp, description := given en.description }]
  ipv6Ranges :=
    (given en.cidrIpv6).map fun cidrIpv6 => [{ cidrIpv6, description := given en.description }]
  fromPort := givenPort en.fromPort
  ipProtocol := given en.ipProtocol
  prefixListIds := (given en.prefixListId).map fun id => [id]
  toPort := givenPort en.toPort

def groupId (en : SecurityGroupRule) : Option String := en.securityGroup.bind (·.groupId)

-- nothing is requested for a rule with neither a source group nor a range
def request (en : SecurityGroupRule) : Option Authorize :=
  let blank : Authorize := { region := en.region, isEgress := en.isEgress, groupId := groupId en }
  match en.sourceSecurityGroup with
  | some source =>
    if source.vpc.any (·.isDefault) then
      some { blank with sourceSecurityGroupName := given source.groupName }
    else some { blank with sourceSecurityGroupOwnerId := given source.groupId }
  | none =>
    if Aws.truthy en.cidrIpv4 || Aws.truthy en.cidrIpv6 then
      some { blank with ipPermissions := some [newRule en] }
    else none

def noGroup : Thrown :=
  .error "Cannot create a security group rule for a security group that does not yet exist"

def noProtocol : Thrown :=
  .error "Cannot create a security group rule without either ip protocol or source security group"

def otherVpc : Thrown :=
  .error "Cannot create a security group rule with a source security group from another vpc"

-- the error that ends the whole call
def refusal (en : SecurityGroupRule) : Option Thrown :=
  if !Aws.truthy (groupId en) then some noGroup
  else match en.sourceSecurityGroup with
    | none => if Aws.truthy en.ipProtocol then none else some noProtocol
    | some source =>
      if source.vpc.bind (·.id) == (en.securityGroup.bind (·.vpc)).bind (·.id) then none
      else some otherVpc

end Requests

section Creating

structure Response where
  -- the field Return
  done : Option Bool
  securityGroupRules : Option (List AwsSecurityGroupRule)
deriving DecidableEq

structure State where
  calls : List Authorize := []
  rules : List SecurityGroupRule := []
  nextRuleId : Nat := 1
deriving DecidableEq

abbrev Authorizing := Authorize → Except Thrown Response

def save (e : SecurityGroupRule) : Prog State Thrown SecurityGroupRule := do
  let saved ← reads fun s : State => { e with id := e.id.or (some s.nextRuleId) }
  writes fun s =>
    { s with
      rules := Tables.put SecurityGroupRule.id saved s.rules
      nextRuleId := if e.id.isNone then s.nextRuleId + 1 else s.nextRuleId }
  return saved

-- one of the rules AWS has made of a rule without a protocol
def expanded (groups : Groups) (en : SecurityGroupRule) (rule : AwsSecurityGroupRule) :
    SecurityGroupRule :=
  { sgrMapper groups rule en.region with
    securityGroup := en.securityGroup
    description := en.description
    isEgress := en.isEgress
    sourceSecurityGroup := en.sourceSecurityGroup
    region := en.region }

def store (groups : Groups) (en : SecurityGroupRule) (res : Response) :
    Prog State Thrown (List SecurityGroupRule) := do
  if !Aws.truthy en.ipProtocol && en.sourceSecurityGroup.isSome then
    match res.securityGroupRules with
    | none => fail (.error "Cannot read properties of undefined")
    | some rules => do
      let out ← gather (fun rule => do return [← save (expanded groups en rule)]) rules
      writes fun s => { s with rules := s.rules.filter fun r => r.id != en.id }
      return out
  else do
    let ruleId := res.securityGroupRules.bind fun rules => rules.head?.bind (·.securityGroupRuleId)
    let saved ← save { en with securityGroupRuleId := ruleId }
    return [saved]

-- the loop ends with the first rule that is created
def createOne (aws : Authorizing) (groups : Groups) (en : SecurityGroupRule) :
    Prog State Thrown (Option (List SecurityGroupRule)) := do
  if let some err := refusal en then fail err
  let some call := request en | return none
  writes fun s => { s with calls := s.calls ++ [call] }
  match aws call with
  | .error err => fail err
  | .ok res =>
    if res.done ≠ some true ∨ res.securityGroupRules = some [] then
      fail (.error "Unable to create security group rule")
    let out ← store groups en res
    return some out

-- undefined where no rule is created
def create (aws : Authorizing) (groups : Groups) (es : List SecurityGroupRule) :
    Prog State Thrown (Option (List SecurityGroupRule)) := forOf (createOne aws groups) es

end Creating

section Turns

variable {aws : Authorizing} {groups : Groups} {en : SecurityGroupRule} {s : State} {call : Authorize}

-- what AWS answers to a request that does not fail
def Answers (aws : Authorizing) : Prop :=
  ∀ call, ∃ rule rules, aws call = .ok ⟨some true, some (rule :: rules)⟩

theorem createOne_refused {err : Thrown} (h : refusal en = some err) :
    createOne aws groups en s = (.thrown err, s) := by
  simp only [createOne, h]
  rfl

theorem createOne_skipped (h : refusal en = none) (hskip : request en = none) :
    createOne aws groups en s = (.returned none, s) := by
  simp only [createOne, h, hskip]
  rfl

theorem save_apply (e : SecurityGroupRule) (s : State) :
    ∃ saved t, save e s = (.returned saved, t) ∧ t.calls = s.calls := ⟨_, _, rfl, rfl⟩

theorem gather_save (es : List AwsSecurityGroupRule) (f : AwsSecurityGroupRule → SecurityGroupRule)
    (s : State) : ∃ out t, gather (fun rule => do return [← save (f rule)]) es s =
      (.returned out, t) ∧ t.calls = s.calls := by
  induction es generalizing s with
  | nil => exact ⟨_, _, rfl, rfl⟩
  | cons e es ih =>
    obtain ⟨saved, t, hsave, ht⟩ := save_apply (f e) s
    obtain ⟨out, u, hrest, hu⟩ := ih t
    refine ⟨[saved] ++ out, u, ?_, hu.trans ht⟩
    have hone : (do return [← save (f e)] : Prog State Thrown (List SecurityGroupRule)) s =
        (.returned [saved], t) := bind_of_returned hsave
    rw [gather, bind_of_returned hone, bind_of_returned hrest]
    rfl

theorem store_apply (en : SecurityGroupRule) (done : Option Bool) (rules : List AwsSecurityGroupRule)
    (s : State) : ∃ out t, store groups en ⟨done, some rules⟩ s = (.returned out, t) ∧
      t.calls = s.calls := by
  unfold store
  split
  · obtain ⟨out, t, hgather, ht⟩ := gather_save rules (expanded groups en) s
    exact ⟨out, _, bind_of_returned hgather, ht⟩
  · exact ⟨_, _, rfl, rfl⟩

theorem createOne_called (haws : Answers aws) (h : refusal en = none) (hcall : request en = some call) :
    ∃ out t, createOne aws groups en s = (.returned (some out), t) ∧ t.calls = s.calls ++ [call] := by
  obtain ⟨rule, rules, hres⟩ := haws call
  obtain ⟨out, t, hstore, ht⟩ := @store_apply groups en (some true) (rule :: rules)
    { s with calls := s.calls ++ [call] }
  refine ⟨out, t, ?_, ht⟩
  have hok : ¬ (some true ≠ some true ∨ some (rule :: rules) = some ([] : List AwsSecurityGroupRule)) := by
    simp
  simp only [createOne, h, hcall, hres]
  rw [writes_bind_apply, if_neg hok, bind_of_returned hstore]
  rfl

end Turns

end Iasql.SecurityGroupRules
