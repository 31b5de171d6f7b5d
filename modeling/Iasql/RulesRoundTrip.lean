import Iasql.SecurityGroupRules

namespace Iasql.SecurityGroupRules

open Aws

-- one rule for each range and prefix list, with the protocol and ports of the permission
def expandOne (call : Authorize) (p : IpPermission) : List AwsSecurityGroupRule :=
  let rule : AwsSecurityGroupRule :=
    { groupId := call.groupId, isEgress := some call.isEgress, ipProtocol := p.ipProtocol
      fromPort := p.fromPort, toPort := p.toPort }
  ((p.ipRanges.getD []).map fun r =>
      { rule with cidrIpv4 := some r.cidrIp, description := r.description }) ++
    ((p.ipv6Ranges.getD []).map fun r =>
      { rule with cidrIpv6 := some r.cidrIpv6, description := r.description }) ++
    (p.prefixListIds.getD []).map fun id => { rule with prefixListId := some id }

-- AWS names the rules it makes
def expand (ruleId : AwsSecurityGroupRule → Option String) (call : Authorize) :
    List AwsSecurityGroupRule :=
  ((call.ipPermissions.getD []).flatMap (expandOne call)).map fun rule =>
    { rule with securityGroupRuleId := ruleId rule }

def RoundTrips (groups : Groups) (ruleId : AwsSecurityGroupRule → Option String)
    (en : SecurityGroupRule) (call : Authorize) : Prop :=
  ∃ rule, (expand ruleId call).map (sgrMapper groups · en.region) = [rule] ∧ equals en rule = true

-- one range and nothing that counts as false but is not undefined
structure Plain (en : SecurityGroupRule) : Prop where
  range : Aws.truthy en.cidrIpv4 = true ∧ en.cidrIpv6 = none ∨
    en.cidrIpv4 = none ∧ Aws.truthy en.cidrIpv6 = true
  fromPort : en.fromPort ≠ some 0
  toPort : en.toPort ≠ some 0
  prefixListId : en.prefixListId = none
  description : en.description ≠ some ""

section Given

variable {text : Option String} {t : String} {port : Option Int}

theorem given_of_truthy (h : Aws.truthy text = true) : given text = text := if_pos h

theorem given_eq_none : given text = none ↔ Aws.truthy text = false := by
  cases text with
  | none => simp [given, Aws.truthy]
  | some t => cases h : Aws.truthy (some t) <;> simp [given, h]

theorem eq_given_iff : text = given text ↔ text ≠ some "" := by
  cases text with
  | none => simp [given]
  | some t => by_cases h : t = "" <;> simp [given, Aws.truthy, h]

theorem eq_givenPort_iff : port = givenPort port ↔ port ≠ some 0 := by
  cases port with
  | none => simp [givenPort]
  | some p => by_cases h : p = 0 <;> simp [givenPort, h]

end Given

section RoundTrip

variable {groups : Groups} {ruleId : AwsSecurityGroupRule → Option String} {en : SecurityGroupRule}
  {call : Authorize} {sgr : AwsSecurityGroupRule}

-- the comparison with a rule that refers to no group
theorem equals_sgrMapper (hsource : en.sourceSecurityGroup = none)
    (hreferenced : sgr.referencedGroupId = none) (region : String) :
    equals en (sgrMapper groups sgr region) = true ↔
      (en.isEgress = sgr.isEgress.getD false ∧ en.ipProtocol = some (sgr.ipProtocol.getD "")) ∧
      (en.fromPort = sgr.fromPort ∧ en.toPort = sgr.toPort) ∧
      (en.cidrIpv4 = sgr.cidrIpv4 ∧ en.cidrIpv6 = sgr.cidrIpv6) ∧
      en.prefixListId = sgr.prefixListId ∧ en.description = sgr.description := by
  simp [equals, sgrMapper, hsource, hreferenced, Aws.truthy, and_assoc]

def rangeCall (en : SecurityGroupRule) : Authorize where
  region := en.region
  isEgress := en.isEgress
  groupId := groupId en
  ipPermissions := some [newRule en]

theorem request_of_range (hsource : en.sourceSecurityGroup = none) (h : request en = some call) :
    (Aws.truthy en.cidrIpv4 || Aws.truthy en.cidrIpv6) = true ∧ call = rangeCall en := by
  rw [request, hsource] at h
  dsimp only at h
  split at h
  · next hrange => exact ⟨hrange, (Option.some.inj h).symm⟩
  · cases h

def described (en : SecurityGroupRule) : AwsSecurityGroupRule where
  groupId := groupId en
  isEgress := some en.isEgress
  ipProtocol := given en.ipProtocol
  fromPort := givenPort en.fromPort
  toPort := givenPort en.toPort

-- what AWS makes of a rule, range by range
def made (en : SecurityGroupRule) : List AwsSecurityGroupRule :=
  (given en.cidrIpv4).toList.map (fun cidr =>
      { described en with cidrIpv4 := some cidr, description := given en.description }) ++
    (given en.cidrIpv6).toList.map (fun cidr =>
      { described en with cidrIpv6 := some cidr, description := given en.description }) ++
    (given en.prefixListId).toList.map fun id => { described en with prefixListId := some id }

theorem expand_of_range (hsource : en.sourceSecurityGroup = none) (h : request en = some call) :
    expand ruleId call = (made en).map fun rule => { rule with securityGroupRuleId := ruleId rule } := by
  obtain ⟨-, rfl⟩ := request_of_range hsource h
  have hone : expandOne (rangeCall en) (newRule en) = made en := by
    unfold made expandOne newRule
    cases given en.cidrIpv4 <;> cases given en.cidrIpv6 <;> cases given en.prefixListId <;> rfl
  have hpermissions : (rangeCall en).ipPermissions.getD [] = [newRule en] := rfl
  rw [expand, hpermissions, List.flatMap_singleton, hone]

theorem roundTrips_made (hsource : en.sourceSecurityGroup = none) (h : request en = some call) :
    RoundTrips groups ruleId en call ↔ ∃ rule, made en = [rule] ∧
      equals en (sgrMapper groups { rule with securityGroupRuleId := ruleId rule } en.region) = true := by
  rw [RoundTrips, expand_of_range hsource h, List.map_map]
  constructor
  · rintro ⟨out, hout, hequals⟩
    obtain ⟨rule, hrule, rfl⟩ := List.map_eq_singleton_iff.mp hout
    exact ⟨rule, hrule, hequals⟩
  · rintro ⟨rule, hrule, hequals⟩
    exact ⟨_, by rw [hrule]; rfl, hequals⟩

-- the rule AWS makes of a range is compared with the rule column by column
theorem equals_ranged_iff (hsource : en.sourceSecurityGroup = none)
    (hprotocol : Aws.truthy en.ipProtocol = true) (id cidrIpv4 cidrIpv6 : Option String) (region : String) :
    equals en (sgrMapper groups
        { described en with
          securityGroupRuleId := id
          cidrIpv4
          cidrIpv6
          description := given en.description } region) = true ↔
      (en.fromPort ≠ some 0 ∧ en.toPort ≠ some 0) ∧
      (en.cidrIpv4 = cidrIpv4 ∧ en.cidrIpv6 = cidrIpv6) ∧
      en.prefixListId = none ∧ en.description ≠ some "" := by
  have hpresent : en.ipProtocol = some ((given en.ipProtocol).getD "") := by
    cases htext : en.ipProtocol with
    | none =>
      rw [htext] at hprotocol
      cases hprotocol
    | some t =>
      rw [htext] at hprotocol
      rw [given_of_truthy hprotocol]
      rfl
  rw [equals_sgrMapper hsource rfl, ← eq_givenPort_iff, ← eq_givenPort_iff, ← eq_given_iff]
  exact and_iff_right ⟨rfl, hpresent⟩

theorem truthy_of_accepted_range (haccepted : refusal en = none)
    (hsource : en.sourceSecurityGroup = none) : Aws.truthy en.ipProtocol = true := by
  rw [refusal, hsource] at haccepted
  split at haccepted
  · cases haccepted
  · dsimp only at haccepted
    split at haccepted
    · assumption
    · cases haccepted

-- exactly one rule is made of exactly one range and no prefix list
theorem made_eq_singleton_iff {rule : AwsSecurityGroupRule}
    (hrange : (Aws.truthy en.cidrIpv4 || Aws.truthy en.cidrIpv6) = true) :
    made en = [rule] ↔
      (given en.prefixListId = none ∧ (given en.cidrIpv4 = none ∨ given en.cidrIpv6 = none)) ∧
      { described en with
        cidrIpv4 := given en.cidrIpv4
        cidrIpv6 := given en.cidrIpv6
        description := given en.description } = rule := by
  cases h4 : given en.cidrIpv4 with
  | none =>
    cases h6 : given en.cidrIpv6 with
    | none =>
      rw [given_eq_none.mp h4, given_eq_none.mp h6] at hrange
      cases hrange
    | some cidr => cases hp : given en.prefixListId <;> simp [made, h4, h6, hp, described]
  | some cidr =>
    cases h6 : given en.cidrIpv6 with
    | none => cases hp : given en.prefixListId <;> simp [made, h4, h6, hp, described]
    | some cidr' => simp [made, h4, h6]

theorem range_iff (hrange : (Aws.truthy en.cidrIpv4 || Aws.truthy en.cidrIpv6) = true) :
    (given en.cidrIpv4 = none ∨ given en.cidrIpv6 = none) ∧
        en.cidrIpv4 = given en.cidrIpv4 ∧ en.cidrIpv6 = given en.cidrIpv6 ↔
      Aws.truthy en.cidrIpv4 = true ∧ en.cidrIpv6 = none ∨
        en.cidrIpv4 = none ∧ Aws.truthy en.cidrIpv6 = true := by
  rw [Bool.or_eq_true] at hrange
  constructor
  · rintro ⟨hnone | hnone, h4, h6⟩
    · rw [given_eq_none.mp hnone] at hrange
      exact .inr ⟨h4.trans hnone, hrange.resolve_left Bool.false_ne_true⟩
    · rw [given_eq_none.mp hnone] at hrange
      exact .inl ⟨hrange.resolve_right Bool.false_ne_true, h6.trans hnone⟩
  · rintro (⟨h4, h6⟩ | ⟨h4, h6⟩)
    · rw [h6, given_of_truthy h4]
      exact ⟨.inr rfl, rfl, rfl⟩
    · rw [h4, given_of_truthy h6]
      exact ⟨.inl rfl, rfl, rfl⟩

-- the request for a source group has no permission in it
theorem source_of_sent (h : request en = some call) (hsent : call.ipPermissions ≠ none) :
    en.sourceSecurityGroup = none := by
  by_contra hsource
  obtain ⟨source, hsource⟩ := Option.ne_none_iff_exists'.mp hsource
  rw [request, hsource] at h
  dsimp only at h
  split at h <;> cases h <;> exact hsent rfl

theorem roundTrips_iff (haccepted : refusal en = none) (h : request en = some call)
    (hsent : call.ipPermissions ≠ none) : RoundTrips groups ruleId en call ↔ Plain en := by
  have hsource := source_of_sent h hsent
  obtain ⟨hrange, -⟩ := request_of_range hsource h
  have hprotocol := truthy_of_accepted_range haccepted hsource
  rw [roundTrips_made hsource h]
  constructor
  · rintro ⟨rule, hmade, hequals⟩
    obtain ⟨⟨-, hone⟩, rfl⟩ := (made_eq_singleton_iff hrange).mp hmade
    obtain ⟨⟨hfrom, hto⟩, hcidrs, hranged, hdescription⟩ :=
      (equals_ranged_iff hsource hprotocol _ _ _ _).mp hequals
    exact ⟨(range_iff hrange).mp ⟨hone, hcidrs⟩, hfrom, hto, hranged, hdescription⟩
  · intro hplain
    obtain ⟨hone, hcidrs⟩ := (range_iff hrange).mpr hplain.range
    have hranged : given en.prefixListId = none := by rw [hplain.prefixListId]; rfl
    refine ⟨_, (made_eq_singleton_iff hrange).mpr ⟨⟨hranged, hone⟩, rfl⟩, ?_⟩
    exact (equals_ranged_iff hsource hprotocol _ _ _ _).mpr
      ⟨⟨hplain.fromPort, hplain.toPort⟩, hcidrs, hplain.prefixListId, hplain.description⟩

section Examples

def ruleOf (fromPort toPort : Int) : SecurityGroupRule :=
  { securityGroup := some { groupId := some "sg-1", region := some "us-east-1" }
    ipProtocol := some "tcp"
    fromPort := some fromPort
    toPort := some toPort
    cidrIpv4 := some "10.0.0.0/16"
    region := "us-east-1" }

theorem https_round_trips :
    RoundTrips ⟨fun _ => none, fun _ => none⟩ (fun _ => some "sgr-1") (ruleOf 443 443)
      (rangeCall (ruleOf 443 443)) :=
  (roundTrips_iff (by decide) (by decide) (by decide)).mpr
    ⟨by decide, by decide, by decide, rfl, by decide⟩

-- from port 0 comes back without a port
theorem low_ports_lost :
    ¬ RoundTrips ⟨fun _ => none, fun _ => none⟩ (fun _ => some "sgr-1") (ruleOf 0 1023)
      (rangeCall (ruleOf 0 1023)) := by
  rintro ⟨rule, hrule, hequals⟩
  have hdiffers : ((expand (fun _ => some "sgr-1") (rangeCall (ruleOf 0 1023))).map
      (sgrMapper ⟨fun _ => none, fun _ => none⟩ · "us-east-1")).any (equals (ruleOf 0 1023)) =
        false := by decide
  have hrule' : (expand (fun _ => some "sgr-1") (rangeCall (ruleOf 0 1023))).map
      (sgrMapper ⟨fun _ => none, fun _ => none⟩ · "us-east-1") = [rule] := hrule
  rw [hrule', List.any_cons, hequals] at hdiffers
  cases hdiffers

end Examples

end RoundTrip

end Iasql.SecurityGroupRules
