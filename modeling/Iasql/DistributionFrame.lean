import Iasql.Comparators

namespace Iasql.Cloudfront

open Aws AwsDiff

section Reads

-- what AWS keeps of a distribution besides what the update knows of
structure AwsConfig extends DistributionConfig where
  -- of the viewer certificate
  iamCertificateId : Option String := none
  continuousDeploymentPolicyId : Option String := none
  staging : Bool := false

def truthyField (o : JsObject) (key : String) : Bool := (field o key).any fun v => Codepipeline.truthyJson v.json

-- CloudFront stores no distribution without them
structure StoredConfig where
  config : AwsConfig
  targetOriginId : truthyField config.defaultCacheBehavior "TargetOriginId" = true
  viewerProtocolPolicy : truthyField config.defaultCacheBehavior "ViewerProtocolPolicy" = true

def transformDefaultCacheBehavior (cache : JsObject) : Option JsObject :=
  if truthyField cache "TargetOriginId" && truthyField cache "ViewerProtocolPolicy" then
    some (.ofList [(js "TargetOriginId", field cache "TargetOriginId"),
      (js "ViewerProtocolPolicy", field cache "ViewerProtocolPolicy"),
      (js "CachePolicyId", field cache "CachePolicyId")])
  else none

def transformOrigins (origins : List Origin) : List Origin := origins

structure GetDistribution where
  id : Option String
  eTag : Option String := none
  status : Option String := none
  domainName : Option String := none
  distributionConfig : StoredConfig

def DistributionConfig.acmCertificateArn (c : DistributionConfig) : Option String :=
  (c.viewerCertificate.bind (·.acmCertificateArn)).filter (· != "")

-- certificate: the row with an arn, or the certificate that the cloud has under it
def distributionMapper (certificate : String → Option Certificate) (distribution : GetDistribution) : Distribution :=
  let c := distribution.distributionConfig.config
  { callerReference := c.callerReference
    comment := c.comment
    distributionId := distribution.id
    enabled := c.enabled
    isIPV6Enabled := c.isIPV6Enabled
    webACLId := c.webACLId
    eTag := distribution.eTag
    status := distribution.status
    domainName := distribution.domainName
    customSslCertificate := c.acmCertificateArn.bind certificate
    alternateDomainNames := some c.aliases
    defaultCacheBehavior := (transformDefaultCacheBehavior c.defaultCacheBehavior).getD ∅
    origins := transformOrigins c.origins }

-- the fields that the request leaves out are undefined in it
def getDistributionConfigForUpdate (current : Option AwsConfig) (e : Distribution) : Except String AwsConfig :=
  match current with
  | none => .error "Cannot update a distribution without config"
  | some current => .ok { updateConfig current.toDistributionConfig e with }

end Reads

section Frame

-- a certificate id that is undefined or empty is none
def certificateOf (c : AwsConfig) : Option (Bool × Option String × Option String × String × String) :=
  c.viewerCertificate.map fun v =>
    (v.cloudFrontDefaultCertificate, c.acmCertificateArn, c.iamCertificateId.filter (· != ""),
      v.minimumProtocolVersion, v.sslSupportMethod)

-- every field is as it was, but for those of the columns in which e differs from what was read
structure Keeps (c req : AwsConfig) (read e : Distribution) : Prop where
  callerReference : e.callerReference = read.callerReference → req.callerReference = c.callerReference
  comment : e.comment = read.comment → req.comment = c.comment
  enabled : e.enabled = read.enabled → req.enabled = c.enabled
  isIPV6Enabled : e.isIPV6Enabled = read.isIPV6Enabled → req.isIPV6Enabled = c.isIPV6Enabled
  webACLId : e.webACLId = read.webACLId → req.webACLId = c.webACLId
  origins : e.origins = read.origins → req.origins = c.origins
  aliases : e.alternateDomainNames = read.alternateDomainNames → req.aliases = c.aliases
  defaultCacheBehavior : e.defaultCacheBehavior = read.defaultCacheBehavior →
    ∀ key, (req.defaultCacheBehavior.get? key).join = (c.defaultCacheBehavior.get? key).join
  otherBehavior : ∀ key, key ∉ [js "CachePolicyId", js "TargetOriginId", js "ViewerProtocolPolicy"] →
    (req.defaultCacheBehavior.get? key).join = (c.defaultCacheBehavior.get? key).join
  viewerCertificate : e.customSslCertificate = read.customSslCertificate → certificateOf req = certificateOf c
  continuousDeploymentPolicyId :
    req.continuousDeploymentPolicyId.filter (· != "") = c.continuousDeploymentPolicyId.filter (· != "")
  staging : req.staging = c.staging
  rest : req.rest = c.rest

-- the certificate is the one that the update writes: the default one, or one of ACM that is found
structure WrittenCertificate (certificate : String → Option Certificate) (c : AwsConfig) (v : ViewerCertificate) : Prop where
  iamCertificateId : c.iamCertificateId.filter (· != "") = none
  minimumProtocolVersion : v.minimumProtocolVersion = "TLSv1.2_2021"
  sslSupportMethod : v.sslSupportMethod = "sni-only"
  default : v.cloudFrontDefaultCertificate = true ↔ c.acmCertificateArn = none
  found : ∀ arn, c.acmCertificateArn = some arn → (certificate arn).bind (·.arn) = some arn

structure Modelled (certificate : String → Option Certificate) (d : GetDistribution) (e : Distribution) : Prop where
  continuousDeploymentPolicyId : d.distributionConfig.config.continuousDeploymentPolicyId.filter (· != "") = none
  staging : d.distributionConfig.config.staging = false
  viewerCertificate : e.customSslCertificate = (distributionMapper certificate d).customSslCertificate →
    ∃ v, d.distributionConfig.config.viewerCertificate = some v ∧
      WrittenCertificate certificate d.distributionConfig.config v

end Frame

section Overwrites

variable {certificate : String → Option Certificate} {d : GetDistribution} {e : Distribution} {c req : AwsConfig}

theorem get?_mergeBehavior (current behavior : JsObject) (key : JsString) :
    ((mergeBehavior current behavior).get? key).join =
      if key = js "ViewerProtocolPolicy" then field behavior "ViewerProtocolPolicy"
      else if key = js "TargetOriginId" then field behavior "TargetOriginId"
      else if key = js "CachePolicyId" then field behavior "CachePolicyId"
      else (current.get? key).join := by
  unfold mergeBehavior
  split
  · next h => rw [h, Dict.get?_set_self, Option.join_some]
  · next h =>
    rw [Dict.get?_set_ne h]
    split
    · next h => rw [h, Dict.get?_set_self, Option.join_some]
    · next h =>
      rw [Dict.get?_set_ne h]
      split
      · next h => rw [h, Dict.get?_set_self, Option.join_some]
      · next h => rw [Dict.get?_set_ne h]

theorem field_transformDefaultCacheBehavior (stored : StoredConfig) {key : String}
    (hkey : key = "TargetOriginId" ∨ key = "ViewerProtocolPolicy" ∨ key = "CachePolicyId") :
    field ((transformDefaultCacheBehavior stored.config.defaultCacheBehavior).getD ∅) key =
      field stored.config.defaultCacheBehavior key := by
  rw [transformDefaultCacheBehavior, stored.targetOriginId, stored.viewerProtocolPolicy, Bool.and_self,
    if_pos rfl, Option.getD_some]
  have hmem : (js key, field stored.config.defaultCacheBehavior key) ∈
      [(js "TargetOriginId", field stored.config.defaultCacheBehavior "TargetOriginId"),
        (js "ViewerProtocolPolicy", field stored.config.defaultCacheBehavior "ViewerProtocolPolicy"),
        (js "CachePolicyId", field stored.config.defaultCacheBehavior "CachePolicyId")] := by
    rcases hkey with rfl | rfl | rfl <;> simp
  have hnodup : (OrderedMap.keys [(js "TargetOriginId", field stored.config.defaultCacheBehavior "TargetOriginId"),
      (js "ViewerProtocolPolicy", field stored.config.defaultCacheBehavior "ViewerProtocolPolicy"),
      (js "CachePolicyId", field stored.config.defaultCacheBehavior "CachePolicyId")]).Nodup := by
    change [js "TargetOriginId", js "ViewerProtocolPolicy", js "CachePolicyId"].Nodup
    decide
  rw [field, Dict.get?_eq_some.mpr ((Dict.entries_ofList hnodup).symm ▸ hmem), Option.join_some]

theorem get?_mergeBehavior_stored (stored : StoredConfig) (key : JsString) :
    ((mergeBehavior stored.config.defaultCacheBehavior
      ((transformDefaultCacheBehavior stored.config.defaultCacheBehavior).getD ∅)).get? key).join =
      (stored.config.defaultCacheBehavior.get? key).join := by
  rw [get?_mergeBehavior]
  split
  · next h => rw [field_transformDefaultCacheBehavior stored (.inr (.inl rfl)), h, field]
  · split
    · next h => rw [field_transformDefaultCacheBehavior stored (.inl rfl), h, field]
    · split
      · next h => rw [field_transformDefaultCacheBehavior stored (.inr (.inr rfl)), h, field]
      · rfl

theorem certificateArn_ne_empty {arn : String} (h : e.certificateArn = some arn) : arn ≠ "" := by
  have hfilter := (Option.filter_eq_some_iff.mp h).2
  simpa using hfilter

theorem certificateOf_update (hreq : getDistributionConfigForUpdate (some c) e = .ok req) :
    certificateOf req = some (e.certificateArn.isNone, e.certificateArn, none, "TLSv1.2_2021", "sni-only") := by
  cases hreq
  cases harn : e.certificateArn with
  | none => simp [certificateOf, DistributionConfig.acmCertificateArn, updateConfig, harn]
  | some arn =>
    have hne := certificateArn_ne_empty harn
    simp [certificateOf, DistributionConfig.acmCertificateArn, updateConfig, harn, customCertificate, hne]

-- the entity keeps the certificate that was read: it is the one of ACM, where that was found
theorem certificateArn_of_read (hread : e.customSslCertificate = c.acmCertificateArn.bind certificate) :
    e.certificateArn = (c.acmCertificateArn.bind fun arn => (certificate arn).bind (·.arn)).filter (· != "") := by
  rw [Distribution.certificateArn, hread, Option.bind_assoc]

theorem found_iff : (c.acmCertificateArn.bind fun arn => (certificate arn).bind (·.arn)).filter (· != "") =
    c.acmCertificateArn ↔ ∀ arn, c.acmCertificateArn = some arn → (certificate arn).bind (·.arn) = some arn := by
  cases harn : c.acmCertificateArn with
  | none => exact iff_of_true rfl nofun
  | some arn =>
    have hne : (arn != "") = true := (Option.filter_eq_some_iff.mp harn).2
    rw [Option.bind_some]
    constructor
    · rintro h _ ⟨⟩
      exact (Option.filter_eq_some_iff.mp h).1
    · intro h
      exact Option.filter_eq_some_iff.mpr ⟨h arn rfl, hne⟩

theorem certificateOf_update_iff (hreq : getDistributionConfigForUpdate (some c) e = .ok req)
    (hread : e.customSslCertificate = c.acmCertificateArn.bind certificate) :
    certificateOf req = certificateOf c ↔ ∃ v, c.viewerCertificate = some v ∧ WrittenCertificate certificate c v := by
  rw [certificateOf_update hreq, certificateArn_of_read hread, certificateOf]
  cases c.viewerCertificate with
  | none => exact iff_of_false nofun fun ⟨v, hv, _⟩ => (nomatch hv)
  | some v =>
    rw [Option.map_some, Option.some.injEq]
    constructor
    · intro h
      obtain ⟨hdefault, harn, hiam, hversion, hmethod⟩ := by simpa only [Prod.mk.injEq] using h
      refine ⟨v, rfl, hiam.symm, hversion.symm, hmethod.symm, ?_, found_iff.mp harn⟩
      rw [← hdefault, harn, Option.isNone_iff_eq_none]
    · rintro ⟨_, ⟨⟩, hiam, hversion, hmethod, hdefault, hfound⟩
      rw [found_iff.mpr hfound, hiam, hversion, hmethod, Bool.eq_iff_iff.mpr (hdefault.trans Option.isNone_iff_eq_none.symm)]

theorem keeps_iff_modelled : ∃ req, getDistributionConfigForUpdate (some d.distributionConfig.config) e = .ok req ∧
    (Keeps d.distributionConfig.config req (distributionMapper certificate d) e ↔ Modelled certificate d e) := by
  refine ⟨_, rfl, fun h => ⟨h.continuousDeploymentPolicyId.symm, h.staging.symm, fun hread => ?_⟩, fun h => ?_⟩
  · exact (certificateOf_update_iff rfl hread).mp (h.viewerCertificate hread)
  · refine
      { callerReference := id
        comment := id
        enabled := id
        isIPV6Enabled := id
        webACLId := id
        origins := id
        aliases := fun haliases => ?_
        defaultCacheBehavior := fun hbehavior key => ?_
        otherBehavior := fun key hkey => ?_
        viewerCertificate := fun hread => (certificateOf_update_iff rfl hread).mpr (h.viewerCertificate hread)
        continuousDeploymentPolicyId := h.continuousDeploymentPolicyId.symm
        staging := h.staging.symm
        rest := rfl }
    · exact congrArg (Option.getD · []) haliases
    · refine Eq.trans ?_ (get?_mergeBehavior_stored d.distributionConfig key)
      exact congrArg (fun b => ((mergeBehavior d.distributionConfig.config.defaultCacheBehavior b).get? key).join) hbehavior
    · refine (get?_mergeBehavior _ _ key).trans ?_
      simp only [List.mem_cons, List.not_mem_nil, or_false, not_or] at hkey
      rw [if_neg hkey.2.2, if_neg hkey.2.1, if_neg hkey.1]

def textValue (text : String) : Value := ⟨.str (js text), rfl⟩

def siteBehavior : JsObject :=
  .ofList [(js "TargetOriginId", some (textValue "site")), (js "ViewerProtocolPolicy", some (textValue "https-only"))]

def storedSite (v : ViewerCertificate) (iamCertificateId : Option String) : StoredConfig where
  config :=
    { callerReference := some "site"
      comment := some ""
      enabled := some true
      isIPV6Enabled := some false
      webACLId := some ""
      origins := [{ id := some "site", domainName := some "site.example.com" }]
      defaultCacheBehavior := siteBehavior
      aliases := ["example.com"]
      viewerCertificate := some v
      iamCertificateId }
  targetOriginId := by
    change truthyField siteBehavior "TargetOriginId" = true
    decide +kernel
  viewerProtocolPolicy := by
    change truthyField siteBehavior "ViewerProtocolPolicy" = true
    decide +kernel

def olderTls : GetDistribution where
  id := some "E1"
  distributionConfig := storedSite { customCertificate "arn:acm" with minimumProtocolVersion := "TLSv1.1_2016" } none

def ofIam : GetDistribution where
  id := some "E2"
  distributionConfig := storedSite { cloudFrontDefaultCertificate := false } (some "iam-1")

def knownCertificate (arn : String) : Option Certificate := some ⟨some arn⟩

-- nothing is edited but enabled: the minimum version is raised, and the certificate of IAM replaced by the default one
theorem certificates_overwritten :
    (∃ req, getDistributionConfigForUpdate (some olderTls.distributionConfig.config)
        { distributionMapper knownCertificate olderTls with enabled := some false } = .ok req ∧
      req.viewerCertificate = some (customCertificate "arn:acm") ∧
      ¬ Keeps olderTls.distributionConfig.config req (distributionMapper knownCertificate olderTls)
        { distributionMapper knownCertificate olderTls with enabled := some false }) ∧
    ∃ req, getDistributionConfigForUpdate (some ofIam.distributionConfig.config)
        { distributionMapper knownCertificate ofIam with enabled := some false } = .ok req ∧
      req.viewerCertificate = some { cloudFrontDefaultCertificate := true } ∧
      ¬ Keeps ofIam.distributionConfig.config req (distributionMapper knownCertificate ofIam)
        { distributionMapper knownCertificate ofIam with enabled := some false } := by
  refine ⟨⟨_, rfl, by decide +kernel, fun h => ?_⟩, ⟨_, rfl, by decide +kernel, fun h => ?_⟩⟩
  · exact absurd (h.viewerCertificate rfl) (by decide +kernel)
  · exact absurd (h.viewerCertificate rfl) (by decide +kernel)

end Overwrites

end Iasql.Cloudfront
