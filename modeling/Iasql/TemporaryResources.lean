import Iasql.CertificateCleanup
import Iasql.EcrBuild

namespace Iasql.TemporaryResources

open Program Prog Aws Route53

section Cleanup

-- what a build and a certificate request leave, on every way out
theorem temporary_resources_iff (build : EcrBuild.Service) (input : EcrBuild.Input) (acm : Acm.Service)
    (request : Acm.Input) (s : Acm.State) (hdns : request.validationMethod = "DNS") (hunknown : Acm.Unknown acm s) :
    ((EcrBuild.call build input {}).2.held = [] ↔
        ∀ repo, EcrBuild.Ready build input repo → EcrBuild.CleansUp build input repo) ∧
      (Acm.CleansUp acm s (Acm.call acm request s).2 ↔
        (Acm.Requested acm → (Acm.Proceeds acm request → Acm.LeavesNone acm s.records) ∧
          (acm.issued = false → Acm.Proceeds acm request ∧ Acm.Validates acm s.records ∧ Acm.Settles acm))) :=
  ⟨EcrBuild.call_leaves_none_iff build input, Acm.call_cleansUp_iff hdns hunknown⟩

end Cleanup

section Runs

def repository : EcrBuild.Repository :=
  { id := 1, region := "us-east-1", repositoryUri := some "1.dkr.ecr.us-east-1.amazonaws.com/web" }

-- a build that ends well, but for what the fault says
def buildService (fault : EcrBuild.Call → Option Thrown) : EcrBuild.Service where
  fault
  repositories := [repository]
  defaultRegion := "us-east-1"
  createdRoleArn := some "arn:aws:iam::1:role/k3x-ecr-builder-codebuild-role"
  roleArn := some (some "arn:aws:iam::1:role/k3x-ecr-builder-codebuild-role")
  project := true
  projectRead := true
  build := true
  buildRead := true
  buildMapped := true
  image := some "sha256:1"

def buildInput : EcrBuild.Input := { ecrRepositoryId := some 1, githubPersonalAccessToken := "", random := "k3x" }

def waitFails : EcrBuild.Call → Option Thrown
  | .waitForBuilds => some (.error "Waiter has timed out")
  | _ => none

def arn : String := "arn:aws:acm:us-east-1:1:certificate/1"

-- a certificate for a domain and its subdomains, which need the same record
def wildcardService (domainNames : List String) : Acm.Service where
  certificateArn := some arn
  listed _ := [some arn]
  readable _ := true
  described _ := some (domainNames.map Acm.optionFor)
  zones := some [{ hostedZoneId := some "Z1", domainName := "com." }]
  reread _ := some (Acm.validationRecord Acm.exampleZone "_x.example.com." none)
  status := some .pendingValidation
  issued_of_status := by rintro ⟨⟩

def request : Acm.Input := { validationMethod := "DNS", tags := some (.obj []) }

theorem unknown_wildcard (domainNames : List String) : Acm.Unknown (wildcardService domainNames) {} :=
  ⟨List.not_mem_nil, fun _ h => absurd h List.not_mem_nil, rfl⟩

theorem temporary_resources_cleaned :
    ((EcrBuild.call (buildService fun _ => none) buildInput {}).2.held = [] ↔
        ∀ repo, EcrBuild.Ready (buildService fun _ => none) buildInput repo →
          EcrBuild.CleansUp (buildService fun _ => none) buildInput repo) ∧
      (Acm.CleansUp (wildcardService ["example.com"]) {} (Acm.call (wildcardService ["example.com"]) request {}).2 ↔
        (Acm.Requested (wildcardService ["example.com"]) →
          (Acm.Proceeds (wildcardService ["example.com"]) request → Acm.LeavesNone (wildcardService ["example.com"]) []) ∧
          ((wildcardService ["example.com"]).issued = false → Acm.Proceeds (wildcardService ["example.com"]) request ∧
            Acm.Validates (wildcardService ["example.com"]) [] ∧ Acm.Settles (wildcardService ["example.com"])))) :=
  temporary_resources_iff _ _ _ _ _ rfl (unknown_wildcard _)

-- a build that times out keeps its role and its project, and a second domain its record and certificate
theorem temporary_resources_left :
    (EcrBuild.call (buildService waitFails) buildInput {}).2.held =
        [.role "k3x-ecr-builder-codebuild-role", .project "us-east-1" "k3x-ecr-builder"] ∧
      (Acm.call (wildcardService ["example.com", "*.example.com"]) request {}).2.certificates = [arn] ∧
      (Acm.call (wildcardService ["example.com", "*.example.com"]) request {}).2.records.length = 1 ∧
      ¬ Acm.CleansUp (wildcardService ["example.com", "*.example.com"]) {}
        (Acm.call (wildcardService ["example.com", "*.example.com"]) request {}).2 := by
  have hcertificates : (Acm.call (wildcardService ["example.com", "*.example.com"]) request {}).2.certificates = [arn] := by
    rfl
  refine ⟨rfl, hcertificates, rfl, fun h => ?_⟩
  refine (h.certificates rfl).1 ?_
  rw [hcertificates]
  exact List.mem_singleton_self _

end Runs

end Iasql.TemporaryResources
