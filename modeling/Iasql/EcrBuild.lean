import Iasql.Aws
import Iasql.Calculus.Faults

namespace Iasql.EcrBuild

open Program Prog Aws

section Operations

structure Repository where
  id : Int
  region : String
  repositoryUri : Option String
deriving DecidableEq

structure IamRole where
  roleName : String
  arn : Option String
deriving DecidableEq

structure CodebuildProject where
  projectName : String
  region : String
deriving DecidableEq

-- what a build creates for its own use
inductive Resource where
  | role (roleName : String)
  | sourceCredential (region arn : String)
  | project (region projectName : String)
deriving DecidableEq

inductive Call where
  | modules
  | readRepositories
  | codebuildClient
  | importSourceCredentials
  | iamClient
  | createRole
  | waitUntilRoleExists
  | attachRolePolicy (policyArn : String)
  | waitForAttachedRolePolicies
  | getRole
  | roleMapper
  | readRole
  | updateRole
  | newWithDefaults
  | projectClient
  | createProject
  | projectMapper
  | readProject
  | buildClient
  | startBuild
  | waitForBuilds
  | readBuild
  | buildListMapper
  | readImages
  | createImage
deriving DecidableEq

-- the answers of AWS and of the database to one build
structure Service where
  fault : Call → Option Thrown := fun _ => none
  installed : List String := ["aws_ecr", "aws_iam", "aws_codebuild"]
  repositories : List Repository
  defaultRegion : String
  credentialsArn : Option String := none
  createdRoleArn : Option String := none
  roleArn : Option (Option String) := none
  roleInDb : Bool := false
  project : Bool := false
  projectRead : Bool := false
  build : Bool := false
  buildRead : Bool := false
  buildMapped : Bool := false
  image : Option String := none

-- ecrRepositoryId: parseInt of the text; random: the first part of the names
structure Input where
  ecrRepositoryId : Option Int
  githubPersonalAccessToken : String
  random : String

-- the resources that the build has created and not removed
structure State where
  held : List Resource := []
deriving DecidableEq

variable (svc : Service) (input : Input)

def noIam : Thrown :=
  .error "ecr_build needs \"aws_iam\" module installed to be able to create a codebuild project"

def noCodebuild : Thrown :=
  .error "ecr_build needs \"aws_codebuild\" module installed to build and push your image"

def noRepository : Thrown := .error "Can't find ecr repository"

def noUri : Thrown := .error "Ecr repository does not have URI set. Try to first initialize it."

def noCredential : Thrown := .error "Error importing source credentials"

def noRoleArn : Thrown := .error "should not be possible"

def noProject : Thrown := .error "Couldn't create CodeBuild project"

def buildFailed : Thrown := .error "Error when starting codebuild project"

def noImage : Thrown := .error "Can't push the image to ECR"

def noRole : Thrown := .error "Cannot read properties of undefined (reading 'arn')"

def policies : List String :=
  ["arn:aws:iam::aws:policy/CloudWatchLogsFullAccess", "arn:aws:iam::aws:policy/AWSCodeBuildAdminAccess",
    "arn:aws:iam::aws:policy/AWSCodeStarFullAccess", "arn:aws:iam::aws:policy/AmazonEC2ContainerRegistryFullAccess"]

def ensureModules : Prog State Thrown Unit := do
  check (svc.fault .modules)
  if "aws_iam" ∉ svc.installed then fail noIam
  else if "aws_codebuild" ∉ svc.installed then fail noCodebuild
  else return ()

def getEcrRepoById : Prog State Thrown Repository := do
  check (svc.fault .readRepositories)
  match svc.repositories.find? (some ·.id == input.ecrRepositoryId) with
  | none => fail noRepository
  | some repository => if Aws.truthy repository.repositoryUri then return repository else fail noUri

def hold (r : Resource) (s : State) : State := { s with held := s.held ++ [r] }

def release (r : Resource) (s : State) : State := { s with held := s.held.filter (· ≠ r) }

def importSourceCredential (region : String) : Prog State Thrown String := do
  check (svc.fault .codebuildClient)
  check (svc.fault .importSourceCredentials)
  writes (hold (.sourceCredential region (svc.credentialsArn.getD "")))
  if Aws.truthy svc.credentialsArn then return svc.credentialsArn.getD "" else fail noCredential

-- the trust policy is for CodeBuild alone, so there is no instance profile
def createServiceRole : Prog State Thrown (Option IamRole) := do
  let roleName := input.random ++ "-ecr-builder-codebuild-role"
  check (svc.fault .iamClient)
  check (svc.fault .createRole)
  writes (hold (.role roleName))
  if Aws.truthy svc.createdRoleArn then do
    check (svc.fault .waitUntilRoleExists)
    each (fun policyArn => check (svc.fault (.attachRolePolicy policyArn))) policies
    check (svc.fault .waitForAttachedRolePolicies)
    check (svc.fault .getRole)
    match svc.roleArn with
    | none => return none
    | some arn => do
      check (svc.fault .roleMapper)
      check (svc.fault .readRole)
      runIf svc.roleInDb (check (svc.fault .updateRole))
      return some ⟨roleName, arn⟩
  else fail noRoleArn

def createCodebuildProject (region : String) : Prog State Thrown CodebuildProject := do
  let projectName := input.random ++ "-ecr-builder"
  check (svc.fault .newWithDefaults)
  check (svc.fault .projectClient)
  check (svc.fault .createProject)
  writes (hold (.project region projectName))
  if svc.project then do
    check (svc.fault .projectMapper)
    return ⟨projectName, region⟩
  else fail noProject

-- the status of the row that is returned
def startBuild : Prog State Thrown String := do
  check (svc.fault .readProject)
  if !svc.projectRead then return "Codebuild project not found"
  else do
    check (svc.fault .buildClient)
    check (svc.fault .startBuild)
    if !svc.build then return "KO"
    else do
      check (svc.fault .waitForBuilds)
      check (svc.fault .readBuild)
      if !svc.buildRead then return "KO"
      else do
        check (svc.fault .buildListMapper)
        if svc.buildMapped then return "OK" else return "KO"

def getCreatedEcrImage : Prog State Thrown String := do
  check (svc.fault .readImages)
  match svc.image with
  | some imageId => return imageId
  | none => fail noImage

-- a service role is restored, and one without an arn is left alone
def deleteRole (role : Option IamRole) : Prog State Thrown Unit :=
  match role with
  | none => fail noRole
  | some role =>
    if Aws.truthy role.arn && !includes ":role/aws-service-role/" (role.arn.getD "") then
      writes (release (.role role.roleName))
    else return ()

-- the credential is given without its region
def cleanUp (role : Option IamRole) (credentialsArn : String) (codeBuildProject : CodebuildProject) :
    Prog State Thrown Unit := do
  deleteRole role
  runIf (input.githubPersonalAccessToken ≠ "")
    (writes (release (.sourceCredential svc.defaultRegion credentialsArn)))
  writes (release (.project codeBuildProject.region codeBuildProject.projectName))

def buildImage (region : String) (credentialsArn : String) : Prog State Thrown String := do
  let role ← createServiceRole svc input
  let codeBuildProject ← createCodebuildProject svc input region
  let status ← startBuild svc
  if status ≠ "OK" then fail buildFailed
  else do
    let createdImage ← getCreatedEcrImage svc
    check (svc.fault .createImage)
    cleanUp svc input role credentialsArn codeBuildProject
    return createdImage

def call : Prog State Thrown String := do
  ensureModules svc
  let ecrRepository ← getEcrRepoById svc input
  if input.githubPersonalAccessToken ≠ "" then do
    let credentialsArn ← importSourceCredential svc ecrRepository.region
    buildImage svc input ecrRepository.region credentialsArn
  else buildImage svc input ecrRepository.region ""

end Operations

section Steps

variable {svc : Service} {input : Input} {s : State} {repo : Repository} {region : String}

-- the modules and the repository are there
structure Ready (svc : Service) (input : Input) (repo : Repository) : Prop where
  modules : svc.fault .modules = none
  installed : "aws_iam" ∈ svc.installed ∧ "aws_codebuild" ∈ svc.installed
  read : svc.fault .readRepositories = none
  found : svc.repositories.find? (some ·.id == input.ecrRepositoryId) = some repo
  uri : Aws.truthy repo.repositoryUri = true

def ImportsCredential (svc : Service) : Prop :=
  svc.fault .codebuildClient = none ∧ svc.fault .importSourceCredentials = none

def CreatesRole (svc : Service) : Prop := svc.fault .iamClient = none ∧ svc.fault .createRole = none

-- nothing goes wrong after the role is created
structure RoleSteps (svc : Service) : Prop where
  arn : Aws.truthy svc.createdRoleArn = true
  waits : svc.fault .waitUntilRoleExists = none
  policies : ∀ policyArn ∈ policies, svc.fault (.attachRolePolicy policyArn) = none
  attached : svc.fault .waitForAttachedRolePolicies = none
  read : svc.fault .getRole = none
  mapped : svc.roleArn ≠ none →
    svc.fault .roleMapper = none ∧ svc.fault .readRole = none ∧ (svc.roleInDb = true → svc.fault .updateRole = none)

structure ProjectSteps (svc : Service) : Prop where
  defaults : svc.fault .newWithDefaults = none
  client : svc.fault .projectClient = none
  creates : svc.fault .createProject = none
  project : svc.project = true
  mapped : svc.fault .projectMapper = none

structure BuildSteps (svc : Service) : Prop where
  read : svc.fault .readProject = none ∧ svc.projectRead = true
  starts : svc.fault .buildClient = none ∧ svc.fault .startBuild = none ∧ svc.build = true
  waits : svc.fault .waitForBuilds = none
  status : svc.fault .readBuild = none ∧ svc.buildRead = true
  mapped : svc.fault .buildListMapper = none ∧ svc.buildMapped = true

structure ImageSteps (svc : Service) : Prop where
  read : svc.fault .readImages = none ∧ svc.image ≠ none
  creates : svc.fault .createImage = none

-- the program throws and has removed nothing
def Throws {α : Type} (p : Prog State Thrown α) (s : State) : Prop :=
  ∃ e t, p s = (.thrown e, t) ∧ s.held ⊆ t.held

theorem Throws.bind {α β : Type} {p : Prog State Thrown α} {k : α → Prog State Thrown β} (h : Throws p s) :
    Throws (p >>= k) s := by
  obtain ⟨e, t, hrun, hheld⟩ := h
  exact ⟨e, t, bind_of_thrown hrun, hheld⟩

theorem Throws.after {α β : Type} {p : Prog State Thrown α} {k : α → Prog State Thrown β} {a : α} {t : State}
    (hrun : p s = (.returned a, t)) (hheld : s.held ⊆ t.held) (h : Throws (k a) t) : Throws (p >>= k) s := by
  obtain ⟨e, u, hrest, hheld'⟩ := h
  exact ⟨e, u, (bind_of_returned hrun).trans hrest, List.Subset.trans hheld hheld'⟩

theorem throws_fail {α : Type} (e : Thrown) : Throws (fail e : Prog State Thrown α) s :=
  ⟨e, s, rfl, List.Subset.refl _⟩

theorem held_hold (r : Resource) : s.held ⊆ (hold r s).held := List.subset_append_left _ _

theorem throws_check_bind {α : Type} {fault : Option Thrown} {k : Unit → Prog State Thrown α}
    (h : fault = none → Throws (k ()) s) : Throws (check fault >>= k) s := by
  cases fault with
  | none => exact h rfl
  | some e => exact ⟨e, s, rfl, List.Subset.refl _⟩

theorem call_of_not_ready (h : ∀ repo, ¬ Ready svc input repo) : (call svc input s).2 = s := by
  rw [call, ensureModules, bind_assoc_apply]
  cases hmodules : svc.fault .modules with
  | some e => rfl
  | none =>
    rw [check_none_bind]
    by_cases hiam : "aws_iam" ∈ svc.installed
    · by_cases hcodebuild : "aws_codebuild" ∈ svc.installed
      · rw [if_neg (not_not.mpr hiam), if_neg (not_not.mpr hcodebuild), pure_bind_apply, getEcrRepoById,
          bind_assoc_apply]
        cases hread : svc.fault .readRepositories with
        | some e => rfl
        | none =>
          rw [check_none_bind]
          cases hfound : svc.repositories.find? (some ·.id == input.ecrRepositoryId) with
          | none => rfl
          | some repo =>
            have huri : ¬ Aws.truthy repo.repositoryUri = true := fun huri =>
              h repo ⟨hmodules, ⟨hiam, hcodebuild⟩, hread, hfound, huri⟩
            dsimp only
            rw [if_neg huri]
            rfl
      · rw [if_neg (not_not.mpr hiam), if_pos hcodebuild]
        rfl
    · rw [if_pos hiam]
      rfl

theorem call_of_ready (h : Ready svc input repo) : call svc input s =
    (if input.githubPersonalAccessToken ≠ "" then
      importSourceCredential svc repo.region >>= buildImage svc input repo.region
    else buildImage svc input repo.region "") s := by
  obtain ⟨hmodules, ⟨hiam, hcodebuild⟩, hread, hfound, huri⟩ := h
  rw [call, ensureModules, hmodules, bind_assoc_apply, check_none_bind, if_neg (not_not.mpr hiam),
    if_neg (not_not.mpr hcodebuild), pure_bind_apply, getEcrRepoById, hread, bind_assoc_apply, check_none_bind, hfound]
  dsimp only
  rw [if_pos huri]
  rfl

theorem importSourceCredential_unmade (h : ¬ ImportsCredential svc) :
    ∃ e, importSourceCredential svc region s = (.thrown e, s) := by
  rw [importSourceCredential]
  cases hclient : svc.fault .codebuildClient with
  | some e => exact ⟨e, rfl⟩
  | none =>
    obtain ⟨e, himport⟩ := Option.ne_none_iff_exists'.mp fun hnone => h ⟨hclient, hnone⟩
    rw [check_none_bind, himport]
    exact ⟨e, rfl⟩

theorem importSourceCredential_made (h : ImportsCredential svc) : importSourceCredential svc region s =
    (if Aws.truthy svc.credentialsArn then .returned (svc.credentialsArn.getD "") else .thrown noCredential,
      hold (.sourceCredential region (svc.credentialsArn.getD "")) s) := by
  rw [importSourceCredential, h.1, h.2, check_none_bind, check_none_bind, writes_bind_apply]
  split <;> rfl

def Input.roleName (input : Input) : String := input.random ++ "-ecr-builder-codebuild-role"

def Input.projectName (input : Input) : String := input.random ++ "-ecr-builder"

theorem createServiceRole_unmade (h : ¬ CreatesRole svc) :
    ∃ e, createServiceRole svc input s = (.thrown e, s) := by
  rw [createServiceRole]
  cases hclient : svc.fault .iamClient with
  | some e => exact ⟨e, rfl⟩
  | none =>
    obtain ⟨e, hcreate⟩ := Option.ne_none_iff_exists'.mp fun hnone => h ⟨hclient, hnone⟩
    rw [check_none_bind, hcreate]
    exact ⟨e, rfl⟩

theorem createServiceRole_made (h : CreatesRole svc) (hsteps : RoleSteps svc) :
    createServiceRole svc input s =
      (.returned (svc.roleArn.map (⟨input.roleName, ·⟩)), hold (.role input.roleName) s) := by
  rw [createServiceRole, h.1, h.2, check_none_bind, check_none_bind, writes_bind_apply, if_pos hsteps.arn, hsteps.waits, check_none_bind,
    bind_of_returned (each_check_of_none hsteps.policies), hsteps.attached, check_none_bind, hsteps.read, check_none_bind]
  cases harn : svc.roleArn with
  | none => rfl
  | some arn =>
    obtain ⟨hmapper, hread, hupdate⟩ := hsteps.mapped (harn ▸ Option.some_ne_none arn)
    dsimp only
    rw [hmapper, check_none_bind, hread, check_none_bind, runIf]
    split
    · next hin =>
      rw [hupdate hin]
      rfl
    · rfl

theorem createServiceRole_failed (h : CreatesRole svc) (hsteps : ¬ RoleSteps svc) :
    ∃ e, createServiceRole svc input s = (.thrown e, hold (.role input.roleName) s) := by
  rw [createServiceRole, h.1, h.2, check_none_bind, check_none_bind, writes_bind_apply]
  by_cases harn : Aws.truthy svc.createdRoleArn = true
  · rw [if_pos harn]
    cases hwaits : svc.fault .waitUntilRoleExists with
    | some e => exact ⟨e, rfl⟩
    | none =>
      rw [check_none_bind]
      by_cases hpolicies : ∀ policyArn ∈ policies, svc.fault (.attachRolePolicy policyArn) = none
      · rw [bind_of_returned (each_check_of_none hpolicies)]
        cases hattached : svc.fault .waitForAttachedRolePolicies with
        | some e => exact ⟨e, rfl⟩
        | none =>
          rw [check_none_bind]
          cases hread : svc.fault .getRole with
          | some e => exact ⟨e, rfl⟩
          | none =>
            have hmapped := fun hm => hsteps ⟨harn, hwaits, hpolicies, hattached, hread, hm⟩
            obtain ⟨hsome, hmapped⟩ := Classical.not_imp.mp hmapped
            obtain ⟨arn, hrole⟩ := Option.ne_none_iff_exists'.mp hsome
            rw [check_none_bind, hrole]
            dsimp only
            cases hmapper : svc.fault .roleMapper with
            | some e => exact ⟨e, rfl⟩
            | none =>
              rw [check_none_bind]
              cases hdb : svc.fault .readRole with
              | some e => exact ⟨e, rfl⟩
              | none =>
                obtain ⟨hin, hupdate⟩ := Classical.not_imp.mp fun hu => hmapped ⟨hmapper, hdb, hu⟩
                obtain ⟨e, hupdate⟩ := Option.ne_none_iff_exists'.mp hupdate
                rw [check_none_bind, runIf, if_pos hin, hupdate]
                exact ⟨e, rfl⟩
      · obtain ⟨e, hthrown⟩ := @each_check_of_some State _ (hold (.role input.roleName) s) _ _ _ hpolicies
        exact ⟨e, bind_of_thrown hthrown⟩
  · rw [if_neg harn]
    exact ⟨noRoleArn, rfl⟩

theorem createCodebuildProject_made (h : ProjectSteps svc) : createCodebuildProject svc input region s =
    (.returned ⟨input.projectName, region⟩, hold (.project region input.projectName) s) := by
  rw [createCodebuildProject, h.defaults, check_none_bind, h.client, check_none_bind, h.creates, check_none_bind,
    writes_bind_apply, if_pos h.project, h.mapped]
  rfl

theorem createCodebuildProject_failed (h : ¬ ProjectSteps svc) :
    Throws (createCodebuildProject svc input region) s := by
  rw [createCodebuildProject]
  refine throws_check_bind fun hdefaults => throws_check_bind fun hclient => throws_check_bind fun hcreates => ?_
  refine .after rfl (held_hold (.project region input.projectName)) ?_
  by_cases hproject : svc.project = true
  · rw [if_pos hproject]
    refine throws_check_bind fun hmapped => ?_
    exact absurd ⟨hdefaults, hclient, hcreates, hproject, hmapped⟩ h
  · rw [if_neg hproject]
    exact throws_fail noProject

-- the build leaves the state, and ends in an exception or a status
theorem startBuild_ok (h : BuildSteps svc) : startBuild svc s = (.returned "OK", s) := by
  obtain ⟨⟨hread, hfound⟩, ⟨hclient, hstart, hbuild⟩, hwaits, ⟨hstatus, hbuildRead⟩, hmapper, hmapped⟩ := h
  rw [startBuild, hread, check_none_bind, hfound, hclient, hstart, hbuild, hwaits, hstatus, hbuildRead, hmapper, hmapped]
  rfl

theorem startBuild_failed (h : ¬ BuildSteps svc) : (∃ e, startBuild svc s = (.thrown e, s)) ∨
    ∃ status, startBuild svc s = (.returned status, s) ∧ status ≠ "OK" := by
  have hko : "KO" ≠ "OK" := by decide
  rw [startBuild]
  cases hread : svc.fault .readProject with
  | some e => exact .inl ⟨e, rfl⟩
  | none =>
    rw [check_none_bind]
    cases hfound : svc.projectRead with
    | false => exact .inr ⟨_, rfl, by decide⟩
    | true =>
      rw [if_neg (by decide)]
      cases hclient : svc.fault .buildClient with
      | some e => exact .inl ⟨e, rfl⟩
      | none =>
        rw [check_none_bind]
        cases hstart : svc.fault .startBuild with
        | some e => exact .inl ⟨e, rfl⟩
        | none =>
          rw [check_none_bind]
          cases hbuild : svc.build with
          | false => exact .inr ⟨_, rfl, hko⟩
          | true =>
            rw [if_neg (by decide)]
            cases hwaits : svc.fault .waitForBuilds with
            | some e => exact .inl ⟨e, rfl⟩
            | none =>
              rw [check_none_bind]
              cases hstatus : svc.fault .readBuild with
              | some e => exact .inl ⟨e, rfl⟩
              | none =>
                rw [check_none_bind]
                cases hbuildRead : svc.buildRead with
                | false => exact .inr ⟨_, rfl, hko⟩
                | true =>
                  rw [if_neg (by decide)]
                  cases hmapper : svc.fault .buildListMapper with
                  | some e => exact .inl ⟨e, rfl⟩
                  | none =>
                    rw [check_none_bind]
                    cases hmapped : svc.buildMapped with
                    | false => exact .inr ⟨_, rfl, hko⟩
                    | true =>
                      exact absurd ⟨⟨hread, hfound⟩, ⟨hclient, hstart, hbuild⟩, hwaits, ⟨hstatus, hbuildRead⟩,
                        hmapper, hmapped⟩ h

theorem getCreatedEcrImage_failed {α : Type} {k : String → Prog State Thrown α} (h : ¬ ImageSteps svc) :
    Throws (getCreatedEcrImage svc >>= fun image => check (svc.fault .createImage) >>= fun _ => k image) s := by
  rw [getCreatedEcrImage]
  cases hread : svc.fault .readImages with
  | some e => exact ⟨e, s, rfl, List.Subset.refl _⟩
  | none =>
    cases himage : svc.image with
    | none => exact ⟨noImage, s, rfl, List.Subset.refl _⟩
    | some imageId =>
      refine .after rfl (List.Subset.refl _) (throws_check_bind fun hcreates => ?_)
      exact absurd ⟨⟨hread, himage ▸ Option.some_ne_none imageId⟩, hcreates⟩ h

end Steps

section Cleanup

variable {svc : Service} {input : Input} {s t : State} {repo : Repository} {region credentialsArn : String}

-- the role was read with an arn of its own
def RoleDeletable (svc : Service) : Prop :=
  ∃ arn, svc.roleArn = some (some arn) ∧ arn ≠ "" ∧ includes ":role/aws-service-role/" arn = false

-- from the first resource on nothing throws or is missing
structure GoesThrough (svc : Service) : Prop where
  createsRole : CreatesRole svc
  role : RoleSteps svc
  project : ProjectSteps svc
  build : BuildSteps svc
  image : ImageSteps svc
  deletable : RoleDeletable svc

theorem deleteRole_some (h : RoleDeletable svc) (roleName : String) :
    deleteRole (svc.roleArn.map (⟨roleName, ·⟩)) s = (.returned (), release (.role roleName) s) := by
  obtain ⟨arn, harn, hne, hservice⟩ := h
  have htruthy : Aws.truthy (some arn) = true := by simpa [Aws.truthy] using hne
  rw [harn, Option.map_some, deleteRole]
  dsimp only
  rw [if_pos]
  · rfl
  · rw [htruthy, Option.getD_some, hservice]
    rfl

-- a role that is not deleted is still there
theorem deleteRole_kept (h : ¬ RoleDeletable svc) (roleName : String) :
    (deleteRole (svc.roleArn.map (⟨roleName, ·⟩)) s).2 = s := by
  cases harn : svc.roleArn with
  | none => rfl
  | some arn =>
    rw [Option.map_some, deleteRole]
    dsimp only
    rw [if_neg]
    · rfl
    · intro hdeleted
      rw [Bool.and_eq_true, Bool.not_eq_true'] at hdeleted
      obtain ⟨text, rfl⟩ := truthy_some hdeleted.1
      refine h ⟨text, harn, ?_, hdeleted.2⟩
      rintro rfl
      exact Bool.noConfusion hdeleted.1

theorem mem_release {r x : Resource} (h : x ∈ s.held) (hne : x ≠ r) : x ∈ (release r s).held :=
  List.mem_filter.mpr ⟨h, decide_eq_true hne⟩

theorem buildImage_unmade (h : ¬ CreatesRole svc) : (buildImage svc input region credentialsArn s).2 = s := by
  obtain ⟨e, hthrown⟩ := @createServiceRole_unmade svc input s h
  rw [buildImage, bind_of_thrown hthrown]

theorem mem_of_throws {α : Type} {p : Prog State Thrown α} {r : Resource} (h : Throws p s) (hr : r ∈ s.held) :
    r ∈ (p s).2.held := by
  obtain ⟨e, t, hrun, hheld⟩ := h
  rw [hrun]
  exact hheld hr

-- a step that fails leaves the role
theorem buildImage_failed (hcreates : CreatesRole svc)
    (h : ¬ (RoleSteps svc ∧ ProjectSteps svc ∧ BuildSteps svc ∧ ImageSteps svc)) :
    .role input.roleName ∈ (buildImage svc input region credentialsArn s).2.held := by
  have hrole : .role input.roleName ∈ (hold (.role input.roleName) s).held :=
    List.mem_append_right _ (List.mem_singleton_self _)
  rw [buildImage]
  by_cases hsteps : RoleSteps svc
  · rw [bind_of_returned (createServiceRole_made hcreates hsteps)]
    refine mem_of_throws ?_ hrole
    by_cases hproject : ProjectSteps svc
    · refine .after (createCodebuildProject_made hproject) (held_hold _) ?_
      by_cases hbuild : BuildSteps svc
      · refine .after (startBuild_ok hbuild) (List.Subset.refl _) ?_
        rw [if_neg (not_not.mpr rfl)]
        exact getCreatedEcrImage_failed fun himage => h ⟨hsteps, hproject, hbuild, himage⟩
      · rcases @startBuild_failed svc (hold (.project region input.projectName) (hold (.role input.roleName) s)) hbuild with
          ⟨e, hthrown⟩ | ⟨status, hreturned, hstatus⟩
        · exact Throws.bind ⟨e, _, hthrown, List.Subset.refl _⟩
        · refine .after hreturned (List.Subset.refl _) ?_
          rw [if_pos hstatus]
          exact throws_fail buildFailed
    · exact (createCodebuildProject_failed hproject).bind
  · obtain ⟨e, hthrown⟩ := @createServiceRole_failed svc input s hcreates hsteps
    rw [bind_of_thrown hthrown]
    exact hrole

theorem buildImage_built (hcreates : CreatesRole svc) (hrole : RoleSteps svc) (hproject : ProjectSteps svc)
    (hbuild : BuildSteps svc) (himage : ImageSteps svc) :
    (buildImage svc input region credentialsArn s).2 =
      (cleanUp svc input (svc.roleArn.map (⟨input.roleName, ·⟩)) credentialsArn ⟨input.projectName, region⟩
        (hold (.project region input.projectName) (hold (.role input.roleName) s))).2 := by
  obtain ⟨imageId, hfound⟩ := Option.ne_none_iff_exists'.mp himage.read.2
  rw [buildImage, bind_of_returned (createServiceRole_made hcreates hrole),
    bind_of_returned (createCodebuildProject_made hproject), bind_of_returned (startBuild_ok hbuild),
    if_neg (not_not.mpr rfl), getCreatedEcrImage, himage.read.1, bind_assoc_apply, check_none_bind, hfound,
    pure_bind_apply, himage.creates, check_none_bind, bind_pure_snd]

theorem cleanUp_kept (h : ¬ RoleDeletable svc) (project : CodebuildProject) {roleName : String}
    (hrole : .role roleName ∈ s.held) :
    .role roleName ∈ (cleanUp svc input (svc.roleArn.map (⟨input.roleName, ·⟩)) credentialsArn project s).2.held := by
  have hkept := @deleteRole_kept svc s h input.roleName
  rw [cleanUp, bind_apply]
  match hrun : deleteRole (svc.roleArn.map (⟨input.roleName, ·⟩)) s with
  | (.thrown e, u) =>
    rw [hrun] at hkept
    exact hkept.symm ▸ hrole
  | (.diverged, u) =>
    rw [hrun] at hkept
    exact hkept.symm ▸ hrole
  | (.returned (), u) =>
    rw [hrun] at hkept
    subst hkept
    dsimp only
    rw [runIf]
    split
    · exact mem_release (mem_release hrole nofun) nofun
    · exact mem_release hrole nofun

theorem cleanUp_done (h : RoleDeletable svc) (project : CodebuildProject) :
    (cleanUp svc input (svc.roleArn.map (⟨input.roleName, ·⟩)) credentialsArn project s).2 =
      release (.project project.region project.projectName)
        (if input.githubPersonalAccessToken ≠ "" then
          release (.sourceCredential svc.defaultRegion credentialsArn) (release (.role input.roleName) s)
        else release (.role input.roleName) s) := by
  rw [cleanUp, bind_of_returned (deleteRole_some h input.roleName), runIf]
  by_cases htoken : input.githubPersonalAccessToken ≠ ""
  · rw [if_pos (decide_eq_true htoken), if_pos htoken]
    rfl
  · rw [if_neg (by simpa using htoken), if_neg htoken]
    rfl

-- what a build without a credential leaves
theorem buildImage_leaves_none (htoken : input.githubPersonalAccessToken = "") (hheld : s.held = []) :
    (buildImage svc input region credentialsArn s).2.held = [] ↔ (CreatesRole svc → GoesThrough svc) := by
  by_cases hcreates : CreatesRole svc
  · rw [forall_prop_of_true hcreates]
    by_cases hsteps : RoleSteps svc ∧ ProjectSteps svc ∧ BuildSteps svc ∧ ImageSteps svc
    · obtain ⟨hrole, hproject, hbuild, himage⟩ := hsteps
      rw [buildImage_built hcreates hrole hproject hbuild himage]
      by_cases hdeletable : RoleDeletable svc
      · rw [cleanUp_done hdeletable, if_neg (not_not.mpr htoken)]
        refine iff_of_true ?_ ⟨hcreates, hrole, hproject, hbuild, himage, hdeletable⟩
        simp [release, hold, hheld]
      · have hstays := @cleanUp_kept _ input (hold (.project region input.projectName) (hold (.role input.roleName) s))
          credentialsArn hdeletable ⟨input.projectName, region⟩ input.roleName (by simp [hold])
        exact iff_of_false (List.ne_nil_of_mem hstays) fun h => hdeletable h.deletable
    · have hstays := @buildImage_failed _ input s region credentialsArn hcreates hsteps
      exact iff_of_false (List.ne_nil_of_mem hstays) fun h => hsteps ⟨h.role, h.project, h.build, h.image⟩
  · rw [buildImage_unmade hcreates]
    exact iff_of_true hheld fun h => absurd h hcreates

theorem buildImage_leaves_credential (htoken : input.githubPersonalAccessToken ≠ "")
    (hheld : s.held = [.sourceCredential region credentialsArn]) :
    (buildImage svc input region credentialsArn s).2.held = [] ↔ region = svc.defaultRegion ∧ GoesThrough svc := by
  by_cases hcreates : CreatesRole svc
  · by_cases hsteps : RoleSteps svc ∧ ProjectSteps svc ∧ BuildSteps svc ∧ ImageSteps svc
    · obtain ⟨hrole, hproject, hbuild, himage⟩ := hsteps
      rw [buildImage_built hcreates hrole hproject hbuild himage]
      by_cases hdeletable : RoleDeletable svc
      · rw [cleanUp_done hdeletable, if_pos htoken,
          and_iff_left (⟨hcreates, hrole, hproject, hbuild, himage, hdeletable⟩ : GoesThrough svc)]
        simp [release, hold, hheld]
      · have hstays := @cleanUp_kept _ input (hold (.project region input.projectName) (hold (.role input.roleName) s))
          credentialsArn hdeletable ⟨input.projectName, region⟩ input.roleName (by simp [hold])
        exact iff_of_false (List.ne_nil_of_mem hstays) fun h => hdeletable h.2.deletable
    · have hstays := @buildImage_failed _ input s region credentialsArn hcreates hsteps
      exact iff_of_false (List.ne_nil_of_mem hstays) fun h => hsteps ⟨h.2.role, h.2.project, h.2.build, h.2.image⟩
  · rw [buildImage_unmade hcreates, hheld]
    exact iff_of_false (List.cons_ne_nil _ _) fun h => hcreates h.2.createsRole

-- nothing goes wrong once the first resource is created, and the credential is of the default region
def CleansUp (svc : Service) (input : Input) (repo : Repository) : Prop :=
  if input.githubPersonalAccessToken ≠ "" then
    ImportsCredential svc →
      Aws.truthy svc.credentialsArn = true ∧ repo.region = svc.defaultRegion ∧ GoesThrough svc
  else CreatesRole svc → GoesThrough svc

theorem call_leaves_none_iff (svc : Service) (input : Input) :
    (call svc input {}).2.held = [] ↔ ∀ repo, Ready svc input repo → CleansUp svc input repo := by
  by_cases hready : ∃ repo, Ready svc input repo
  · obtain ⟨repo, hready⟩ := hready
    have hunique : (∀ repo, Ready svc input repo → CleansUp svc input repo) ↔ CleansUp svc input repo := by
      refine ⟨fun h => h repo hready, fun h other hother => ?_⟩
      obtain rfl : repo = other := Option.some.inj (hready.found.symm.trans hother.found)
      exact h
    rw [hunique, CleansUp, call_of_ready hready]
    by_cases htoken : input.githubPersonalAccessToken ≠ ""
    · rw [if_pos htoken, if_pos htoken]
      by_cases himports : ImportsCredential svc
      · rw [forall_prop_of_true himports]
        have himport := @importSourceCredential_made svc {} repo.region himports
        by_cases harn : Aws.truthy svc.credentialsArn = true
        · rw [if_pos harn] at himport
          rw [bind_of_returned himport, and_iff_right harn]
          exact buildImage_leaves_credential htoken rfl
        · rw [if_neg harn] at himport
          rw [bind_of_thrown himport]
          exact iff_of_false (List.cons_ne_nil _ _) fun h => harn h.1
      · obtain ⟨e, hthrown⟩ := @importSourceCredential_unmade svc {} repo.region himports
        rw [bind_of_thrown hthrown]
        exact iff_of_true rfl fun h => absurd h himports
    · rw [if_neg htoken, if_neg htoken]
      exact buildImage_leaves_none (not_not.mp htoken) rfl
  · have hnone : ∀ repo, ¬ Ready svc input repo := fun repo h => hready ⟨repo, h⟩
    rw [call_of_not_ready hnone]
    exact iff_of_true rfl fun repo h => absurd h (hnone repo)

end Cleanup

end Iasql.EcrBuild
