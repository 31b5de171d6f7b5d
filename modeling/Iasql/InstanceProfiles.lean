import Iasql.Calculus.Faults
import Iasql.Calculus.Runs
import Iasql.Roles

namespace Iasql.InstanceProfiles

open Program Prog Aws CanonicalPolicy
open Roles (IamRole AwsError allowEc2Service isServiceRole)

section Types

structure AwsRole where
  arn : String
  policy : Policy
  description : Option String
  attached : List String
  nodup : attached.Nodup

-- the roles of the account, and for each instance profile whether the role of its name is attached
structure Iam where
  roles : String → Option AwsRole := fun _ => none
  profiles : String → Option Bool := fun _ => none

inductive Call where
  | createRole
  | waitUntilRoleExists
  | attachRolePolicy (i : Nat)
  | detachRolePolicy (i : Nat)
  | waitForAttachedRolePolicies
  | createInstanceProfile
  | addRoleToInstanceProfile
  | removeRoleFromInstanceProfile
  | deleteInstanceProfile
  | updateAssumeRolePolicy
  | updateRole
  | getRole
  | listAttachedRolePolicies
  | deleteRole
  | readDb
  | writeDb
deriving DecidableEq

-- the answers to the calls for one role; a call that fails does nothing; row: the database has the role
structure Answers where
  fault : Call → Option AwsError := fun _ => none
  createdArn : String := "arn"
  row : Bool := true

-- a role of the database with the answers that its operation gets
abbrev Job : Type := IamRole × Answers

end Types

section Calls

variable (a : Answers) (roleName : String)

def noSuchEntity : AwsError := ⟨"NoSuchEntity", "The role or the instance profile cannot be found."⟩

def entityAlreadyExists : AwsError := ⟨"EntityAlreadyExists", "The entity already exists."⟩

def deleteConflict : AwsError := ⟨"DeleteConflict", "Must remove the attached entities first."⟩

def limitExceeded : AwsError := ⟨"LimitExceeded", "An instance profile has one role."⟩

def Iam.setRole (role : Option AwsRole) (s : Iam) : Iam :=
  { s with roles := Function.update s.roles roleName role }

def Iam.setProfile (profile : Option Bool) (s : Iam) : Iam :=
  { s with profiles := Function.update s.profiles roleName profile }

def record (role : AwsRole) : IamRole where
  arn := some role.arn
  roleName
  assumeRolePolicyDocument := some role.policy
  description := role.description
  attachedPoliciesArns := if role.attached.isEmpty then none else some role.attached

def modifyRole (f : AwsRole → AwsRole) : Prog Iam AwsError Unit := do
  match ← reads fun s => s.roles roleName with
  | none => fail noSuchEntity
  | some role => writes (Iam.setRole roleName (some (f role)))

def attach (arn : String) (role : AwsRole) : AwsRole :=
  if h : arn ∈ role.attached then role
  else { role with attached := role.attached ++ [arn], nodup := role.nodup.append (List.nodup_singleton arn) (by simpa using h) }

def detach (arn : String) (role : AwsRole) : AwsRole :=
  { role with attached := role.attached.erase arn, nodup := role.nodup.erase arn }

def createNewRole (role : IamRole) : Prog Iam AwsError Unit := do
  check (a.fault .createRole)
  match ← reads fun s => s.roles role.roleName, role.assumeRolePolicyDocument with
  | some _, _ => fail entityAlreadyExists
  | none, none => fail ⟨"ValidationError", "assumeRolePolicyDocument must not be null"⟩
  | none, some policy =>
    writes (Iam.setRole role.roleName (some ⟨a.createdArn, policy, role.description, [], List.nodup_nil⟩))

def attachRolePolicy (i : Nat) (arn : String) : Prog Iam AwsError Unit := do
  check (a.fault (.attachRolePolicy i))
  modifyRole roleName (attach arn)

def detachRolePolicy (i : Nat) (arn : String) : Prog Iam AwsError Unit := do
  check (a.fault (.detachRolePolicy i))
  match ← reads fun s => s.roles roleName with
  | none => fail noSuchEntity
  | some role => if arn ∈ role.attached then writes (Iam.setRole roleName (some (detach arn role))) else fail noSuchEntity

def attachRolePolicies (arns : List String) : Prog Iam AwsError Unit :=
  each (fun p => attachRolePolicy a roleName p.2 p.1) arns.zipIdx

def detachRolePolicies (arns : List String) : Prog Iam AwsError Unit :=
  each (fun p => detachRolePolicy a roleName p.2 p.1) arns.zipIdx

def createInstanceProfile : Prog Iam AwsError Unit := do
  check (a.fault .createInstanceProfile)
  match ← reads fun s => s.profiles roleName with
  | some _ => fail entityAlreadyExists
  | none => writes (Iam.setProfile roleName (some false))

def attachRoleToInstanceProfile : Prog Iam AwsError Unit := do
  check (a.fault .addRoleToInstanceProfile)
  match ← reads fun s => s.profiles roleName, ← reads fun s => s.roles roleName with
  | none, _ => fail noSuchEntity
  | _, none => fail noSuchEntity
  | some true, some _ => fail limitExceeded
  | some false, some _ => writes (Iam.setProfile roleName (some true))

def detachRoleToInstanceProfile : Prog Iam AwsError Unit := do
  check (a.fault .removeRoleFromInstanceProfile)
  match ← reads fun s => s.profiles roleName with
  | some true => writes (Iam.setProfile roleName (some false))
  | _ => fail noSuchEntity

def deleteInstanceProfile : Prog Iam AwsError Unit := do
  check (a.fault .deleteInstanceProfile)
  match ← reads fun s => s.profiles roleName with
  | none => fail noSuchEntity
  | some true => fail deleteConflict
  | some false => writes (Iam.setProfile roleName none)

def deleteRole : Prog Iam AwsError Unit := do
  check (a.fault .deleteRole)
  match ← reads fun s => s.roles roleName, ← reads fun s => s.profiles roleName with
  | none, _ => fail noSuchEntity
  | some _, some true => fail deleteConflict
  | some role, _ => if role.attached.isEmpty then writes (Iam.setRole roleName none) else fail deleteConflict

-- roleMapper: without the policies of the role its record goes without them, or is dropped
def roleMapper (role : AwsRole) : Option IamRole :=
  match a.fault .listAttachedRolePolicies with
  | none => some (record roleName role)
  | some e => if e.code = "NoSuchEntity" then none else some { record roleName role with attachedPoliciesArns := none }

def getRole : Prog Iam AwsError (Option IamRole) := do
  check (a.fault .getRole)
  match ← reads fun s => s.roles roleName with
  | none => fail noSuchEntity
  | some role => return roleMapper a roleName role

end Calls

section Mapper

variable (lower : LowerCase) (a : Answers)

def sameArns (x y : Option (List String)) : Bool := decide ((x.getD []).Perm (y.getD []))

-- between the new role and its profile
def settleRole (role : IamRole) : Prog Iam AwsError Unit := do
  check (if a.createdArn = "" then some ⟨"Error", "should not be possible"⟩ else none)
  check (a.fault .waitUntilRoleExists)
  attachRolePolicies a role.roleName (role.attachedPoliciesArns.getD [])
  check (a.fault .waitForAttachedRolePolicies)

def giveProfile (roleName : String) : Prog Iam AwsError Unit := do
  createInstanceProfile a roleName
  attachRoleToInstanceProfile a roleName

def takeProfile (roleName : String) : Prog Iam AwsError Unit := do
  detachRoleToInstanceProfile a roleName
  deleteInstanceProfile a roleName

def readNewRole (role : IamRole) : Prog Iam AwsError (List IamRole) := do
  match ← getRole a role.roleName with
  | none => return []
  | some newRole => do
    check (a.fault .readDb)
    runIf a.row (check (a.fault .writeDb))
    return [newRole]

def createOne (role : IamRole) : Prog Iam AwsError (List IamRole) := do
  createNewRole a role
  settleRole a role
  runIf (allowEc2Service lower role) (giveProfile a role.roleName)
  readNewRole a role

def updatePolicy (e b : IamRole) : Prog Iam AwsError Unit :=
  match e.assumeRolePolicyDocument with
  | none => fail ⟨"ValidationError", "policyDocument must not be null"⟩
  | some policy => do
    check (a.fault .updateAssumeRolePolicy)
    modifyRole e.roleName fun role => { role with policy }
    runIf (allowEc2Service lower e && !allowEc2Service lower b) (giveProfile a e.roleName)
    runIf (allowEc2Service lower b && !allowEc2Service lower e) (takeProfile a e.roleName)

def updatePolicies (e b : IamRole) : Prog Iam AwsError Unit := do
  detachRolePolicies a e.roleName (b.attachedPoliciesArns.getD [])
  attachRolePolicies a e.roleName (e.attachedPoliciesArns.getD [])
  check (a.fault .waitForAttachedRolePolicies)

def updateDescription (e : IamRole) : Prog Iam AwsError Unit := do
  check (a.fault .updateRole)
  modifyRole e.roleName fun role => { role with description := e.description }

def updatedRecord (e b : IamRole) (update : Bool) : Prog Iam AwsError (Option IamRole) :=
  if update then getRole a e.roleName else pure (some b)

-- b: the record of the memo; service roles are put back in the database
def updateOne (e b : IamRole) : Prog Iam AwsError (List IamRole) := do
  let policyDiffers := !policiesAreSame lower e.assumeRolePolicyDocument b.assumeRolePolicyDocument
  let policiesDiffer := !sameArns e.attachedPoliciesArns b.attachedPoliciesArns
  let descriptionDiffers := decide (e.description ≠ b.description)
  if isServiceRole b then do
    check (a.fault .writeDb)
    return [b]
  else do
    runIf policyDiffers (updatePolicy lower a e b)
    runIf policiesDiffer (updatePolicies a e b)
    runIf descriptionDiffers (updateDescription a e)
    let updated ← updatedRecord a e b (policyDiffers || policiesDiffer || descriptionDiffers)
    check (a.fault .writeDb)
    return updated.toList

-- a profile or role that is not found is left alone
def deleteProfile (roleName : String) : Prog Iam AwsError Unit := do
  match ← attempt (takeProfile a roleName) with
  | .ok _ => pure ()
  | .error e => check (if e.code = "NoSuchEntity" then none else some e)

def deleteEntity (entity : IamRole) : Prog Iam AwsError Unit :=
  if Aws.truthy entity.arn then
    if isServiceRole entity then check (a.fault .writeDb)
    else do
      runIf (allowEc2Service lower entity) (deleteProfile a entity.roleName)
      detachRolePolicies a entity.roleName (entity.attachedPoliciesArns.getD [])
      check (a.fault .waitForAttachedRolePolicies)
      deleteRole a entity.roleName
  else pure ()

def deleteOne (entity : IamRole) : Prog Iam AwsError (List IamRole) := do
  deleteEntity lower a entity
  return []

end Mapper

section Runs

variable (lower : LowerCase)

-- the record of a role as the engine has freshly read it
def freshly (roleName : String) : Prog Iam AwsError (Option IamRole) :=
  reads fun s => (s.roles roleName).map (record roleName)

def createRoles (jobs : List Job) : Prog Iam AwsError (List IamRole) := gather (fun j => createOne lower j.2 j.1) jobs

def updateRole (j : Job) : Prog Iam AwsError (List IamRole) := do
  match ← freshly j.1.roleName with
  | none => fail ⟨"TypeError", "Cannot read properties of undefined (reading 'arn')"⟩
  | some b => updateOne lower j.2 j.1 b

def updateRoles (jobs : List Job) : Prog Iam AwsError (List IamRole) := gather (updateRole lower) jobs

def removeRole (j : String × Answers) : Prog Iam AwsError (List IamRole) := do
  match ← freshly j.1 with
  | none => return []
  | some entity => deleteOne lower j.2 entity

def deleteRoles (jobs : List (String × Answers)) : Prog Iam AwsError (List IamRole) := gather (removeRole lower) jobs

-- one call of the mapper by the engine
inductive Op where
  | create (jobs : List Job)
  | update (jobs : List Job)
  | delete (jobs : List (String × Answers))

def perform : Op → Prog Iam AwsError (List IamRole)
  | .create jobs => createRoles lower jobs
  | .update jobs => updateRoles lower jobs
  | .delete jobs => deleteRoles lower jobs

def allows (s : Iam) (roleName : String) : Bool :=
  (s.roles roleName).any fun role => allowEc2Service lower (record roleName role)

-- the profile is there with its role attached exactly when the role is there and is for ec2
def Follows (s : Iam) : Prop := ∀ roleName, s.profiles roleName = some true ↔ allows lower s roleName = true

-- and no profile is there without its role attached
def Kept (s : Iam) : Prop := ∀ roleName, s.profiles roleName = if allows lower s roleName then some true else none

end Runs

section Windows

variable (lower : LowerCase) (a : Answers)

def createWindow (role : IamRole) : List Call :=
  [.waitUntilRoleExists] ++ (List.range (role.attachedPoliciesArns.getD []).length).map .attachRolePolicy ++
    [.waitForAttachedRolePolicies, .createInstanceProfile, .addRoleToInstanceProfile]

def updateWindow (e : IamRole) : List Call :=
  if allowEc2Service lower e then [.createInstanceProfile, .addRoleToInstanceProfile]
  else [.removeRoleFromInstanceProfile, .deleteInstanceProfile]

def deleteWindow (entity : IamRole) : List Call :=
  [.deleteInstanceProfile] ++ (List.range (entity.attachedPoliciesArns.getD []).length).map .detachRolePolicy ++
    [.waitForAttachedRolePolicies, .deleteRole]

-- once a role for ec2 is there, nothing fails before its profile is
def CreateUnbroken (j : Job) (s : Iam) : Prop :=
  s.roles j.1.roleName = none → allowEc2Service lower j.1 = true → j.2.fault .createRole = none →
    j.2.createdArn ≠ "" ∧ ∀ c ∈ createWindow j.1, j.2.fault c = none

-- once a new policy is there that changes the answer, nothing fails before the profile has followed
def UpdateUnbroken (j : Job) (s : Iam) : Prop :=
  ∀ role, s.roles j.1.roleName = some role → isServiceRole (record j.1.roleName role) = false →
    policiesAreSame lower j.1.assumeRolePolicyDocument (some role.policy) = false →
    j.1.assumeRolePolicyDocument ≠ none → allowEc2Service lower j.1 ≠ allowEc2Service lower (record j.1.roleName role) →
    j.2.fault .updateAssumeRolePolicy = none → ∀ c ∈ updateWindow lower j.1, j.2.fault c = none

-- once a role for ec2 has lost its profile, nothing fails before it is gone
def DeleteUnbroken (j : String × Answers) (s : Iam) : Prop :=
  ∀ role, s.roles j.1 = some role → role.arn ≠ "" → isServiceRole (record j.1 role) = false →
    allowEc2Service lower (record j.1 role) = true → j.2.fault .removeRoleFromInstanceProfile = none →
    ∀ c ∈ deleteWindow (record j.1 role), j.2.fault c = none

def Unbroken (op : Op) (s : Iam) : Prop :=
  match op with
  | .create jobs => InTurn (fun j => createOne lower j.2 j.1) (CreateUnbroken lower) jobs s
  | .update jobs => InTurn (updateRole lower) (UpdateUnbroken lower) jobs s
  | .delete jobs => InTurn (removeRole lower) (DeleteUnbroken lower) jobs s

end Windows

end Iasql.InstanceProfiles
