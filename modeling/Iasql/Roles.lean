import Iasql.Aws
import Iasql.Calculus.Batches
import Iasql.Calculus.Tables
import Iasql.Policy

namespace Iasql.Roles

open Program Prog Aws AwsDiff CanonicalPolicy

-- the role name is the primary key
structure IamRole where
  arn : Option String := none
  roleName : String
  assumeRolePolicyDocument : Option Policy
  description : Option String := none
  attachedPoliciesArns : Option (List String) := none

inductive RoleCall where
  | removeRoleFromInstanceProfile (instanceProfileName roleName : String)
  | deleteInstanceProfile (instanceProfileName : String)
  | detachRolePolicy (roleName policyArn : String)
  | deleteRole (roleName : String)
deriving DecidableEq

structure AwsError where
  code : String
  message : String
deriving DecidableEq

structure Client where
  call : RoleCall → Except AwsError Unit
  -- waitForAttachedRolePolicies
  wait : String → Except AwsError Unit

structure State where
  calls : List RoleCall := []
  roles : List IamRole := []

def holds (value : JsString) : OneOrMany JsString → Bool
  | .many values => values.contains value
  | .one text => text.tails.any value.isPrefixOf

def isEc2 : Option Principal → Bool
  | some (.kinds k) => k.service.any (holds (js "ec2.amazonaws.com"))
  | _ => false

def allowEc2Service (lower : LowerCase) (a : IamRole) : Bool :=
  a.assumeRolePolicyDocument.any fun document =>
    (normalizePolicy lower document).statement.toList.any fun s =>
      decide (s.effect = .allow) && isEc2 s.principal

abbrev Run := Prog State AwsError Unit

def issue (client : Client) (call : RoleCall) : Run := do
  writes fun s => { s with calls := s.calls ++ [call] }
  match client.call call with
  | .error err => fail err
  | .ok () => pure ()

-- a profile or role that is not found is left alone
def deleteProfile (client : Client) (roleName : String) : Run := do
  let removed ← attempt do
    issue client (.removeRoleFromInstanceProfile roleName roleName)
    issue client (.deleteInstanceProfile roleName)
  match removed with
  | .ok () => pure ()
  | .error e => if e.code != "NoSuchEntity" then fail e

def isServiceRole (e : IamRole) : Bool := includes ":role/aws-service-role/" (e.arn.getD "")

-- a role that is no service role
def deleteRole (lower : LowerCase) (client : Client) (entity : IamRole) : Run := do
  runIf (allowEc2Service lower entity) (deleteProfile client entity.roleName)
  each (fun arn => issue client (.detachRolePolicy entity.roleName arn))
    (entity.attachedPoliciesArns.getD [])
  match client.wait entity.roleName with
  | .error err => fail err
  | .ok () => issue client (.deleteRole entity.roleName)

def deleteOne (lower : LowerCase) (client : Client) (entity : IamRole) :
    Prog State AwsError (Option Unit) := do
  if Aws.truthy entity.arn then
    if isServiceRole entity then
      writes fun s => { s with roles := Tables.put IamRole.roleName entity s.roles }
    else deleteRole lower client entity
  return none

def delete (lower : LowerCase) (client : Client) (es : List IamRole) : Prog State AwsError Unit := do
  let _ ← forOf (deleteOne lower client) es

section Issued

variable {lower : LowerCase} {client : Client} {e : IamRole}

-- the calls a role is deleted with, in their order
def callsOf (e : IamRole) : List RoleCall :=
  [.removeRoleFromInstanceProfile e.roleName e.roleName, .deleteInstanceProfile e.roleName] ++
    (e.attachedPoliciesArns.getD []).map (.detachRolePolicy e.roleName) ++ [.deleteRole e.roleName]

theorem adds_issue (client : Client) (call : RoleCall) :
    Adds State.calls (issue client call) [call] := by
  intro s
  refine ⟨[call], ?_, .refl _⟩
  rw [issue, writes_bind_apply]
  cases client.call call <;> rfl

theorem adds_deleteProfile (client : Client) (roleName : String) :
    Adds State.calls (deleteProfile client roleName)
      [.removeRoleFromInstanceProfile roleName roleName, .deleteInstanceProfile roleName] := by
  have hpair := (adds_issue client (.removeRoleFromInstanceProfile roleName roleName)).bind
    fun _ => adds_issue client (.deleteInstanceProfile roleName)
  refine hpair.attempt.bind fun removed => adds_of_kept (fun s => ?_) []
  cases removed with
  | ok => rfl
  | error e =>
    by_cases h : (e.code != "NoSuchEntity") = true
    · simp only [if_pos h]
      rfl
    · simp only [if_neg h]
      rfl

theorem adds_deleteRole (lower : LowerCase) (client : Client) (e : IamRole) :
    Adds State.calls (deleteRole lower client e) (callsOf e) := by
  have hprofile : Adds State.calls
      (runIf (allowEc2Service lower e) (deleteProfile client e.roleName))
      [.removeRoleFromInstanceProfile e.roleName e.roleName, .deleteInstanceProfile e.roleName] := by
    cases allowEc2Service lower e with
    | true => exact adds_deleteProfile client e.roleName
    | false => exact adds_of_kept (fun _ => rfl) _
  have hdetach : Adds State.calls
      (each (fun arn => issue client (.detachRolePolicy e.roleName arn))
        (e.attachedPoliciesArns.getD []))
      ((e.attachedPoliciesArns.getD []).flatMap fun arn => [.detachRolePolicy e.roleName arn]) :=
    adds_each fun arn _ => adds_issue client (.detachRolePolicy e.roleName arn)
  rw [callsOf, List.append_assoc, List.map_eq_flatMap]
  refine hprofile.bind fun _ => hdetach.bind fun _ => ?_
  cases client.wait e.roleName with
  | error err => exact adds_of_kept (fun _ => rfl) _
  | ok => exact adds_issue client (.deleteRole e.roleName)

def isProtected (_ : State) (e : IamRole) : Bool := Aws.truthy e.arn && isServiceRole e

def Restored (e : IamRole) (s t : State) : Prop :=
  t.roles = Tables.put IamRole.roleName e s.roles

theorem deleteOne_protected {s : State} (h : isProtected s e = true) :
    deleteOne lower client e s =
      (.returned none, { s with roles := Tables.put IamRole.roleName e s.roles }) := by
  obtain ⟨harn, hservice⟩ := (Bool.and_eq_true _ _).mp h
  simp only [deleteOne, if_pos harn, if_pos hservice]
  rfl

theorem spares (lower : LowerCase) (client : Client) :
    SparesEach State.calls (deleteOne lower client) callsOf isProtected where
  kept := fun _ _ => rfl
  logged := by
    intro e s
    by_cases harn : Aws.truthy e.arn = true
    · by_cases hservice : isServiceRole e = true
      · have h : isProtected s e = true := by rw [isProtected, harn, hservice, Bool.and_self]
        rw [deleteOne_protected h, if_pos h]
        exact ⟨[], (List.append_nil _).symm, .refl _⟩
      · obtain ⟨part, hlog, hsub⟩ := adds_deleteRole lower client e s
        refine ⟨part, ?_, ?_⟩
        · rw [← hlog, deleteOne, if_pos harn, if_neg hservice, bind_pure_snd]
        · have h : ¬ isProtected s e = true := fun h => hservice ((Bool.and_eq_true _ _).mp h).2
          rwa [if_neg h]
    · refine ⟨[], ?_, List.nil_sublist _⟩
      rw [deleteOne, if_neg harn, List.append_nil]
      rfl

end Issued

end Iasql.Roles
