import Iasql.InstanceProfiles

namespace Iasql.InstanceProfiles

open Program Prog Aws AwsDiff CanonicalPolicy
open Roles (IamRole AwsError allowEc2Service isServiceRole)

section Frames

variable {lower : LowerCase} {a : Answers} {n : String} {s t : Iam} {role : AwsRole}

theorem roles_setRole_self (r : Option AwsRole) : (s.setRole n r).roles n = r := Function.update_self ..

theorem roles_setRole_ne {m : String} (r : Option AwsRole) (h : m ≠ n) : (s.setRole n r).roles m = s.roles m :=
  Function.update_of_ne h ..

theorem profiles_setProfile_self (p : Option Bool) : (s.setProfile n p).profiles n = p := Function.update_self ..

theorem profiles_setProfile_ne {m : String} (p : Option Bool) (h : m ≠ n) :
    (s.setProfile n p).profiles m = s.profiles m := Function.update_of_ne h ..

theorem allowEc2Service_eq {x y : IamRole} (h : x.assumeRolePolicyDocument = y.assumeRolePolicyDocument) :
    allowEc2Service lower x = allowEc2Service lower y := by
  rw [allowEc2Service, allowEc2Service, h]

theorem allows_of_roles {m : String} (h : t.roles m = s.roles m) : allows lower t m = allows lower s m := by
  rw [allows, allows, h]

theorem allows_some (h : s.roles n = some role) : allows lower s n = allowEc2Service lower (record n role) := by
  rw [allows, h]
  rfl

theorem allows_none (h : s.roles n = none) : allows lower s n = false := by
  rw [allows, h]
  rfl

-- nothing happens to the profiles, and each role stays with what its policy says about ec2
structure Same (lower : LowerCase) (s t : Iam) : Prop where
  profiles : t.profiles = s.profiles
  allows : ∀ m, allows lower t m = allows lower s m
  isSome : ∀ m, (t.roles m).isSome = (s.roles m).isSome

def same (lower : LowerCase) : Frame Iam where
  rel := Same lower
  refl _ := ⟨rfl, fun _ => rfl, fun _ => rfl⟩
  trans h h' := ⟨h'.profiles.trans h.profiles, fun m => (h'.allows m).trans (h.allows m),
    fun m => (h'.isSome m).trans (h.isSome m)⟩

theorem Same.kept (h : Same lower s t) (hs : Kept lower s) : Kept lower t := by
  intro m
  rw [h.profiles, h.allows m]
  exact hs m

theorem same_setRole {r : AwsRole} (h : s.roles n = some role)
    (hallow : allowEc2Service lower (record n r) = allowEc2Service lower (record n role)) :
    Same lower s (s.setRole n (some r)) := by
  refine ⟨rfl, fun m => ?_, fun m => ?_⟩
  · obtain rfl | hm := eq_or_ne m n
    · rw [allows_some (roles_setRole_self _), allows_some h, hallow]
    · exact allows_of_roles (roles_setRole_ne _ hm)
  · obtain rfl | hm := eq_or_ne m n
    · rw [roles_setRole_self, h]
      rfl
    · rw [roles_setRole_ne _ hm]

theorem keeps_modifyRole {f : AwsRole → AwsRole} (hf : ∀ r, (f r).policy = r.policy) :
    (same lower).Keeps (modifyRole n f) := by
  intro s
  rw [modifyRole, reads_bind_apply]
  cases hrole : s.roles n with
  | none => exact (same lower).refl s
  | some role => exact same_setRole hrole (allowEc2Service_eq (congrArg some (hf role)))

theorem keeps_attachRolePolicies (arns : List String) : (same lower).Keeps (attachRolePolicies a n arns) :=
  Frame.keeps_each fun p _ => Frame.keeps_bind (Frame.keeps_check _) fun _ => keeps_modifyRole fun r => by
    rw [attach]
    split <;> rfl

theorem keeps_detachRolePolicies (arns : List String) : (same lower).Keeps (detachRolePolicies a n arns) := by
  refine Frame.keeps_each fun p _ => Frame.keeps_bind (Frame.keeps_check _) fun _ s => ?_
  rw [reads_bind_apply]
  cases hrole : s.roles n with
  | none => exact (same lower).refl s
  | some role =>
    by_cases hmem : p.1 ∈ role.attached
    · simp only [if_pos hmem]
      exact same_setRole hrole (allowEc2Service_eq rfl)
    · simp only [if_neg hmem]
      exact (same lower).refl s

theorem keeps_getRole : (same lower).Keeps (getRole a n) := by
  refine Frame.keeps_bind (Frame.keeps_check _) fun _ s => ?_
  rw [reads_bind_apply]
  cases s.roles n with
  | none => exact (same lower).refl s
  | some role => exact (same lower).refl s

theorem keeps_runIf_check (b : Bool) (fault : Option AwsError) : (same lower).Keeps (runIf b (check fault)) := by
  cases b with
  | false => exact Frame.keeps_pure ()
  | true => exact Frame.keeps_check fault

theorem kept_setRole {r : Option AwsRole} (h : Kept lower s) (hallow : allows lower (s.setRole n r) n = allows lower s n) :
    Kept lower (s.setRole n r) := by
  intro m
  have hm : allows lower (s.setRole n r) m = allows lower s m := by
    obtain rfl | hne := eq_or_ne m n
    · exact hallow
    · exact allows_of_roles (roles_setRole_ne _ hne)
  rw [hm]
  exact h m

-- a role is deleted only without a profile, so it was not for ec2
theorem kept_deleteRole (h : Kept lower s) : Kept lower (deleteRole a n s).2 := by
  rw [deleteRole]
  cases hfault : a.fault .deleteRole with
  | some e => exact h
  | none =>
    rw [check_none_bind, reads_bind_apply, reads_bind_apply]
    cases hrole : s.roles n with
    | none => exact h
    | some role =>
      cases hallow : allows lower s n with
      | true =>
        rw [h n, hallow]
        exact h
      | false =>
        rw [h n, hallow]
        simp only [Bool.false_eq_true, if_false]
        by_cases hempty : role.attached.isEmpty = true
        · rw [if_pos hempty]
          exact kept_setRole h ((allows_none (roles_setRole_self _)).trans hallow.symm)
        · rw [if_neg hempty]
          exact h

theorem kept_of_keeps {α : Type} {p : Prog Iam AwsError α} (hp : (same lower).Keeps p) (h : Kept lower s) :
    Kept lower (p s).2 := (hp s).kept h

end Frames

section Profiles

variable {lower : LowerCase} {a : Answers} {n : String} {s t : Iam} {role : AwsRole}

theorem giveProfile_eq (hcreate : a.fault .createInstanceProfile = none) (hadd : a.fault .addRoleToInstanceProfile = none)
    (hprofile : s.profiles n = none) (hrole : (s.roles n).isSome = true) :
    giveProfile a n s = (.returned (), (s.setProfile n (some false)).setProfile n (some true)) := by
  obtain ⟨role, hrole⟩ := Option.isSome_iff_exists.mp hrole
  have hfirst : createInstanceProfile a n s = (.returned (), s.setProfile n (some false)) := by
    rw [createInstanceProfile, hcreate, check_none_bind, reads_bind_apply, hprofile]
    rfl
  have hrole' : (s.setProfile n (some false)).roles n = some role := hrole
  rw [giveProfile, bind_of_returned hfirst, attachRoleToInstanceProfile, hadd, check_none_bind, reads_bind_apply,
    reads_bind_apply, profiles_setProfile_self, hrole']
  rfl

theorem takeProfile_eq (hremove : a.fault .removeRoleFromInstanceProfile = none)
    (hdelete : a.fault .deleteInstanceProfile = none) (hprofile : s.profiles n = some true) :
    takeProfile a n s = (.returned (), (s.setProfile n (some false)).setProfile n none) := by
  have hfirst : detachRoleToInstanceProfile a n s = (.returned (), s.setProfile n (some false)) := by
    rw [detachRoleToInstanceProfile, hremove, check_none_bind, reads_bind_apply, hprofile]
    rfl
  rw [takeProfile, bind_of_returned hfirst, deleteInstanceProfile, hdelete, check_none_bind, reads_bind_apply,
    profiles_setProfile_self]
  rfl

-- all the other names are kept, and this one has the profile that its policy asks for
theorem kept_of_profile {p q : Option Bool} (hother : ∀ m, m ≠ n → s.profiles m = if allows lower s m then some true else none)
    (hself : q = if allows lower s n then some true else none) : Kept lower ((s.setProfile n p).setProfile n q) := by
  intro m
  have hm : allows lower ((s.setProfile n p).setProfile n q) m = allows lower s m := allows_of_roles rfl
  rw [hm]
  obtain rfl | hne := eq_or_ne m n
  · rw [profiles_setProfile_self, hself]
  · rw [profiles_setProfile_ne _ hne, profiles_setProfile_ne _ hne, hother m hne]

end Profiles

section Attachments

variable {lower : LowerCase} {a : Answers} {n : String} {s : Iam}

theorem modifyRole_eq {f : AwsRole → AwsRole} {role : AwsRole} (h : s.roles n = some role) :
    modifyRole n f s = (.returned (), s.setRole n (some (f role))) := by
  rw [modifyRole, reads_bind_apply, h]
  rfl

theorem detachRolePolicy_eq {arn : String} {arns : List String} {k : Nat} {role : AwsRole}
    (hfault : a.fault (.detachRolePolicy k) = none) (h : s.roles n = some role) (harns : role.attached = arn :: arns) :
    detachRolePolicy a n k arn s = (.returned (), s.setRole n (some (detach arn role))) ∧ (detach arn role).attached = arns := by
  constructor
  · rw [detachRolePolicy, hfault, check_none_bind, reads_bind_apply, h]
    simp only [harns, List.mem_cons_self, if_true]
    rfl
  · have herase : (detach arn role).attached = role.attached.erase arn := rfl
    rw [herase, harns, List.erase_cons_head]

theorem each_attach_returned {arns : List String} {k : Nat} (hfault : ∀ i < k + arns.length, a.fault (.attachRolePolicy i) = none)
    (h : (s.roles n).isSome = true) :
    ∃ t, each (fun p => attachRolePolicy a n p.2 p.1) (arns.zipIdx k) s = (.returned (), t) := by
  induction arns generalizing k s with
  | nil => exact ⟨s, rfl⟩
  | cons arn arns ih =>
    obtain ⟨role, hrole⟩ := Option.isSome_iff_exists.mp h
    have hstep : attachRolePolicy a n k arn s = (.returned (), s.setRole n (some (attach arn role))) := by
      rw [attachRolePolicy, hfault k (by simp), check_none_bind, modifyRole_eq hrole]
    rw [List.zipIdx_cons, each, bind_of_returned hstep]
    refine ih (fun i hi => hfault i ?_) ?_
    · rw [List.length_cons]
      omega
    · rw [roles_setRole_self]
      rfl

theorem attachRolePolicies_returned {arns : List String} (hfault : ∀ i < arns.length, a.fault (.attachRolePolicy i) = none)
    (h : (s.roles n).isSome = true) : ∃ t, attachRolePolicies a n arns s = (.returned (), t) ∧ Same lower s t := by
  obtain ⟨t, ht⟩ := @each_attach_returned a n s arns 0 (fun i hi => hfault i (by simpa using hi)) h
  exact ⟨t, ht, (congrArg (Same lower s) (congrArg Prod.snd ht)).mp (keeps_attachRolePolicies arns s)⟩

-- the policies of the fresh record are all detached
theorem each_detach_returned {arns : List String} {k : Nat} {role : AwsRole}
    (hfault : ∀ i < k + arns.length, a.fault (.detachRolePolicy i) = none) (h : s.roles n = some role)
    (harns : role.attached = arns) :
    ∃ t role', each (fun p => detachRolePolicy a n p.2 p.1) (arns.zipIdx k) s = (.returned (), t) ∧
      t.roles n = some role' ∧ role'.attached = [] := by
  induction arns generalizing k s role with
  | nil => exact ⟨s, role, rfl, h, harns⟩
  | cons arn arns ih =>
    obtain ⟨hstep, hrest⟩ := detachRolePolicy_eq (hfault k (by simp)) h harns
    rw [List.zipIdx_cons, each, bind_of_returned hstep]
    refine ih (fun i hi => hfault i ?_) (roles_setRole_self _) hrest
    rw [List.length_cons]
    omega

theorem detachRolePolicies_returned {arns : List String} {role : AwsRole}
    (hfault : ∀ i < arns.length, a.fault (.detachRolePolicy i) = none) (h : s.roles n = some role)
    (harns : role.attached = arns) : ∃ t role', detachRolePolicies a n arns s = (.returned (), t) ∧
      t.roles n = some role' ∧ role'.attached = [] ∧ Same lower s t := by
  obtain ⟨t, role', ht, hrole', hempty⟩ :=
    @each_detach_returned a n s arns 0 role (fun i hi => hfault i (by simpa using hi)) h harns
  exact ⟨t, role', ht, hrole', hempty, (congrArg (Same lower s) (congrArg Prod.snd ht)).mp (keeps_detachRolePolicies arns s)⟩

end Attachments

section Create

variable {lower : LowerCase} {a : Answers} {s : Iam} {e : IamRole}

theorem keeps_readNewRole : (same lower).Keeps (readNewRole a e) := by
  refine Frame.keeps_bind keeps_getRole fun newRole => ?_
  cases newRole with
  | none => exact Frame.keeps_pure _
  | some newRole => exact Frame.keeps_bind (Frame.keeps_check _) fun _ =>
      Frame.keeps_bind (keeps_runIf_check _ _) fun _ => Frame.keeps_pure _

theorem keeps_settleRole : (same lower).Keeps (settleRole a e) :=
  Frame.keeps_bind (Frame.keeps_check _) fun _ => Frame.keeps_bind (Frame.keeps_check _) fun _ =>
    Frame.keeps_bind (keeps_attachRolePolicies _) fun _ => Frame.keeps_check _

theorem settleRole_returned (harn : a.createdArn ≠ "") (hwindow : ∀ c ∈ createWindow e, a.fault c = none)
    (h : (s.roles e.roleName).isSome = true) : ∃ t, settleRole a e s = (.returned (), t) ∧ Same lower s t := by
  have hattach : ∀ i < (e.attachedPoliciesArns.getD []).length, a.fault (.attachRolePolicy i) = none :=
    fun i hi => hwindow _ (by simp [createWindow, hi])
  have hexists : a.fault .waitUntilRoleExists = none := hwindow _ (by simp [createWindow])
  have hattached : a.fault .waitForAttachedRolePolicies = none := hwindow _ (by simp [createWindow])
  obtain ⟨t, ht, hsame⟩ := attachRolePolicies_returned hattach h
  refine ⟨t, ?_, hsame⟩
  rw [settleRole, if_neg harn, check_none_bind, hexists, check_none_bind, bind_of_returned ht, hattached]
  rfl

-- a role is created, or nothing is
theorem createNewRole_cases (a : Answers) (e : IamRole) (s : Iam) :
    (∃ err, createNewRole a e s = (.thrown err, s)) ∨
      ∃ policy, a.fault .createRole = none ∧ s.roles e.roleName = none ∧ e.assumeRolePolicyDocument = some policy ∧
        createNewRole a e s = (.returned (), s.setRole e.roleName
          (some ⟨a.createdArn, policy, e.description, [], List.nodup_nil⟩)) := by
  rw [createNewRole]
  cases hfault : a.fault .createRole with
  | some err => exact .inl ⟨err, rfl⟩
  | none =>
    rw [check_none_bind, reads_bind_apply]
    cases hrole : s.roles e.roleName with
    | some role => exact .inl ⟨_, rfl⟩
    | none =>
      cases hdoc : e.assumeRolePolicyDocument with
      | none => exact .inl ⟨_, rfl⟩
      | some policy => exact .inr ⟨policy, rfl, rfl, rfl, rfl⟩

theorem kept_createOne (h : Kept lower s) (hok : CreateUnbroken lower (e, a) s) : Kept lower (createOne lower a e s).2 := by
  rw [createOne]
  rcases createNewRole_cases a e s with ⟨err, hrun⟩ | ⟨policy, hfault, hrole, hdoc, hrun⟩
  · rw [bind_of_thrown hrun]
    exact h
  · rw [bind_of_returned hrun]
    generalize hnew : s.setRole e.roleName _ = t at hrun ⊢
    have hallow : allows lower t e.roleName = allowEc2Service lower e := by
      rw [← hnew, allows_some (roles_setRole_self _)]
      exact allowEc2Service_eq hdoc.symm
    cases hec2 : allowEc2Service lower e with
    | false =>
      have ht : Kept lower t := by
        rw [← hnew] at hallow ⊢
        exact kept_setRole h ((hallow.trans hec2).trans (allows_none hrole).symm)
      refine kept_of_keeps (Frame.keeps_bind keeps_settleRole fun _ => ?_) ht
      exact Frame.keeps_bind (Frame.keeps_pure ()) fun _ => keeps_readNewRole
    | true =>
      obtain ⟨harn, hwindow⟩ := hok hrole hec2 hfault
      have hexists : (t.roles e.roleName).isSome = true := by
        rw [← hnew, roles_setRole_self]
        rfl
      obtain ⟨u, hsettle, hsame⟩ := @settleRole_returned lower a t e harn hwindow hexists
      have hnone : u.profiles e.roleName = none := by
        rw [hsame.profiles, ← hnew]
        exact (h e.roleName).trans (by rw [allows_none hrole]; rfl)
      have hgive := giveProfile_eq (hwindow _ (by simp [createWindow])) (hwindow _ (by simp [createWindow])) hnone
        ((hsame.isSome e.roleName).trans hexists)
      rw [bind_of_returned hsettle, runIf, if_pos rfl, bind_of_returned hgive]
      refine kept_of_keeps keeps_readNewRole (kept_of_profile (fun m hm => ?_) ?_)
      · have hroles : t.roles m = s.roles m := by
          rw [← hnew]
          exact roles_setRole_ne _ hm
        rw [hsame.profiles, hsame.allows, allows_of_roles hroles, ← hnew]
        exact h m
      · rw [hsame.allows, hallow, hec2]
        rfl

end Create

section Update

variable {lower : LowerCase} {a : Answers} {s : Iam} {e b : IamRole} {role : AwsRole}

theorem kept_updatePolicy (h : Kept lower s) (hrole : s.roles e.roleName = some role)
    (hwindow : e.assumeRolePolicyDocument ≠ none →
      allowEc2Service lower e ≠ allowEc2Service lower (record e.roleName role) → a.fault .updateAssumeRolePolicy = none →
      ∀ c ∈ updateWindow lower e, a.fault c = none) :
    Kept lower (updatePolicy lower a e (record e.roleName role) s).2 := by
  rw [updatePolicy]
  cases hdoc : e.assumeRolePolicyDocument with
  | none => exact h
  | some policy =>
    cases hfault : a.fault .updateAssumeRolePolicy with
    | some err => exact h
    | none =>
      have hold := @allows_some lower _ _ _ hrole
      simp only [check_none_bind, bind_of_returned (modifyRole_eq hrole)]
      generalize hnew : s.setRole e.roleName _ = t
      have hallow : allows lower t e.roleName = allowEc2Service lower e := by
        rw [← hnew, allows_some (roles_setRole_self _)]
        exact allowEc2Service_eq hdoc.symm
      have hother : ∀ m, m ≠ e.roleName → t.profiles m = if allows lower t m then some true else none := by
        intro m hm
        rw [← hnew, allows_of_roles (roles_setRole_ne _ hm)]
        exact h m
      have hprofile : t.profiles e.roleName = if allows lower s e.roleName then some true else none := by
        rw [← hnew]
        exact h e.roleName
      have hexists : (t.roles e.roleName).isSome = true := by
        rw [← hnew, roles_setRole_self]
        rfl
      by_cases heq : allowEc2Service lower e = allowEc2Service lower (record e.roleName role)
      · have hsame : Kept lower t := by
          rw [← hnew] at hallow ⊢
          exact kept_setRole h (hallow.trans (heq.trans hold.symm))
        simp only [heq, Bool.and_not_self]
        exact hsame
      · have hcalls := hwindow (by simp [hdoc]) heq hfault
        rw [updateWindow] at hcalls
        cases hec2 : allowEc2Service lower e with
        | true =>
          have hbefore : allowEc2Service lower (record e.roleName role) = false := by simpa [hec2] using heq
          rw [hold, hbefore] at hprofile
          rw [if_pos hec2] at hcalls
          have hgive := giveProfile_eq (hcalls _ (by simp)) (hcalls _ (by simp)) hprofile hexists
          simp only [hbefore, Bool.not_false, Bool.and_self, Bool.not_true, runIf, if_true, bind_of_returned hgive]
          exact kept_of_profile hother (by rw [hallow, hec2]; rfl)
        | false =>
          have hbefore : allowEc2Service lower (record e.roleName role) = true := by simpa [hec2] using heq
          rw [hold, hbefore] at hprofile
          rw [if_neg (by simp [hec2])] at hcalls
          have htake := takeProfile_eq (hcalls _ (by simp)) (hcalls _ (by simp)) hprofile
          simp only [hbefore, Bool.not_false, Bool.and_self, Bool.not_true, Bool.false_eq_true, runIf,
            if_false, if_true, pure_bind_apply, htake]
          exact kept_of_profile hother (by rw [hallow, hec2]; rfl)

theorem keeps_updatePolicies : (same lower).Keeps (updatePolicies a e b) :=
  Frame.keeps_bind (keeps_detachRolePolicies _) fun _ => Frame.keeps_bind (keeps_attachRolePolicies _) fun _ =>
    Frame.keeps_check _

theorem keeps_updateDescription : (same lower).Keeps (updateDescription a e) :=
  Frame.keeps_bind (Frame.keeps_check _) fun _ => keeps_modifyRole fun _ => rfl

theorem keeps_updatedRecord (update : Bool) : (same lower).Keeps (updatedRecord a e b update) := by
  cases update with
  | true => exact keeps_getRole
  | false => exact Frame.keeps_pure _

theorem keeps_runIf {c : Bool} {p : Prog Iam AwsError Unit} (h : (same lower).Keeps p) : (same lower).Keeps (runIf c p) := by
  cases c with
  | true => exact h
  | false => exact Frame.keeps_pure ()

theorem kept_bind {α β : Type} {p : Prog Iam AwsError α} {k : α → Prog Iam AwsError β} (hp : Kept lower (p s).2)
    (hk : ∀ x, (same lower).Keeps (k x)) : Kept lower ((p >>= k) s).2 :=
  (Frame.rel_after_bind hk s).kept hp

theorem kept_updateOne (h : Kept lower s) (hrole : s.roles e.roleName = some role) (hok : UpdateUnbroken lower (e, a) s) :
    Kept lower (updateOne lower a e (record e.roleName role) s).2 := by
  rw [updateOne]
  by_cases hservice : isServiceRole (record e.roleName role) = true
  · simp only [if_pos hservice]
    exact kept_of_keeps (Frame.keeps_bind (Frame.keeps_check _) fun _ => Frame.keeps_pure _) h
  · simp only [if_neg hservice]
    refine kept_bind ?_ fun _ => Frame.keeps_bind (keeps_runIf keeps_updatePolicies) fun _ =>
      Frame.keeps_bind (keeps_runIf keeps_updateDescription) fun _ => Frame.keeps_bind (keeps_updatedRecord _) fun _ =>
        Frame.keeps_bind (Frame.keeps_check _) fun _ => Frame.keeps_pure _
    cases hdiffers : policiesAreSame lower e.assumeRolePolicyDocument (record e.roleName role).assumeRolePolicyDocument with
    | true => exact h
    | false =>
      exact kept_updatePolicy h hrole fun hdoc hne hfault =>
        hok role hrole (by simpa using hservice) hdiffers hdoc hne hfault

theorem kept_updateRole {j : Job} (h : Kept lower s) (hok : UpdateUnbroken lower j s) :
    Kept lower (updateRole lower j s).2 := by
  rw [updateRole, freshly, reads_bind_apply]
  cases hrole : s.roles j.1.roleName with
  | none => exact h
  | some role => exact kept_updateOne h hrole hok

end Update

section Delete

variable {lower : LowerCase} {a : Answers} {n : String} {s : Iam} {role : AwsRole}

theorem kept_of_same {α : Type} {p : Prog Iam AwsError α} (h : (same lower).Keeps p) :
    (Frame.ofInvariant (Kept lower)).Keeps p := fun s hs => (h s).kept hs

-- the rest of a deletion, whatever the profile has become
theorem keeps_rest (entity : IamRole) : (Frame.ofInvariant (Kept lower)).Keeps (do
    detachRolePolicies a entity.roleName (entity.attachedPoliciesArns.getD [])
    check (a.fault .waitForAttachedRolePolicies)
    deleteRole a entity.roleName) :=
  Frame.keeps_bind (kept_of_same (keeps_detachRolePolicies _)) fun _ =>
    Frame.keeps_bind (Frame.keeps_check _) fun _ _ hs => kept_deleteRole hs

theorem deleteProfile_failed {err : AwsError} (h : a.fault .removeRoleFromInstanceProfile = some err) :
    (deleteProfile a n s).2 = s := by
  have htake : attempt (takeProfile a n) s = (.returned (.error err), s) := by
    rw [attempt_error, takeProfile, detachRoleToInstanceProfile, h]
    rfl
  rw [deleteProfile, bind_of_returned htake]
  by_cases hcode : err.code = "NoSuchEntity"
  · simp only [if_pos hcode]
    rfl
  · simp only [if_neg hcode]
    rfl

-- the whole deletion of a role for ec2, where nothing fails
theorem deleteRole_whole (h : Kept lower s) (hrole : s.roles n = some role) (hec2 : allowEc2Service lower (record n role) = true)
    (hremove : a.fault .removeRoleFromInstanceProfile = none) (hwindow : ∀ c ∈ deleteWindow (record n role), a.fault c = none) :
    Kept lower ((do
      deleteProfile a n
      detachRolePolicies a n ((record n role).attachedPoliciesArns.getD [])
      check (a.fault .waitForAttachedRolePolicies)
      deleteRole a n : Prog Iam AwsError Unit) s).2 := by
  have hprofile : s.profiles n = some true := by rw [h n, allows_some hrole, hec2]; rfl
  have htake := takeProfile_eq hremove (hwindow _ (by simp [deleteWindow])) hprofile
  have hdelete : deleteProfile a n s = (.returned (), (s.setProfile n (some false)).setProfile n none) := by
    rw [deleteProfile, bind_of_returned (attempt_ok.mpr htake)]
    rfl
  have harns : role.attached = (record n role).attachedPoliciesArns.getD [] := by
    rw [record]
    cases hattached : role.attached with
    | nil => rfl
    | cons arn arns => rfl
  have hdetach : ∀ i < ((record n role).attachedPoliciesArns.getD []).length, a.fault (.detachRolePolicy i) = none :=
    fun i hi => hwindow _ (by simp [deleteWindow, hi])
  obtain ⟨t, role', ht, hrole', hempty, hsame⟩ := @detachRolePolicies_returned lower a n
    ((s.setProfile n (some false)).setProfile n none) _ role hdetach hrole harns
  have hnone : t.profiles n = none := by rw [hsame.profiles, profiles_setProfile_self]
  have hgone : deleteRole a n t = (.returned (), t.setRole n none) := by
    rw [deleteRole, hwindow .deleteRole (by simp [deleteWindow]), check_none_bind, reads_bind_apply, reads_bind_apply,
      hrole', hnone]
    simp only [hempty]
    rfl
  rw [bind_of_returned hdelete, bind_of_returned ht, hwindow .waitForAttachedRolePolicies (by simp [deleteWindow]),
    check_none_bind, hgone]
  intro m
  obtain rfl | hm := eq_or_ne m n
  · rw [allows_none (roles_setRole_self _)]
    exact hnone
  · have hbefore : (t.setRole n none).profiles m = s.profiles m := by
      show t.profiles m = s.profiles m
      rw [hsame.profiles, profiles_setProfile_ne _ hm, profiles_setProfile_ne _ hm]
    rw [hbefore, allows_of_roles (roles_setRole_ne _ hm), hsame.allows m]
    exact h m

theorem kept_deleteEntity (h : Kept lower s) (hrole : s.roles n = some role) (hok : DeleteUnbroken lower (n, a) s) :
    Kept lower (deleteEntity lower a (record n role) s).2 := by
  rw [deleteEntity]
  split
  · next harn =>
    split
    · exact kept_of_keeps (Frame.keeps_check _) h
    · next hservice =>
      cases hec2 : allowEc2Service lower (record n role) with
      | false => exact keeps_rest (record n role) s h
      | true =>
        cases hremove : a.fault .removeRoleFromInstanceProfile with
        | some err =>
          -- the profile stays, and then so does the role
          have hprofile : (Frame.ofInvariant (Kept lower)).Keeps (runIf true (deleteProfile a n)) :=
            fun _ ht => (congrArg (Kept lower) (deleteProfile_failed hremove)).mpr ht
          exact Frame.keeps_bind hprofile (fun _ => keeps_rest (record n role)) s h
        | none =>
          have hne : role.arn ≠ "" := by simpa [Aws.truthy, record] using harn
          exact deleteRole_whole h hrole hec2 hremove (hok role hrole hne (by simpa using hservice) hec2 hremove)
  · exact h

theorem kept_removeRole {j : String × Answers} (h : Kept lower s) (hok : DeleteUnbroken lower j s) :
    Kept lower (removeRole lower j s).2 := by
  rw [removeRole, freshly, reads_bind_apply]
  cases hrole : s.roles j.1 with
  | none => exact h
  | some role =>
    simp only [Option.map_some, deleteOne, bind_pure_snd]
    exact kept_deleteEntity h hrole hok

end Delete

section Runs

variable {lower : LowerCase} {s : Iam} {op : Op}

theorem kept_perform (h : Kept lower s) (hok : Unbroken lower op s) : Kept lower (perform lower op s).2 := by
  cases op with
  | create jobs => exact gather_inTurn (fun _ _ ht hj => kept_createOne ht hj) h hok
  | update jobs => exact gather_inTurn (fun _ _ ht hj => kept_updateRole ht hj) h hok
  | delete jobs => exact gather_inTurn (fun _ _ ht hj => kept_removeRole ht hj) h hok

theorem Kept.follows (h : Kept lower s) : Follows lower s := by
  intro n
  rw [h n]
  cases allows lower s n with
  | true => exact iff_of_true rfl rfl
  | false => exact iff_of_false nofun nofun

def Step (lower : LowerCase) (s : Iam) (op : Op) (t : Iam) : Prop := (perform lower op s).2 = t

-- from an account where the profiles follow, through calls that are not broken off between a role and its profile
theorem profiles_follow (h : Runs.RunFrom (Kept lower) (Step lower) (fun s op => Unbroken lower op s) s) :
    Follows lower s :=
  Kept.follows (h.invariant (fun _ hs => hs) fun _ _ _ hkept hok hstep => hstep ▸ kept_perform hkept hok)

end Runs

section Throttled

def ascii : LowerCase := ⟨id, fun _ => rfl⟩

def trust : Policy where
  id := none
  statement := .one ⟨some (.one (js "sts:assumerole")), none,
    some (.kinds ⟨none, some (.one (js "ec2.amazonaws.com")), none⟩), none, none, none, none, .allow, none⟩
  version := js "2012-10-17"

def web : IamRole where
  roleName := "web"
  assumeRolePolicyDocument := some trust

theorem profiles_follow_web : Follows ascii (perform ascii (.create [(web, {})]) {}).2 := by
  have hok : Unbroken ascii (.create [(web, {})]) {} :=
    ⟨fun _ _ _ => ⟨by decide, fun _ _ => rfl⟩, fun _ _ _ => trivial⟩
  exact profiles_follow ((Runs.RunFrom.start fun _ => rfl).next hok rfl)

def throttled : Answers where
  fault c := if c = .createInstanceProfile then some ⟨"Throttling", "Rate exceeded"⟩ else none

-- what the failed creation leaves behind
def created : Iam := (perform ascii (.create [(web, throttled)]) {}).2

-- the retry finds the new role with its policy and has nothing to do
theorem profile_never_made : ¬ ∀ s, Runs.RunFrom (Kept ascii) (Step ascii) (fun _ _ => True) s →
    ∀ op out t, perform ascii op s = (.returned out, t) → Follows ascii t := by
  intro h
  have hcreated := (Runs.RunFrom.start fun _ => rfl : Runs.RunFrom (Kept ascii) (Step ascii) (fun _ _ => True) {}).next
    (a := .create [(web, throttled)]) trivial rfl
  have hretry : perform ascii (.update [(web, {})]) created = (.returned [_], created) := rfl
  have hfollows := h created hcreated _ _ _ hretry "web"
  have hallow : allows ascii created "web" = true := by decide
  have hnone : created.profiles "web" = none := by decide
  cases hnone.symm.trans (hfollows.mpr hallow)

end Throttled

end Iasql.InstanceProfiles
