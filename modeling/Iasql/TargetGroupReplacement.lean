import Iasql.TargetGroups

namespace Iasql.Elb

open Program Prog Aws

section Replacement

variable {ctx : Ctx} {client : String} {e c : TargetGroup} {s : State}

-- the calls that take a target group away, or make a new one
def Op.Replaces : Op → Prop
  | .createTargetGroup _ _ => True
  | .deleteTargetGroup _ => True
  | _ => False

def Spares (c : Call) : Prop := ¬ c.op.Replaces

-- the columns that modifyTargetGroup has no field for
def SameImmutables (c e : TargetGroup) : Prop :=
  c.targetGroupName = e.targetGroupName ∧ c.targetType = e.targetType ∧
    c.vpc.bind (·.vpcId) = e.vpc.bind (·.vpcId) ∧ c.port = e.port ∧ c.protocol = e.protocol ∧
    c.ipAddressType = e.ipAddressType ∧ c.protocolVersion = e.protocolVersion ∧ c.region = e.region

-- the record is in the default VPC, and e has no VPC
def LeavesVpcOut (c e : TargetGroup) : Prop :=
  (∃ vpc, c.vpc = some vpc ∧ vpc.isDefault = true) ∧ e.vpc = none

-- e differs in nothing else
structure OnlyVpcLeftOut (c e : TargetGroup) : Prop where
  leavesOut : LeavesVpcOut c e
  others : e = { c with id := e.id, vpc := none }

theorem restores_iff : restores c e = true ↔ LeavesVpcOut c e := by
  rw [restores, Bool.and_eq_true, Option.isNone_iff_eq_none, Option.any_eq_true]
  exact Iff.rfl

theorem replaces_eq_false : replaces c e = false ↔ SameImmutables c e := by
  simp [replaces, SameImmutables, and_assoc]

def SparedTurn (s : State) (e : TargetGroup) : Prop :=
  ∀ c, s.targetGroups.get? (e.targetGroupArn.getD "") = some c → LeavesVpcOut c e ∨ SameImmutables c e

theorem issues_of_spared {α : Type} {answer : History → String → Op → Except Thrown α} {e : Entity} {op : Op}
    (h : ¬ op.Replaces) : Issues State.calls Spares (call answer client e op) := fun s =>
  ⟨[⟨client, e, op⟩], calls_call s, List.forall_mem_singleton.mpr h⟩

theorem spares_getAwsClient (selectedRegion : Option String) :
    Issues State.calls Spares (getAwsClient ctx selectedRegion) := issues_getAwsClient _

theorem spares_readVpc (e : Entity) (vpcId region : String) :
    Issues State.calls Spares (readVpc ctx e vpcId region) := by
  refine Issues.bind (issues_of_kept fun _ => rfl) fun known => ?_
  cases known with
  | some vpc => exact issues_of_kept fun _ => rfl
  | none =>
    dsimp only
    split
    · refine (spares_getAwsClient _).bind fun client => (issues_of_spared id).bind fun vpcs => ?_
      cases vpcs.head? with
      | none => exact issues_of_kept fun _ => rfl
      | some rawVpc =>
        refine (spares_getAwsClient _).bind fun client => ?_
        dsimp only
        split
        · exact issues_of_kept fun _ => rfl
        · refine (Issues.runIf _ (issues_each (fun _ => issues_of_spared id) _)).bind fun _ => ?_
          refine Issues.bind (issues_of_kept fun _ => rfl) fun known => ?_
          refine (Issues.runIf _ ((spares_getAwsClient _).bind fun _ => issues_of_spared id)).bind
            fun _ => ?_
          exact issues_of_kept fun _ => rfl
    · exact issues_of_kept fun _ => rfl

theorem spares_targetGroupMapper (e : Entity) (tg : Option AwsTargetGroup) (region : String) :
    Issues State.calls Spares (targetGroupMapper ctx e tg region) := by
  rw [targetGroupMapper]
  cases tg.filter fun tg => Aws.truthy tg.targetGroupName with
  | none => exact issues_of_kept fun _ => rfl
  | some tg =>
    refine (spares_readVpc _ _ _).attempt.bind fun vpc => ?_
    cases vpc with
    | ok vpc => exact issues_of_kept fun _ => rfl
    | error err => exact issues_of_kept fun _ => rfl

-- what replaces a target group deletes it first
theorem not_clean_cloudDelete {α : Type} {k : Unit → Prog State Thrown α}
    (hcredentials : ctx.hasCredentials = true) (hk : Issues State.calls (fun _ => True) (k ())) :
    ¬ Clean State.calls Spares ((cloudDelete ctx c >>= k) s).2 := by
  rw [cloudDelete, getAwsClient, if_pos hcredentials]
  have hrest : Issues State.calls (fun _ => True) (writes (unmemo c) >>= k) :=
    Issues.bind (issues_of_kept fun _ => rfl) fun _ => hk
  have hclean := @clean_bind_iff State Thrown Unit α Call State.calls
    (call ctx.aws.done (ctx.region (some c.region)) (.targetGroup c) (.deleteTargetGroup c.targetGroupArn))
    (fun _ => writes (unmemo c) >>= k) (fun _ => True) Spares s (fun _ => True) _ calls_call
    (fun _ _ _ _ => trivial) (fun _ _ => hrest) fun hspared => absurd trivial hspared
  intro h
  rw [bind_assoc_apply, pure_bind_apply, bind_assoc_apply] at h
  exact (hclean.mp h).2 trivial

theorem clean_turn_iff (hcredentials : ctx.hasCredentials = true) (e : TargetGroup) (s : State) :
    Clean State.calls Spares (updateTargetGroup ctx client e s).2 ↔
      Clean State.calls Spares s ∧ SparedTurn s e := by
  rw [updateTargetGroup, reads_bind_apply, SparedTurn]
  cases s.targetGroups.get? (e.targetGroupArn.getD "") with
  | none =>
    have hturn : ∀ c, (none : Option TargetGroup) = some c → LeavesVpcOut c e ∨ SameImmutables c e :=
      fun _ h => by cases h
    exact (and_iff_left hturn).symm
  | some c =>
    have hturn : (∀ d, some c = some d → LeavesVpcOut d e ∨ SameImmutables d e) ↔
        LeavesVpcOut c e ∨ SameImmutables c e :=
      ⟨fun h => h c rfl, fun h d hd => Option.some.inj hd ▸ h⟩
    rw [hturn, ← restores_iff, ← replaces_eq_false]
    dsimp only
    cases hrestores : restores c e with
    | true =>
      rw [if_pos rfl, restore_snd]
      exact (and_iff_left (.inl rfl)).symm
    | false =>
      rw [if_neg Bool.false_ne_true, or_iff_right Bool.false_ne_true]
      cases hreplaces : replaces c e with
      | true =>
        rw [if_pos rfl]
        refine iff_of_false ?_ fun h => absurd h.2 (by decide)
        refine not_clean_cloudDelete hcredentials (Issues.bind ?_ fun _ => issues_of_kept fun _ => rfl)
        exact (issues_cloudCreate e).mono fun _ _ => trivial
      | false =>
        rw [if_neg Bool.false_ne_true, and_iff_left rfl]
        refine Issues.clean_iff ((issues_of_spared id).bind fun tg => ?_)
        exact (spares_targetGroupMapper _ _ _).bind fun _ => issues_of_kept fun _ => rfl

-- a batch makes such a call exactly where it comes to a target group that cannot be modified
theorem spares_batch_iff (es : List TargetGroup) :
    (∀ c ∈ (updateTargetGroups ctx es { s with calls := [] }).2.calls, Spares c) ↔
      (ctx.hasCredentials = true →
        EachTurn SparedTurn (updateTargetGroup ctx (ctx.region none)) es { s with calls := [] }) := by
  change Clean State.calls Spares _ ↔ _
  rw [updateTargetGroups]
  cases hcredentials : ctx.hasCredentials with
  | false =>
    rw [getAwsClient, if_neg (by simp [hcredentials]), fail_bind_apply]
    exact iff_of_true (List.forall_mem_nil _) fun hno => absurd hno (by decide)
  | true =>
    rw [getAwsClient, if_pos hcredentials, pure_bind_apply]
    have hunit := bind_pure_snd (forOf (updateTargetGroup ctx (ctx.region none)) es) (fun _ => ())
      ({ s with calls := [] })
    have hloop := clean_forOf_iff (@clean_turn_iff ctx (ctx.region none) hcredentials)
      es { s with calls := [] }
    rw [hunit, hloop]
    exact ⟨fun hturns _ => hturns.2, fun hturns => ⟨List.forall_mem_nil _, hturns rfl⟩⟩

theorem spares_one (hmemo : s.targetGroups.get? (e.targetGroupArn.getD "") = some c)
    (h : LeavesVpcOut c e ∨ SameImmutables c e) :
    ∀ call ∈ (updateTargetGroups ctx [e] { s with calls := [] }).2.calls, Spares call := by
  refine (spares_batch_iff [e]).mpr fun _ => ⟨fun d hd => ?_, fun _ => trivial⟩
  obtain rfl := Option.some.inj (hmemo.symm.trans hd)
  exact h

-- no target group is replaced for a default VPC that is left out, nor for a column that can be modified
theorem no_needless_replacement (ctx : Ctx) (s : State) (e c : TargetGroup) (es : List TargetGroup)
    (hmemo : s.targetGroups.get? (e.targetGroupArn.getD "") = some c) :
    (OnlyVpcLeftOut c e → ∀ call ∈ (updateTargetGroups ctx [e] { s with calls := [] }).2.calls, Spares call) ∧
      ((∃ call ∈ (updateTargetGroups ctx [e] { s with calls := [] }).2.calls, call.op.Replaces) →
        ¬ SameImmutables c e) ∧
      ((∀ call ∈ (updateTargetGroups ctx es { s with calls := [] }).2.calls, Spares call) ↔
        (ctx.hasCredentials = true → EachTurn SparedTurn (updateTargetGroup ctx (ctx.region none)) es
          { s with calls := [] })) := by
  refine ⟨fun honly => spares_one hmemo (.inl honly.leavesOut), ?_, spares_batch_iff es⟩
  rintro ⟨call, hcall, hreplaces⟩ hsame
  exact spares_one hmemo (.inr hsame) call hcall hreplaces

end Replacement

section Rows

def noAnswers : Ctx where
  defaultRegion := some "us-east-1"
  hasCredentials := true
  enabledRegions := ["us-east-1"]
  aws :=
    { vpcs := fun _ _ _ => .ok []
      targetGroup := fun _ _ _ => .error (.error "TargetGroupNotFound")
      listener := fun _ _ _ => .error (.error "ListenerNotFound")
      certificate := fun _ _ _ => .ok none
      done := fun _ _ _ => .ok ()
      code := fun _ => "NotFound"
      here := listener_nowhere }
  known :=
    { vpc := fun _ _ _ => none
      dhcpOptions := fun _ _ _ => false
      loadBalancer := fun _ => none
      targetGroup := fun _ _ => none
      certificate := fun _ _ => none
      save := fun _ _ => .ok () }

def inDefaultVpc : TargetGroup where
  targetGroupName := "web"
  targetGroupArn := some "arn:aws:elasticloadbalancing:us-east-1:1:targetgroup/web/1"
  vpc := some { vpcId := some "vpc-1", isDefault := true, region := "us-east-1" }
  region := "us-east-1"

def withoutVpc : TargetGroup := { inDefaultVpc with id := some 1, vpc := none }

def cached : State where
  targetGroups := (∅ : Dict String TargetGroup).set inDefaultVpc.entityId inDefaultVpc

theorem default_vpc_spared :
    ¬ ∃ call ∈ (updateTargetGroups noAnswers [withoutVpc] { cached with calls := [] }).2.calls, ¬ Spares call := by
  rintro ⟨call, hcall, hreplaces⟩
  have honly : OnlyVpcLeftOut inDefaultVpc withoutVpc := ⟨⟨⟨_, rfl, rfl⟩, rfl⟩, rfl⟩
  exact hreplaces ((no_needless_replacement noAnswers cached withoutVpc inDefaultVpc [] Dict.get?_set_self).1
    honly call hcall)

end Rows

end Iasql.Elb
