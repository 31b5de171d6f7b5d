import Iasql.Listeners

namespace Iasql

def Cloudwatch.MetricAlarm.entityId (m : Cloudwatch.MetricAlarm) : String :=
  if m.alarmName = "" ∨ m.region = "" then (m.id.map toString).getD "undefined"
  else m.alarmName ++ "|" ++ m.region

namespace Elb

open Program Prog Aws

section Operations

variable (ctx : Ctx)

def noAlarmArn : Thrown := .error "Cannot read properties of undefined (reading 'alarmArn')"

def noAlarmName : Thrown := .error "Cannot update a metric alarm without a name"

-- the turn of the loop for one alarm: one whose arn was changed is restored
def updateMetricAlarm (client : String) (m : Cloudwatch.MetricAlarm) : Prog State Thrown (Option Unit) := do
  match ← reads fun s : State => s.metricAlarms.get? m.entityId with
  | none => fail noAlarmArn
  | some cloudRecord =>
    if m.alarmArn ≠ cloudRecord.alarmArn then do
      writes fun s =>
        { s with metricAlarms := s.metricAlarms.set m.entityId { cloudRecord with id := m.id } }
      return none
    else if m.alarmName = "" then fail noAlarmName
    else do
      call ctx.aws.done client (.metricAlarm m) (.putMetricAlarm (Cloudwatch.putInput m))
      return none

def updateMetricAlarms (mas : List Cloudwatch.MetricAlarm) : Prog State Thrown Unit := do
  let client ← getAwsClient ctx none
  let _ ← forOf (updateMetricAlarm ctx client) mas

-- what cloud.update of one of the three mappers is given
inductive Batch where
  | targetGroups (es : List TargetGroup)
  | listeners (es : List Listener)
  | metricAlarms (mas : List Cloudwatch.MetricAlarm)

def update : Batch → Prog State Thrown Unit
  | .targetGroups es => updateTargetGroups ctx es
  | .listeners es => updateListeners ctx es
  | .metricAlarms mas => updateMetricAlarms ctx mas

def State.uncalled (memo : State) : State := { memo with calls := [] }

-- each call of the update is on the client of the region of its record
def RoutesEach (b : Batch) (memo : State) : Prop := ∀ c ∈ (update ctx b memo.uncalled).2.calls, Routed c

-- an alarm is put on the client of the batch
def MetricAlarmTurn (client : String) (s : State) (m : Cloudwatch.MetricAlarm) : Prop :=
  ∀ cloudRecord, s.metricAlarms.get? m.entityId = some cloudRecord →
    m.alarmArn = cloudRecord.alarmArn → m.alarmName ≠ "" → client = m.region

-- where the client of the default region is used, it is that of the record
def OnlyDefault (b : Batch) (memo : State) : Prop :=
  let client := ctx.region none
  match b with
  | .targetGroups es =>
    EachTurn (TargetGroupTurn client) (updateTargetGroup ctx client) es memo.uncalled
  | .listeners es => EachTurn (ListenerTurn client) (updateListener ctx client) es memo.uncalled
  | .metricAlarms mas =>
    EachTurn (MetricAlarmTurn client) (updateMetricAlarm ctx client) mas memo.uncalled

end Operations

section Routing

variable {ctx : Ctx} {client : String}

theorem clean_updateMetricAlarm_iff (m : Cloudwatch.MetricAlarm) (s : State) :
    Clean State.calls Routed (updateMetricAlarm ctx client m s).2 ↔
      Clean State.calls Routed s ∧ MetricAlarmTurn client s m := by
  rw [updateMetricAlarm, reads_bind_apply, MetricAlarmTurn]
  cases s.metricAlarms.get? m.entityId with
  | none =>
    have hturn : ∀ cloudRecord, (none : Option Cloudwatch.MetricAlarm) = some cloudRecord →
        m.alarmArn = cloudRecord.alarmArn → m.alarmName ≠ "" → client = m.region :=
      fun _ h => by cases h
    exact (and_iff_left hturn).symm
  | some cloudRecord =>
    dsimp only
    split
    · next harn =>
      refine (and_iff_left fun record hrecord hsame => ?_).symm
      obtain rfl := Option.some.inj hrecord
      exact absurd hsame harn
    · next harn =>
      split
      · next hname => exact (and_iff_left fun _ _ _ hnamed => absurd hname hnamed).symm
      · next hname =>
        refine (clean_bind_iff (R := fun _ => True) (D := Routed) calls_call (fun _ _ _ _ => trivial)
          (fun _ _ => issues_of_kept fun _ => rfl) fun _ _ hd => hd).trans (and_congr Iff.rfl ?_)
        exact ⟨fun h _ _ _ _ => h, fun h => h cloudRecord rfl (not_not.mp harn) hname⟩

-- the client of a batch is taken once, from the default region
theorem clean_batch_iff {E : Type} {cond : State → E → Prop}
    {body : String → E → Prog State Thrown (Option Unit)}
    (h : ctx.hasCredentials = true → ∀ e s, Clean State.calls Routed (body (ctx.region none) e s).2 ↔
      Clean State.calls Routed s ∧ cond s e) (es : List E) (memo : State) :
    Clean State.calls Routed ((getAwsClient ctx none >>= fun client =>
        forOf (body client) es >>= fun _ => pure ()) memo.uncalled).2 ↔
      (ctx.hasCredentials = true → EachTurn cond (body (ctx.region none)) es memo.uncalled) := by
  have hstart : Clean State.calls Routed memo.uncalled := List.forall_mem_nil _
  cases hcredentials : ctx.hasCredentials with
  | false =>
    rw [getAwsClient, if_neg (by simp [hcredentials]), fail_bind_apply]
    exact iff_of_true hstart fun hno => absurd hno (by decide)
  | true =>
    rw [getAwsClient, if_pos hcredentials, pure_bind_apply]
    have hloop := clean_forOf_iff (h hcredentials) es memo.uncalled
    have hunit : ((forOf (body (ctx.region none)) es >>= fun _ => pure ()) memo.uncalled).2 =
        (forOf (body (ctx.region none)) es memo.uncalled).2 :=
      bind_pure_snd _ (fun _ => ()) _
    rw [hunit, hloop]
    exact ⟨fun hturns _ => hturns.2, fun hturns => ⟨hstart, hturns rfl⟩⟩

-- calls go where their records lie exactly when the client of the batch is used for records of the
-- default region only
theorem update_routed_iff (ctx : Ctx) (b : Batch) (memo : State) :
    RoutesEach ctx b memo ↔ (ctx.hasCredentials = true → OnlyDefault ctx b memo) := by
  cases b with
  | targetGroups es => exact clean_batch_iff (fun _ => clean_updateTargetGroup_iff) es memo
  | listeners es => exact clean_batch_iff clean_updateListener_iff es memo
  | metricAlarms mas => exact clean_batch_iff (fun _ => clean_updateMetricAlarm_iff) mas memo

end Routing

section Misrouted

-- AWS has no record of eu-west-1 on the client of another region, and puts the alarm there
def usEast : Provider where
  vpcs _ _ _ := .ok []
  targetGroup _ _ _ := .error (.error "TargetGroupNotFound")
  listener _ _ _ := .error (.error "ListenerNotFound")
  certificate _ _ _ := .ok none
  done _ _ _ := .ok ()
  code _ := "NotFound"
  here := listener_nowhere

def unread : Known where
  vpc _ _ _ := none
  dhcpOptions _ _ _ := false
  loadBalancer _ := none
  targetGroup _ _ := none
  certificate _ _ := none
  save _ _ := .ok ()

def account : Ctx where
  defaultRegion := some "us-east-1"
  hasCredentials := true
  enabledRegions := ["us-east-1", "eu-west-1"]
  aws := usEast
  known := unread

def targets (intervalSeconds : Int) : TargetGroup :=
  { targetGroupName := "web"
    targetGroupArn := some "arn:aws:elasticloadbalancing:eu-west-1:1:targetgroup/web/1"
    healthCheck := { intervalSeconds := some intervalSeconds }
    region := "eu-west-1" }

def webListener (port : Int) (lb : String) : Listener :=
  { listenerArn := some "arn:aws:elasticloadbalancing:eu-west-1:1:listener/app/web/1/1"
    loadBalancer := some { loadBalancerArn := some lb, region := "eu-west-1" }
    port
    targetGroup := targets 30 }

def load (threshold : ℚ) : Cloudwatch.MetricAlarm :=
  { alarmName := "load"
    alarmArn := some "arn:aws:cloudwatch:eu-west-1:1:alarm:load"
    threshold := some threshold
    region := "eu-west-1" }

def imported : State where
  targetGroups := (∅ : Dict String TargetGroup).set (targets 30).entityId (targets 30)
  listeners := (∅ : Dict String Listener).set (webListener 80 "web").entityId (webListener 80 "web")
  metricAlarms := (∅ : Dict String Cloudwatch.MetricAlarm).set (load 1).entityId (load 1)

-- a shorter interval, another port, another load balancer and another threshold
theorem updates_misrouted :
    ¬ RoutesEach account (.targetGroups [targets 10]) imported ∧
      ¬ RoutesEach account (.listeners [webListener 8080 "web"]) imported ∧
      ¬ RoutesEach account (.listeners [webListener 80 "spare"]) imported ∧
      ¬ RoutesEach account (.metricAlarms [load 2]) imported := by
  refine ⟨fun h => ?_, fun h => ?_, fun h => ?_, fun h => ?_⟩
  · exact absurd (h _ (List.mem_singleton.mpr rfl)) (by decide)
  · exact absurd (h _ (List.mem_singleton.mpr rfl)) (by decide)
  · exact absurd (h _ (List.mem_cons_self)) (by decide)
  · exact absurd (h _ (List.mem_singleton.mpr rfl)) (by decide)

end Misrouted

end Elb

end Iasql
