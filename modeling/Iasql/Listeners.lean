import Iasql.TargetGroups

namespace Iasql.Elb

open Program Prog Aws

section Mappers

variable (ctx : Ctx)

def malformedArn : Thrown := .error "Malformed ARN"

-- targetGroup.db.read, or else targetGroup.cloud.read
def readTargetGroup (e : Entity) (arn : String) : Prog State Thrown (Option TargetGroup) := do
  match ← reads fun s : State => ctx.known.targetGroup s.calls arn with
  | some targetGroup => return some targetGroup
  | none =>
    match arnRegion arn with
    | none => fail malformedArn
    | some region => do
      let client ← getAwsClient ctx (some region)
      let rawTargetGroup ← call ctx.aws.targetGroup client e (.describeTargetGroups arn)
      targetGroupMapper ctx e rawTargetGroup region

-- the target group of the last forward action, up to one without a target group
def readActions (e : Entity) :
    List AwsAction → Option TargetGroup → Prog State Thrown (Option TargetGroup)
  | [], found => return found
  | a :: actions, found =>
    if !Aws.truthy a.targetGroupArn then return found
    else if a.type = .forward then do
      match ← readTargetGroup ctx e (a.targetGroupArn.getD "") with
      | none => return found
      | some targetGroup => readActions e actions (some targetGroup)
    else readActions e actions found

-- certificate.db.read, or else certificate.cloud.read
def readCertificate (e : Entity) (arn : String) : Prog State Thrown (Option Certificate) := do
  match ← reads fun s : State => ctx.known.certificate s.calls arn with
  | some certificate => return some certificate
  | none =>
    match arnRegion arn with
    | none => fail malformedArn
    | some region =>
      if region ∈ ctx.enabledRegions then do
        let client ← getAwsClient ctx (some region)
        match ← call ctx.aws.certificate client e (.describeCertificate arn) with
        | none => return none
        | some rawCert => do
          call ctx.aws.done client e (.listTagsForCertificate arn)
          return if Aws.truthy rawCert.domainName then some ⟨some arn, region⟩ else none
      else return none

def listenerMapper (e : Entity) (l : AwsListener) : Prog State Thrown (Option Listener) :=
  if !Aws.truthy l.loadBalancerArn || l.port.getD 0 = 0 then return none
  else do
    match ← readActions ctx e l.defaultActions none with
    | none => return none
    | some targetGroup => do
      let cloudCertificate := l.certificates.getLast?.join
      let hasCertificate := Aws.truthy l.sslPolicy && cloudCertificate.isSome
      let certificate ← if hasCertificate then readCertificate ctx e (cloudCertificate.getD "")
        else pure none
      return some
        { listenerArn := l.listenerArn
          loadBalancer := ctx.known.loadBalancer (l.loadBalancerArn.getD "")
          port := l.port.getD 0
          protocol := l.protocol
          targetGroup
          sslPolicy := if Aws.truthy l.sslPolicy && !l.certificates.isEmpty then l.sslPolicy else none
          certificate }

end Mappers

section Operations

variable (ctx : Ctx)

def Listener.entityId (e : Listener) : String :=
  if Aws.truthy e.listenerArn then e.listenerArn.getD "" else (e.id.map toString).getD "undefined"

def memoListener (e : Listener) (s : State) : State :=
  { s with listeners := s.listeners.set e.entityId e }

def unmemoListener (e : Listener) (s : State) : State :=
  { s with listeners := s.listeners.eraseAll [e.entityId] }

def otherRegion : Thrown := .error "Target group and load balancer are not from the same region."

def createListener (e : Listener) : Prog State Thrown (Option Listener) :=
  if e.loadBalancer.any fun lb => lb.region != e.targetGroup.region then fail otherRegion
  else do
    let client ← getAwsClient ctx (some e.targetGroup.region)
    let result ← call ctx.aws.listener client (.listener e) (.createListener e)
    match result.bind (·.listenerArn) with
    | none => fail failure
    | some arn => do
      match ← call ctx.aws.listener client (.listener e) (.describeListeners arn) with
      | none => return none
      | some newObject => do
        let newEntity ← listenerMapper ctx (.listener e) newObject
        return newEntity.map fun newEntity => { newEntity with id := e.id }

-- listener.cloud.create
def cloudCreateListener (e : Listener) : Prog State Thrown Unit := do
  writes (memoListener e)
  match ← attempt (createListener ctx e) with
  | .ok newEntity => writes fun s => newEntity.elim s fun newEntity => memoListener newEntity s
  | .error err => do
    writes (unmemoListener e)
    fail err

-- listener.cloud.delete
def cloudDeleteListener (e : Listener) : Prog State Thrown Unit := do
  let client ← getAwsClient ctx none
  call ctx.aws.done client (.listener e) (.deleteListener e.listenerArn)
  writes (unmemoListener e)

def noLoadBalancer : Thrown := .error "Cannot read properties of undefined (reading 'loadBalancer')"

def noLoadBalancerArn : Thrown :=
  .error "Cannot read properties of undefined (reading 'loadBalancerArn')"

-- the turn of the loop for one listener
def updateListener (client : String) (e : Listener) : Prog State Thrown (Option Unit) := do
  match ← reads fun s : State => s.listeners.get? (e.listenerArn.getD "") with
  | none => fail noLoadBalancer
  | some cloudRecord =>
    match cloudRecord.loadBalancer, e.loadBalancer with
    | some prev, some next =>
      if prev.loadBalancerArn = next.loadBalancerArn then do
        match ← call ctx.aws.listener client (.listener e) (.modifyListener e) with
        | none => return none
        | some updatedListener => do
          let _ ← listenerMapper ctx (.listener e) updatedListener
          return none
      else do
        cloudDeleteListener ctx cloudRecord
        cloudCreateListener ctx e
        return none
    | _, _ => fail noLoadBalancerArn

def updateListeners (es : List Listener) : Prog State Thrown Unit := do
  let client ← getAwsClient ctx none
  let _ ← forOf (updateListener ctx client) es

end Operations

section Routing

variable {ctx : Ctx} {e : Entity} {region client : String} {C : Call → Prop}

theorem issues_readTargetGroup {arn : String} (h : ∀ r, arnRegion arn = some r → r = region) :
    Issues State.calls (Of region e) (readTargetGroup ctx e arn) := by
  refine Issues.bind (issues_of_kept fun _ => rfl) fun known => ?_
  cases known with
  | some targetGroup => exact issues_of_kept fun _ => rfl
  | none =>
    cases harn : arnRegion arn with
    | none => exact issues_of_kept fun _ => rfl
    | some r =>
      obtain rfl : r = region := h r harn
      exact issues_on (Issues.bind issues_call issues_targetGroupMapper)

theorem issues_readActions {actions : List AwsAction}
    (h : ∀ a ∈ actions, ∀ arn, a.targetGroupArn = some arn → ∀ r, arnRegion arn = some r → r = region)
    (found : Option TargetGroup) : Issues State.calls (Of region e) (readActions ctx e actions found) := by
  induction actions generalizing found with
  | nil => exact issues_of_kept fun _ => rfl
  | cons a actions ih =>
    obtain ⟨ha, hactions⟩ := List.forall_mem_cons.mp h
    rw [readActions]
    split
    · exact issues_of_kept fun _ => rfl
    · next htruthy =>
      split
      · obtain ⟨arn, harn⟩ := truthy_some (by simpa using htruthy)
        have hregion : ∀ r, arnRegion (a.targetGroupArn.getD "") = some r → r = region := by
          rw [harn]
          exact ha arn harn
        refine Issues.bind (issues_readTargetGroup hregion) fun targetGroup => ?_
        cases targetGroup with
        | none => exact issues_of_kept fun _ => rfl
        | some targetGroup => exact ih hactions (some targetGroup)
      · exact ih hactions found

theorem issues_readCertificate {arn : String} (h : ∀ r, arnRegion arn = some r → r = region) :
    Issues State.calls (Of region e) (readCertificate ctx e arn) := by
  refine Issues.bind (issues_of_kept fun _ => rfl) fun known => ?_
  cases known with
  | some certificate => exact issues_of_kept fun _ => rfl
  | none =>
    cases harn : arnRegion arn with
    | none => exact issues_of_kept fun _ => rfl
    | some r =>
      obtain rfl : r = region := h r harn
      dsimp only
      split
      · refine issues_on (Issues.bind issues_call fun rawCert => ?_)
        cases rawCert with
        | none => exact issues_of_kept fun _ => rfl
        | some rawCert => exact Issues.bind issues_call fun _ => issues_of_kept fun _ => rfl
      · exact issues_of_kept fun _ => rfl

theorem issues_listenerMapper {l : AwsListener} (h : l.Here region) :
    Issues State.calls (Of region e) (listenerMapper ctx e l) := by
  rw [listenerMapper]
  split
  · exact issues_of_kept fun _ => rfl
  · refine Issues.bind (issues_readActions h.targetGroups none) fun targetGroup => ?_
    cases targetGroup with
    | none => exact issues_of_kept fun _ => rfl
    | some targetGroup =>
      dsimp only
      split
      · next hcertificate =>
        obtain ⟨arn, harn⟩ := Option.isSome_iff_exists.mp ((Bool.and_eq_true _ _).mp hcertificate).2
        have hmem : some arn ∈ l.certificates :=
          List.mem_of_getLast? (Option.join_eq_some_iff.mp harn)
        rw [harn]
        refine Issues.bind (issues_readCertificate (h.certificates arn hmem)) fun certificate => ?_
        exact issues_of_kept fun _ => rfl
      · exact issues_of_kept fun _ => rfl

theorem ensures_call_listener {op : Op} :
    Ensures (fun l => ∀ listener, l = some listener → listener.Here client)
      (call ctx.aws.listener client e op) := by
  intro s l t h listener hl
  subst hl
  rw [call] at h
  cases hanswer : ctx.aws.listener s.calls client op with
  | ok answer =>
    rw [hanswer] at h
    cases h
    exact ctx.aws.here _ _ _ _ hanswer
  | error err =>
    rw [hanswer] at h
    cases h

theorem issues_createListener (e : Listener) :
    Issues State.calls Routed (createListener ctx e) := by
  rw [createListener]
  split
  · exact issues_of_kept fun _ => rfl
  · next hregions =>
    have hregion : e.targetGroup.region = (Entity.listener e).region := by
      change _ = (e.loadBalancer.map (·.region)).getD e.targetGroup.region
      cases hlb : e.loadBalancer with
      | none => rfl
      | some lb =>
        have hsame : lb.region = e.targetGroup.region := by simpa [hlb] using hregions
        exact hsame.symm
    refine Issues.mono ?_ fun _ => routed_of hregion
    refine issues_on (Issues.bind issues_call fun result => ?_)
    cases result.bind (·.listenerArn) with
    | none => exact issues_of_kept fun _ => rfl
    | some arn =>
      refine Issues.bind_of issues_call ensures_call_listener fun newObject hhere => ?_
      cases newObject with
      | none => exact issues_of_kept fun _ => rfl
      | some newObject =>
        refine Issues.bind (issues_listenerMapper (hhere newObject rfl)) fun newEntity => ?_
        exact issues_of_kept fun _ => rfl

theorem issues_cloudCreateListener (e : Listener) :
    Issues State.calls Routed (cloudCreateListener ctx e) := by
  refine Issues.bind (issues_of_kept fun _ => rfl) fun _ => ?_
  refine Issues.bind (issues_createListener e).attempt fun result => ?_
  cases result with
  | ok newEntity => exact issues_of_kept fun s => by cases newEntity <;> rfl
  | error err => exact issues_of_kept fun _ => rfl

-- a listener is updated in place, and one that is replaced is deleted, on the client of the batch
def ListenerTurn (client : String) (s : State) (e : Listener) : Prop :=
  ∀ cloudRecord prev next, s.listeners.get? (e.listenerArn.getD "") = some cloudRecord →
    cloudRecord.loadBalancer = some prev → e.loadBalancer = some next →
      client = if prev.loadBalancerArn = next.loadBalancerArn then e.region else cloudRecord.region

theorem clean_updateListener_iff (hcredentials : ctx.hasCredentials = true) (e : Listener) (s : State) :
    Clean State.calls Routed (updateListener ctx (ctx.region none) e s).2 ↔
      Clean State.calls Routed s ∧ ListenerTurn (ctx.region none) s e := by
  rw [updateListener, reads_bind_apply, ListenerTurn]
  cases s.listeners.get? (e.listenerArn.getD "") with
  | none =>
    have hturn : ∀ cloudRecord prev next, (none : Option Listener) = some cloudRecord →
        cloudRecord.loadBalancer = some prev → e.loadBalancer = some next →
          ctx.region none =
            if prev.loadBalancerArn = next.loadBalancerArn then e.region else cloudRecord.region :=
      fun _ _ _ h => by cases h
    exact (and_iff_left hturn).symm
  | some cloudRecord =>
    dsimp only
    cases hprev : cloudRecord.loadBalancer with
    | none =>
      refine (and_iff_left fun record prev next hrecord hlb => ?_).symm
      obtain rfl := Option.some.inj hrecord
      cases hprev.symm.trans hlb
    | some prev =>
      cases hnext : e.loadBalancer with
      | none => exact (and_iff_left fun _ _ _ _ _ hlb => by cases hlb).symm
      | some next =>
        dsimp only
        have hturn : ∀ region, (∀ record p n, some cloudRecord = some record →
            record.loadBalancer = some p → some next = some n →
              region = if p.loadBalancerArn = n.loadBalancerArn then e.region else record.region) ↔
            region = if prev.loadBalancerArn = next.loadBalancerArn then e.region
              else cloudRecord.region := by
          intro region
          constructor
          · exact fun h => h cloudRecord prev next rfl hprev rfl
          · rintro h record p n hrecord hp hn
            obtain rfl := Option.some.inj hrecord
            obtain rfl := Option.some.inj (hprev.symm.trans hp)
            obtain rfl := Option.some.inj hn
            exact h
        rw [hturn]
        by_cases harn : prev.loadBalancerArn = next.loadBalancerArn
        · rw [if_pos harn, if_pos harn]
          refine clean_bind_iff (D := Of (ctx.region none) (.listener e)) calls_call ensures_call_listener
            (fun updatedListener hhere => ?_) fun hclient _ => routed_of hclient
          cases updatedListener with
          | none => exact issues_of_kept fun _ => rfl
          | some updatedListener =>
            refine Issues.bind (issues_listenerMapper (hhere updatedListener rfl)) fun _ => ?_
            exact issues_of_kept fun _ => rfl
        · rw [if_neg harn, if_neg harn, cloudDeleteListener, getAwsClient, if_pos hcredentials]
          rw [bind_assoc_apply, pure_bind_apply, bind_assoc_apply]
          refine clean_bind_iff (R := fun _ => True) (D := Routed) calls_call (fun _ _ _ _ => trivial)
            (fun _ _ => ?_) fun _ _ hd => hd
          refine Issues.bind (issues_of_kept fun _ => rfl) fun _ => ?_
          exact Issues.bind (issues_cloudCreateListener e) fun _ => issues_of_kept fun _ => rfl

end Routing

end Iasql.Elb
