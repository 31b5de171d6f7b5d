import Iasql.Calculus.Settling
import Iasql.Edits
import Iasql.Instances

namespace Iasql.Instances

open Program Prog Aws Tags Settling

section Rounds

variable (l : Reads) (service : Service) (volumes : Volumes) (power : Power) (attachments : Attachments)

-- the mapper sets these two where AWS has them only: a row that is saved keeps its own there
def kept (row record : Instance) : Instance :=
  { record with
    keyPairName := record.keyPairName.or row.keyPairName
    role := record.role.or row.role }

-- the full read leaves out what is terminated
def listed (raw : AwsInstance) (region : String) : Option Instance :=
  if raw.state = .terminated ∨ raw.state = .shuttingDown then none else instanceMapper l raw region

def sync : Sync (Edits.State (Dict String AwsInstance) Instance) Instance where
  row := Edits.State.row
  read s := (s.aws.get? (s.row.instanceId.getD "")).bind fun raw => listed l raw s.row.region
  equals := equals
  update c s :=
    let t := (update l service volumes power attachments [s.row]
      { instances := s.aws, memo := Dict.set ∅ s.row.entityId c }).2
    { aws := t.instances, row := t.saved.foldl kept s.row }

-- every call succeeds, and a new instance has an id of its own
structure Succeeds : Prop where
  start : ∀ instanceId, power.startInstance instanceId = .ok ()
  stop : ∀ instanceId hibernate, power.stopInstance instanceId hibernate = .ok ()
  terminate : ∀ instanceId, power.terminateInstance instanceId = .ok ()
  run : ∀ instances p, ∃ instanceId, service.runInstances instances p = .ok instanceId ∧
    instanceId ≠ "" ∧ instances.get? instanceId = none
  synchronise : ∀ e instanceId, volumes.synchronise e instanceId = .ok ()
  removeMappings : ∀ e, attachments.removeMappings e = .ok ()
  reregister : ∀ cloudRecord created, attachments.reregister cloudRecord created = .ok ()

end Rounds

section Conditions

variable (l : Reads) (volumes : Volumes)

-- the tags are the same, or set and none of them empty; an instance that is stopped does not hibernate
structure Pushable (e c : Instance) : Prop where
  tags : eqTags e.tags c.tags = true ∨
    ∃ tags, e.tags = some tags ∧ ∀ key value, tags.get? key = some value → written key value = true
  state : ¬ (c.state = .stopped ∧ e.state = .hibernate)

-- AWS is asked for a new instance, which can be mapped
structure Launches (e : Instance) : Prop where
  ami : e.ami ≠ ""
  securityGroups : (e.securityGroups.any fun sg => !Aws.truthy sg.groupId) = false
  subnet : (e.subnet.any fun subnet => !Aws.truthy subnet.subnetId) = false
  mappings : volumes.generateBlockDeviceMapping e = .ok ()
  instanceType : e.instanceType ≠ ""

-- the role of the instance profile that is asked for
def profileRole (e : Instance) : Option IamRole :=
  ((instanceParams e).iamInstanceProfileArn.filter (· != "")).bind l.role

-- and the row has nothing that the saved record leaves as it is
structure Replaceable (e : Instance) : Prop where
  launches : Launches volumes e
  keyPairName : e.keyPairName ≠ some ""
  role : (profileRole l e).isSome = true ∨ e.role.bind (·.arn) = none

def Reaches (e c : Instance) : Prop :=
  if instanceEqReplaceableFields e c then Pushable e c else Replaceable l volumes e

end Conditions

section InPlace

variable {l : Reads} {service : Service} {volumes : Volumes} {power : Power} {attachments : Attachments}
  {s : Edits.State (Dict String AwsInstance) Instance} {w : World} {c e : Instance} {raw : AwsInstance}
  {insId : String}

structure Shown (l : Reads) (s : Edits.State (Dict String AwsInstance) Instance) (c : Instance)
    (raw : AwsInstance) : Prop where
  stored : s.aws.get? (s.row.instanceId.getD "") = some raw
  live : ¬ (raw.state = .terminated ∨ raw.state = .shuttingDown)
  mapped : instanceMapper l raw s.row.region = some c

theorem read_iff : (sync l service volumes power attachments).read s = some c ↔ ∃ raw, Shown l s c raw := by
  change (s.aws.get? (s.row.instanceId.getD "")).bind (fun raw => listed l raw s.row.region) = some c ↔ _
  constructor
  · intro h
    obtain ⟨raw, hstored, hlisted⟩ := Option.bind_eq_some_iff.mp h
    rw [listed] at hlisted
    split at hlisted
    · cases hlisted
    · next hlive => exact ⟨raw, hstored, hlive, hlisted⟩
  · rintro ⟨raw, hstored, hlive, hmapped⟩
    rw [hstored, Option.bind_some, listed, if_neg hlive]
    exact hmapped

theorem agreed_of_shown (h : Shown l s c raw) (hequals : equals s.row c = true) :
    (sync l service volumes power attachments).Agreed s :=
  ⟨c, read_iff.mpr ⟨raw, h⟩, hequals⟩

theorem mapped_iff {region : String} : instanceMapper l raw region = some c ↔
    (Aws.truthy raw.instanceId = true ∧ Aws.truthy raw.instanceType = true) ∧ c = mapped l raw region := by
  rw [instanceMapper]
  split
  · next h => simpa [(Bool.and_eq_true _ _).mp h] using eq_comm
  · next h =>
    refine iff_of_false nofun fun hmapped => h ?_
    exact (Bool.and_eq_true _ _).mpr hmapped.1

def tagsAfter (c e : Instance) (raw : AwsInstance) : Dict String String :=
  if !eqTags e.tags c.tags && e.tags.isSome then e.tags.getD ∅ else raw.tags

-- a transition that is invalid changes nothing
def stateAfter (c e : Instance) (raw : AwsInstance) : InstanceStateName :=
  match c.state, e.state with
  | .stopped, .running => .running
  | .running, .stopped => .stopped
  | .running, .hibernate => .stopped
  | _, _ => raw.state

-- an instance that hibernates is stopped
def rowAfter (c e : Instance) : Instance :=
  if c.state = .running ∧ e.state = .hibernate then { e with state := .stopped } else e

def rawAfter (c e : Instance) (raw : AwsInstance) : AwsInstance :=
  { raw with tags := tagsAfter c e raw, state := stateAfter c e raw }

def cloudAfter (c e : Instance) (raw : AwsInstance) : Instance :=
  { c with tags := some ((tagsAfter c e raw).filter written), state := mapState (stateAfter c e raw) }

theorem change_run {f : AwsInstance → AwsInstance} (h : w.instances.get? insId = some raw) :
    change insId f w = (.returned (), { w with instances := w.instances.set insId (f raw) }) := by
  simp only [change, reads_bind_apply, h]
  rfl

theorem setState_run {state : InstanceStateName} (h : w.instances.get? insId = some raw) :
    setState insId (.ok ()) state w =
      (.returned (), { w with instances := w.instances.set insId { raw with state } }) :=
  change_run h

theorem pushTags_run (c e : Instance) (hid : Aws.truthy e.instanceId = true)
    (h : w.instances.get? insId = some raw) :
    ∃ w', runIf (!eqTags e.tags c.tags && Aws.truthy e.instanceId && e.tags.isSome)
        (updateTags insId (e.tags.getD ∅)) w = (.returned (), w') ∧
      w'.instances.get? insId = some { raw with tags := tagsAfter c e raw } ∧ w'.saved = w.saved := by
  rw [hid, Bool.and_true, tagsAfter]
  cases !eqTags e.tags c.tags && e.tags.isSome with
  | false => exact ⟨w, rfl, h, rfl⟩
  | true => exact ⟨_, change_run h, Dict.get?_set_self, rfl⟩

theorem kept_self (e : Instance) (state : State) : kept e { e with state } = { e with state } := by
  rw [kept, Option.or_self, Option.or_self]

-- what the transition leaves of the instance and of the row
def Transitioned (c e : Instance) (raw : AwsInstance) (insId : String) (w : World) : Prop :=
  w.instances.get? insId = some { raw with state := stateAfter c e raw } ∧
    w.saved.foldl kept e = rowAfter c e

theorem transitioned_of_unchanged (h : w.instances.get? insId = some raw) (hsaved : w.saved = [])
    (hstate : stateAfter c e raw = raw.state) (hrow : rowAfter c e = e) :
    Transitioned c e raw insId w := by
  rw [Transitioned, hstate, hrow, hsaved]
  exact ⟨h, rfl⟩

theorem transitioned_of_set {state : InstanceStateName} (h : w.instances.get? insId = some raw)
    (hsaved : w.saved = []) (hstate : stateAfter c e raw = state) (hrow : rowAfter c e = e) :
    Transitioned c e raw insId (setState insId (.ok ()) state w).2 := by
  rw [Transitioned, setState_run h, hstate, hrow]
  refine ⟨Dict.get?_set_self, ?_⟩
  change w.saved.foldl kept e = e
  rw [hsaved]
  rfl

theorem transitioned_of_hibernate (h : w.instances.get? insId = some raw) (hsaved : w.saved = [])
    (hc : c.state = .running) (he : e.state = .hibernate) :
    Transitioned c e raw insId ((setState insId (.ok ()) .stopped >>= fun _ =>
      writes fun s => { s with saved := s.saved ++ [{ e with state := .stopped }] }) w).2 := by
  rw [bind_of_returned (setState_run h), Transitioned, stateAfter, rowAfter, hc, he, if_pos ⟨rfl, rfl⟩]
  refine ⟨Dict.get?_set_self, ?_⟩
  change (w.saved ++ [_]).foldl kept e = _
  rw [hsaved]
  exact kept_self e .stopped

theorem updateState_run (hs : Succeeds service volumes power attachments)
    (hid : Aws.truthy e.instanceId = true) (h : w.instances.get? insId = some raw) (hsaved : w.saved = []) :
    Transitioned c e raw insId (runIf (!(e.state == c.state) && Aws.truthy e.instanceId)
      (updateState power insId c.state e) w).2 := by
  rw [hid, Bool.and_true, runIf]
  unfold updateState
  rcases hstates : (c.state, e.state) with ⟨_ | _ | _, _ | _ | _⟩ <;>
    obtain ⟨hc, he⟩ := Prod.mk.inj hstates <;> rw [hc, he]
  case running.stopped =>
    change Transitioned c e raw insId (setState insId (power.stopInstance insId false) .stopped w).2
    rw [hs.stop]
    exact transitioned_of_set h hsaved (by rw [stateAfter, hc, he]) (by simp [rowAfter, he])
  case running.hibernate =>
    change Transitioned c e raw insId ((setState insId (power.stopInstance insId true) .stopped >>= _) w).2
    rw [hs.stop]
    exact transitioned_of_hibernate h hsaved hc he
  case stopped.running =>
    change Transitioned c e raw insId (setState insId (power.startInstance insId) .running w).2
    rw [hs.start]
    exact transitioned_of_set h hsaved (by rw [stateAfter, hc, he]) (by simp [rowAfter, he])
  all_goals exact transitioned_of_unchanged h hsaved (by rw [stateAfter, hc, he]) (by simp [rowAfter, hc, he])

-- the world that an update starts in
def entered (s : Edits.State (Dict String AwsInstance) Instance) (c : Instance) : World :=
  { instances := s.aws, memo := Dict.set ∅ s.row.entityId c }

-- an update in place
theorem update_kept (hs : Succeeds service volumes power attachments) (h : Shown l s c raw)
    (hid : c.instanceId = s.row.instanceId) (hkept : instanceEqReplaceableFields s.row c = true) :
    ((sync l service volumes power attachments).update c s).aws.get? (s.row.instanceId.getD "") =
        some (rawAfter c s.row raw) ∧
      ((sync l service volumes power attachments).update c s).row = rowAfter c s.row := by
  have htruthy : Aws.truthy s.row.instanceId = true := by
    obtain ⟨⟨htruthy, -⟩, rfl⟩ := mapped_iff.mp h.mapped
    rwa [← hid]
  have hmemo : (entered s c).memo.get? s.row.entityId = some c := Dict.get?_set_self
  obtain ⟨w', hrun, hstored, hsaved⟩ := @pushTags_run (entered s c) raw _ c s.row htruthy h.stored
  have hlast : (update l service volumes power attachments [s.row] (entered s c)).2 =
      (runIf (!(s.row.state == c.state) && Aws.truthy s.row.instanceId)
        (updateState power (s.row.instanceId.getD "") c.state s.row) w').2 := by
    rw [update_singleton, updateOne, reads_bind_apply, hmemo]
    simp only [hkept, if_true]
    rw [updateInPlace, bind_of_returned hrun]
    exact bind_pure_snd _ _ w'
  change (update l service volumes power attachments [s.row] (entered s c)).2.instances.get? _ = _ ∧
    (update l service volumes power attachments [s.row] (entered s c)).2.saved.foldl kept s.row = _
  rw [hlast]
  exact updateState_run hs htruthy hstored (hsaved.trans rfl)

theorem tagsAfter_iff (hc : c.tags = some (raw.tags.filter written)) :
    eqTags e.tags (some ((tagsAfter c e raw).filter written)) = true ↔ eqTags e.tags c.tags = true ∨
      ∃ tags, e.tags = some tags ∧ ∀ key value, tags.get? key = some value → written key value = true := by
  cases heq : eqTags e.tags c.tags with
  | true =>
    have hsame : tagsAfter c e raw = raw.tags := by
      rw [tagsAfter, heq]
      rfl
    rw [hsame, ← hc, heq]
    simp
  | false =>
    cases htags : e.tags with
    | none =>
      have hsame : tagsAfter c e raw = raw.tags := by
        rw [tagsAfter, htags, Option.isSome_none, Bool.and_false]
        rfl
      rw [hsame, ← hc, ← htags, heq]
      simp [htags]
    | some tags =>
      have hnew : tagsAfter c e raw = tags := by
        rw [tagsAfter, heq, htags]
        rfl
      rw [hnew, eqTags_iff, SameTags]
      simp only [Option.bind_some, Dict.get?_filter, Bool.false_eq_true, false_or, Option.some.injEq,
        exists_eq_left']
      refine forall_congr' fun key => ?_
      cases tags.get? key with
      | none => simp
      | some value => simp [Option.filter]

theorem mapState_ne (state : InstanceStateName) : mapState state ≠ .hibernate := by
  cases state <;> decide

theorem stateAfter_iff (hc : c.state = mapState raw.state) :
    (rowAfter c e).state = mapState (stateAfter c e raw) ↔ ¬ (c.state = .stopped ∧ e.state = .hibernate) := by
  rcases hstates : (c.state, e.state) with ⟨_ | _ | _, _ | _ | _⟩ <;>
    obtain ⟨hcloud, hrow⟩ := Prod.mk.inj hstates
  case hibernate.running | hibernate.stopped | hibernate.hibernate =>
    exact absurd (hc.symm.trans hcloud) (mapState_ne raw.state)
  case running.running | stopped.stopped | stopped.hibernate =>
    have hkept : stateAfter c e raw = raw.state := by rw [stateAfter, hcloud, hrow]
    rw [hkept, ← hc]
    simp [rowAfter, hcloud, hrow]
  all_goals simp [rowAfter, stateAfter, hcloud, hrow, mapState]

-- the pair behind an update in place
theorem shown_kept (hs : Succeeds service volumes power attachments) (h : Shown l s c raw)
    (hid : c.instanceId = s.row.instanceId) (hkept : instanceEqReplaceableFields s.row c = true) :
    Shown l ((sync l service volumes power attachments).update c s) (cloudAfter c s.row raw)
        (rawAfter c s.row raw) ∧
      ((sync l service volumes power attachments).update c s).row = rowAfter c s.row := by
  obtain ⟨hstored, hrow⟩ := update_kept (l := l) hs h hid hkept
  obtain ⟨htruthy, rfl⟩ := mapped_iff.mp h.mapped
  have hid' : (rowAfter (mapped l raw s.row.region) s.row).instanceId = s.row.instanceId := by
    rw [rowAfter]
    split <;> rfl
  have hregion : (rowAfter (mapped l raw s.row.region) s.row).region = s.row.region := by
    rw [rowAfter]
    split <;> rfl
  refine ⟨⟨?_, ?_, ?_⟩, hrow⟩
  · rw [hrow, hid']
    exact hstored
  · change ¬ (stateAfter (mapped l raw s.row.region) s.row raw = _ ∨
      stateAfter (mapped l raw s.row.region) s.row raw = _)
    unfold stateAfter
    split
    · decide
    · decide
    · decide
    · exact h.live
  · rw [hrow, hregion]
    exact mapped_iff.mpr ⟨htruthy, rfl⟩

-- neither is replaced for its tags or its state
theorem replaceable_after :
    instanceEqReplaceableFields (rowAfter c e) (cloudAfter c e raw) = instanceEqReplaceableFields e c := by
  rw [rowAfter]
  split <;> rfl

theorem tags_rowAfter : (rowAfter c e).tags = e.tags := by
  rw [rowAfter]
  split <;> rfl

theorem equals_after (htags : c.tags = some (raw.tags.filter written)) (hstate : c.state = mapState raw.state)
    (hkept : instanceEqReplaceableFields e c = true) :
    equals (rowAfter c e) (cloudAfter c e raw) = true ↔ Pushable e c := by
  rw [equals, replaceable_after, hkept, tags_rowAfter, Bool.and_true, Bool.and_eq_true, beq_iff_eq, and_comm]
  refine Iff.trans (and_congr (tagsAfter_iff htags) (stateAfter_iff hstate)) ?_
  exact ⟨fun h => ⟨h.1, h.2⟩, fun h => ⟨h.tags, h.state⟩⟩

-- what cannot be pushed now cannot be pushed then
theorem not_pushable_after (htags : c.tags = some (raw.tags.filter written))
    (hstate : c.state = mapState raw.state) (h : ¬ Pushable e c) :
    ¬ Pushable (rowAfter c e) (cloudAfter c e raw) := by
  rintro ⟨htags', hstate'⟩
  rw [tags_rowAfter] at htags'
  refine h ⟨?_, ?_⟩
  · rcases htags' with heq | hwritten
    · exact (tagsAfter_iff htags).mp heq
    · exact .inr hwritten
  · rintro ⟨hc, he⟩
    refine hstate' ⟨?_, ?_⟩
    · have hsame : stateAfter c e raw = raw.state := by rw [stateAfter, hc, he]
      change mapState (stateAfter c e raw) = .stopped
      rw [hsame, ← hstate, hc]
    · simp [rowAfter, hc, he]

end InPlace

section Replaced

variable {l : Reads} {service : Service} {volumes : Volumes} {power : Power} {attachments : Attachments}
  {s : Edits.State (Dict String AwsInstance) Instance} {w : World} {c e : Instance} {raw : AwsInstance}
  {insId : String}

-- the instance is terminated, and nothing is saved
def Gone (insId : String) (w : World) : Prop :=
  (∃ raw, w.instances.get? insId = some raw ∧ raw.state = .terminated) ∧ w.saved = []

theorem gone_set (h : Gone insId w) {newId : String} (hfresh : w.instances.get? newId = none) :
    Gone insId { w with instances := w.instances.set newId raw } := by
  obtain ⟨⟨old, hold, hstate⟩, hsaved⟩ := h
  refine ⟨⟨old, ?_, hstate⟩, hsaved⟩
  refine (Dict.get?_set_ne ?_).trans hold
  rintro rfl
  rw [hfresh] at hold
  cases hold

theorem createOne_gone (hs : Succeeds service volumes power attachments) (h : ¬ Launches volumes e) :
    (Frame.ofInvariant (Gone insId)).Keeps (createOne l service volumes e) := by
  intro w hw
  rw [createOne]
  split
  · exact hw
  · next hasked =>
    split
    · exact hw
    · next hassigned =>
      simp only [Bool.or_eq_true, decide_eq_true_eq, not_or, Bool.not_eq_true] at hasked hassigned
      cases hmappings : volumes.generateBlockDeviceMapping e with
      | error err => exact hw
      | ok _ =>
        have htype : e.instanceType = "" := by
          by_contra hne
          exact h ⟨hasked.1, hasked.2, hassigned, hmappings, hne⟩
        obtain ⟨newId, hrun, hne, hfresh⟩ := hs.run w.instances (instanceParams e)
        have hstored : (w.instances.set newId (launched service (instanceParams e) newId)).get? newId =
            some (launched service (instanceParams e) newId) := Dict.get?_set_self
        have hunread : instanceMapper l (launched service (instanceParams e) newId) e.region = none := by
          rw [instanceMapper, if_neg]
          simp [launched, instanceParams, Aws.truthy, htype]
        simp only [given, pure_bind_apply, reads_bind_apply, hrun, hne, if_false, writes_bind_apply,
          hs.synchronise, hstored, Option.bind_some, hunread]
        exact gone_set hw hfresh

theorem create_gone (hs : Succeeds service volumes power attachments) (h : ¬ Launches volumes e) :
    (Frame.ofInvariant (Gone insId)).Keeps (create l service volumes e) := by
  refine Frame.keeps_bind (Frame.keeps_writes fun _ hw => hw) fun _ => ?_
  refine Frame.keeps_bind (Frame.keeps_attempt (createOne_gone hs h)) fun answer => ?_
  cases answer with
  | ok newEntity =>
    refine Frame.keeps_bind (Frame.keeps_writes fun w hw => ?_) fun _ => Frame.keeps_pure newEntity
    cases newEntity <;> exact hw
  | error err => exact Frame.keeps_bind (Frame.keeps_writes fun _ hw => hw) fun _ => Frame.keeps_fail err

theorem delete_run (hs : Succeeds service volumes power attachments)
    (hid : Aws.truthy c.instanceId = true) (h : w.instances.get? (c.instanceId.getD "") = some raw) :
    ∃ w', delete power c w = (.returned (), w') ∧
      w'.instances = w.instances.set (c.instanceId.getD "") { raw with state := .terminated } ∧
      w'.saved = w.saved := by
  rw [delete, if_neg (by simp [hid]), hs.terminate, bind_of_returned (setState_run h)]
  exact ⟨_, rfl, rfl, rfl⟩

theorem replace_gone (hs : Succeeds service volumes power attachments) (h : ¬ Launches volumes e)
    (hid : Aws.truthy c.instanceId = true) (hstored : w.instances.get? (c.instanceId.getD "") = some raw)
    (hsaved : w.saved = []) :
    Gone (c.instanceId.getD "") (replace l service volumes power attachments c e w).2 := by
  obtain ⟨w', hrun, hinstances, hsaved'⟩ := delete_run hs hid hstored
  have hgone : Gone (c.instanceId.getD "") w' := by
    refine ⟨⟨{ raw with state := .terminated }, ?_, rfl⟩, hsaved'.trans hsaved⟩
    rw [hinstances]
    exact Dict.get?_set_self
  have hdelete : (Frame.ofInvariant (Gone (c.instanceId.getD ""))).Keeps (delete power c) := by
    rintro w ⟨⟨raw, hraw, -⟩, hnone⟩
    obtain ⟨w', hrun, hinstances, hsaved'⟩ := delete_run hs hid hraw
    rw [hrun]
    refine ⟨⟨{ raw with state := .terminated }, ?_, rfl⟩, hsaved'.trans hnone⟩
    rw [hinstances]
    exact Dict.get?_set_self
  rw [replace, bind_of_returned hrun]
  refine Frame.keeps_bind (F := Frame.ofInvariant (Gone (c.instanceId.getD ""))) (keeps_given _)
    (fun _ => ?_) w' hgone
  refine Frame.keeps_bind (create_gone hs h) fun created => ?_
  refine Frame.keeps_bind (keeps_given _) fun _ => ?_
  exact Frame.keeps_bind hdelete fun _ => Frame.keeps_pure none

-- the record of the instance that is launched
def replacement (l : Reads) (service : Service) (e : Instance) (newId : String) : Instance :=
  { mapped l (launched service (instanceParams e) newId) e.region with id := e.id }

theorem create_launched (hs : Succeeds service volumes power attachments) (h : Launches volumes e)
    (hsaved : w.saved = []) :
    ∃ newId w', newId ≠ "" ∧ w.instances.get? newId = none ∧
      create l service volumes e w = (.returned (some (replacement l service e newId)), w') ∧
      w'.instances = w.instances.set newId (launched service (instanceParams e) newId) ∧
      w'.saved = [replacement l service e newId] := by
  obtain ⟨newId, hrun, hne, hfresh⟩ := hs.run w.instances (instanceParams e)
  have hstored : (w.instances.set newId (launched service (instanceParams e) newId)).get? newId =
      some (launched service (instanceParams e) newId) := Dict.get?_set_self
  have hread : instanceMapper l (launched service (instanceParams e) newId) e.region =
      some (mapped l (launched service (instanceParams e) newId) e.region) := by
    rw [instanceMapper, if_pos]
    simp [launched, instanceParams, Aws.truthy, hne, h.instanceType]
  have hone : ∃ w', createOne l service volumes e (memo e w) =
        (.returned (some (replacement l service e newId)), w') ∧
      w'.instances = w.instances.set newId (launched service (instanceParams e) newId) ∧
      w'.saved = w.saved ++ [replacement l service e newId] := by
    have hinstances : (memo e w).instances = w.instances := rfl
    rw [createOne]
    simp only [h.ami, h.securityGroups, h.subnet, h.mappings, hs.synchronise, given, hne, decide_false,
      Bool.or_self, Bool.false_eq_true, if_false, pure_bind_apply, reads_bind_apply, writes_bind_apply,
      hinstances, hrun, hstored, Option.bind_some, hread]
    exact ⟨_, rfl, rfl, rfl⟩
  obtain ⟨w', hcreate, hset, hsaves⟩ := hone
  refine ⟨newId, memo (replacement l service e newId) w', hne, hfresh, ?_, hset, ?_⟩
  · rw [create, writes_bind_apply, bind_of_returned (attempt_ok.mpr hcreate)]
    rfl
  · rw [hsaved] at hsaves
    exact hsaves

theorem replace_launched (hs : Succeeds service volumes power attachments) (h : Launches volumes e)
    (hid : Aws.truthy c.instanceId = true) (hstored : w.instances.get? (c.instanceId.getD "") = some raw)
    (hsaved : w.saved = []) :
    ∃ newId, newId ≠ "" ∧
      (replace l service volumes power attachments c e w).2.instances.get? newId =
        some (launched service (instanceParams e) newId) ∧
      (replace l service volumes power attachments c e w).2.saved = [replacement l service e newId] := by
  obtain ⟨w₁, hdeleted, hinstances₁, hsaved₁⟩ := delete_run hs hid hstored
  obtain ⟨newId, w₂, hne, hfresh, hcreated, hinstances₂, hsaved₂⟩ :=
    create_launched (l := l) hs h (hsaved₁.trans hsaved)
  have hother : newId ≠ c.instanceId.getD "" := by
    rintro rfl
    rw [hinstances₁, Dict.get?_set_self] at hfresh
    cases hfresh
  have hold : w₂.instances.get? (c.instanceId.getD "") = some { raw with state := .terminated } := by
    rw [hinstances₂, Dict.get?_set_ne hother.symm, hinstances₁, Dict.get?_set_self]
  obtain ⟨w₃, hagain, hinstances₃, hsaved₃⟩ := delete_run hs hid hold
  have hrun : replace l service volumes power attachments c e w = (.returned none, w₃) := by
    rw [replace, bind_of_returned hdeleted, hs.removeMappings]
    simp only [given, pure_bind_apply]
    rw [bind_of_returned hcreated, hs.reregister]
    simp only [pure_bind_apply]
    rw [bind_of_returned hagain]
    rfl
  refine ⟨newId, hne, ?_, ?_⟩
  · rw [hrun, hinstances₃, Dict.get?_set_ne hother, hinstances₂, Dict.get?_set_self]
  · rw [hrun, hsaved₃, hsaved₂]

-- the row and the cloud record behind a replacement
theorem replaceable_launched {newId : String} :
    instanceEqReplaceableFields (kept e (replacement l service e newId))
        (mapped l (launched service (instanceParams e) newId) e.region) = true ↔
      e.keyPairName ≠ some "" ∧ ((profileRole l e).isSome = true ∨ e.role.bind (·.arn) = none) := by
  have hkey : (e.keyPairName.filter (· != "")).or e.keyPairName = e.keyPairName.filter (· != "") ↔
      e.keyPairName ≠ some "" := by
    cases e.keyPairName with
    | none => simp
    | some name => by_cases h : name = "" <;> simp [h, Option.filter]
  have hrole : ((profileRole l e).or e.role).bind (·.arn) = (profileRole l e).bind (·.arn) ↔
      (profileRole l e).isSome = true ∨ e.role.bind (·.arn) = none := by
    cases profileRole l e <;> simp
  have hsame : instanceEqReplaceableFields (kept e (replacement l service e newId))
      (mapped l (launched service (instanceParams e) newId) e.region) =
        ((e.keyPairName.filter (· != "")).or e.keyPairName == e.keyPairName.filter (· != "") &&
          ((profileRole l e).or e.role).bind (·.arn) == (profileRole l e).bind (·.arn)) := by
    have hgroups : ∀ groups : List SecurityGroups.SecurityGroup,
        (groups.all fun as => groups.any fun bs => as.groupId == bs.groupId) = true := fun groups =>
      List.all_eq_true.mpr fun as has => List.any_eq_true.mpr ⟨as, has, beq_self_eq_true _⟩
    have hmappedKey : (mapped l (launched service (instanceParams e) newId) e.region).keyPairName =
        e.keyPairName.filter (· != "") := rfl
    have hmappedRole : (mapped l (launched service (instanceParams e) newId) e.region).role =
        profileRole l e := rfl
    simp only [instanceEqReplaceableFields, kept, replacement, hmappedKey, hmappedRole, hgroups,
      beq_self_eq_true, Bool.true_and, Bool.and_true]
  rw [hsame, Bool.and_eq_true, beq_iff_eq, beq_iff_eq, hkey, hrole]

theorem equals_launched {newId : String} :
    equals (kept e (replacement l service e newId))
        (mapped l (launched service (instanceParams e) newId) e.region) =
      instanceEqReplaceableFields (kept e (replacement l service e newId))
        (mapped l (launched service (instanceParams e) newId) e.region) := by
  have htags : eqTags (kept e (replacement l service e newId)).tags
      (mapped l (launched service (instanceParams e) newId) e.region).tags = true :=
    eqTags_iff.mpr fun _ => rfl
  rw [equals, htags, Bool.and_true]
  change (mapState .running == mapState .running && _) = _
  rw [beq_self_eq_true, Bool.true_and]

-- what a saved row keeps of its own is kept again
theorem not_replaceable_launched {newId : String} (hl : Launches volumes e) (h : ¬ Replaceable l volumes e) :
    ¬ Replaceable l volumes (kept e (replacement l service e newId)) := by
  rintro ⟨-, hkey', hrole'⟩
  have hkey : e.keyPairName ≠ some "" := by
    rintro hkey
    refine hkey' ?_
    change (e.keyPairName.filter (· != "")).or e.keyPairName = some ""
    rw [hkey]
    rfl
  refine h ⟨hl, hkey, ?_⟩
  by_contra hrole
  rw [not_or, Bool.not_eq_true, Option.isSome_eq_false_iff, Option.isNone_iff_eq_none] at hrole
  have hsame : (kept e (replacement l service e newId)).role = e.role := by
    change (profileRole l e).or e.role = e.role
    rw [hrole.1]
    rfl
  have hprofile : profileRole l (kept e (replacement l service e newId)) = profileRole l e := by
    simp only [profileRole, instanceParams, hsame]
  rw [hprofile, hsame, hrole.1] at hrole'
  rcases hrole' with hsome | hnone
  · cases hsome
  · exact hrole.2 hnone

end Replaced

section Settle

variable {l : Reads} {service : Service} {volumes : Volumes} {power : Power} {attachments : Attachments}
  {s : Edits.State (Dict String AwsInstance) Instance} {c : Instance} {raw : AwsInstance}

theorem update_replaced (hkept : instanceEqReplaceableFields s.row c = false) :
    (sync l service volumes power attachments).update c s =
      { aws := (replace l service volumes power attachments c s.row (entered s c)).2.instances
        row := (replace l service volumes power attachments c s.row (entered s c)).2.saved.foldl kept s.row } := by
  have hmemo : (entered s c).memo.get? s.row.entityId = some c := Dict.get?_set_self
  have hrun : (update l service volumes power attachments [s.row] (entered s c)).2 =
      (replace l service volumes power attachments c s.row (entered s c)).2 := by
    rw [update_singleton, updateOne, reads_bind_apply, hmemo]
    simp only [hkept, Bool.false_eq_true, if_false]
  change (⟨(update l service volumes power attachments [s.row] (entered s c)).2.instances, _⟩ :
    Edits.State (Dict String AwsInstance) Instance) = _
  rw [← hrun]
  rfl

theorem truthy_row (h : Shown l s c raw) (hid : c.instanceId = s.row.instanceId) :
    Aws.truthy s.row.instanceId = true ∧ Aws.truthy c.instanceId = true := by
  obtain ⟨⟨htruthy, -⟩, rfl⟩ := mapped_iff.mp h.mapped
  rw [← hid]
  exact ⟨htruthy, htruthy⟩

theorem shown_launched (hs : Succeeds service volumes power attachments) (h : Shown l s c raw)
    (hid : c.instanceId = s.row.instanceId) (hkept : instanceEqReplaceableFields s.row c = false)
    (hl : Launches volumes s.row) :
    ∃ newId, ((sync l service volumes power attachments).update c s).row =
        kept s.row (replacement l service s.row newId) ∧
      Shown l ((sync l service volumes power attachments).update c s)
        (mapped l (launched service (instanceParams s.row) newId) s.row.region)
        (launched service (instanceParams s.row) newId) := by
  have hstored : (entered s c).instances.get? (c.instanceId.getD "") = some raw := by
    rw [hid]
    exact h.stored
  obtain ⟨newId, hne, hnew, hsaved⟩ := replace_launched (l := l) hs hl (truthy_row h hid).2 hstored rfl
  have hrow : ((sync l service volumes power attachments).update c s).row =
      kept s.row (replacement l service s.row newId) := by
    rw [update_replaced hkept]
    change ((replace l service volumes power attachments c s.row (entered s c)).2.saved).foldl kept s.row = _
    rw [hsaved]
    rfl
  refine ⟨newId, hrow, ?_, ?_, ?_⟩
  · rw [hrow, update_replaced hkept]
    exact hnew
  · exact of_decide_eq_false rfl
  · rw [hrow]
    refine mapped_iff.mpr ⟨⟨?_, ?_⟩, rfl⟩
    · exact bne_iff_ne.mpr hne
    · exact bne_iff_ne.mpr hl.instanceType

-- nothing that an update does makes the two sides agree
inductive Apart (l : Reads) (volumes : Volumes) (s : Edits.State (Dict String AwsInstance) Instance) : Prop where
  | unread (h : s.aws.get? (s.row.instanceId.getD "") = none ∨
      ∃ raw, s.aws.get? (s.row.instanceId.getD "") = some raw ∧ raw.state = .terminated)
  | unpushable (c : Instance) (raw : AwsInstance) (h : Shown l s c raw) (hid : c.instanceId = s.row.instanceId)
      (hkept : instanceEqReplaceableFields s.row c = true) (hpush : ¬ Pushable s.row c)
  | unreplaceable (c : Instance) (raw : AwsInstance) (h : Shown l s c raw) (hid : c.instanceId = s.row.instanceId)
      (hkept : instanceEqReplaceableFields s.row c = false) (hreplace : ¬ Replaceable l volumes s.row)

theorem differs_of_apart (h : Apart l volumes s) :
    (sync l service volumes power attachments).read s = none ∨
      ∃ c, (sync l service volumes power attachments).Differs s c := by
  cases h with
  | unread h =>
    left
    change (s.aws.get? (s.row.instanceId.getD "")).bind _ = none
    rcases h with hnone | ⟨raw, hstored, hstate⟩
    · rw [hnone]
      rfl
    · rw [hstored, Option.bind_some, listed, if_pos (.inl hstate)]
  | unpushable c raw h hid hkept hpush =>
    refine .inr ⟨c, read_iff.mpr ⟨raw, h⟩, ?_⟩
    change equals s.row c = false
    rw [← Bool.not_eq_true]
    intro hequals
    rw [equals, Bool.and_eq_true, Bool.and_eq_true, beq_iff_eq] at hequals
    refine hpush ⟨.inl hequals.2, ?_⟩
    rintro ⟨hc, he⟩
    rw [hc, he] at hequals
    cases hequals.1.1
  | unreplaceable c raw h hid hkept hreplace =>
    refine .inr ⟨c, read_iff.mpr ⟨raw, h⟩, ?_⟩
    change equals s.row c = false
    rw [equals, hkept, Bool.and_false, Bool.false_and]

theorem apart_update (hs : Succeeds service volumes power attachments) (h : Apart l volumes s)
    (hdiffers : (sync l service volumes power attachments).Differs s c) :
    Apart l volumes ((sync l service volumes power attachments).update c s) := by
  obtain ⟨raw, hshown⟩ := read_iff.mp hdiffers.read
  have hsame : ∀ {c' raw'}, Shown l s c' raw' → c' = c ∧ raw' = raw := by
    intro c' raw' h
    obtain rfl := Option.some.inj (h.stored.symm.trans hshown.stored)
    exact ⟨Option.some.inj (h.mapped.symm.trans hshown.mapped), rfl⟩
  cases h with
  | unread h =>
    rcases h with hnone | ⟨raw', hstored, hstate⟩
    · rw [hshown.stored] at hnone
      cases hnone
    · obtain rfl := Option.some.inj (hstored.symm.trans hshown.stored)
      exact absurd (.inl hstate) hshown.live
  | unpushable c' raw' h hid hkept hpush =>
    obtain ⟨rfl, rfl⟩ := hsame h
    obtain ⟨hshown', hrow⟩ := shown_kept (l := l) hs h hid hkept
    obtain ⟨-, hmapped⟩ := mapped_iff.mp h.mapped
    have htags : c'.tags = some (raw'.tags.filter written) := by rw [hmapped]; rfl
    have hstate : c'.state = mapState raw'.state := by rw [hmapped]; rfl
    refine .unpushable _ _ hshown' ?_ ?_ ?_
    · rw [hrow, rowAfter]
      split <;> exact hid
    · rw [hrow, replaceable_after]
      exact hkept
    · rw [hrow]
      exact not_pushable_after htags hstate hpush
  | unreplaceable c' raw' h hid hkept hreplace =>
    obtain ⟨rfl, rfl⟩ := hsame h
    by_cases hl : Launches volumes s.row
    · obtain ⟨newId, hrow, hshown'⟩ := shown_launched (l := l) hs h hid hkept hl
      refine .unreplaceable _ _ hshown' ?_ ?_ ?_
      · rw [hrow]
        rfl
      · rw [hrow, ← Bool.not_eq_true]
        intro hagain
        obtain ⟨hkey, hrole⟩ := replaceable_launched.mp hagain
        exact hreplace ⟨hl, hkey, hrole⟩
      · rw [hrow]
        exact not_replaceable_launched hl hreplace
    · have hstored : (entered s c').instances.get? (c'.instanceId.getD "") = some raw' := by
        rw [hid]
        exact h.stored
      obtain ⟨⟨old, hold, hstate⟩, hsaved⟩ := replace_gone (l := l) hs hl (truthy_row h hid).2 hstored rfl
      have hrow : ((sync l service volumes power attachments).update c' s).row = s.row := by
        rw [update_replaced hkept]
        change (replace l service volumes power attachments c' s.row (entered s c')).2.saved.foldl kept s.row = _
        rw [hsaved]
        rfl
      refine .unread (.inr ⟨old, ?_, hstate⟩)
      rw [hrow, ← hid, update_replaced hkept]
      exact hold

theorem settles_iff (hs : Succeeds service volumes power attachments)
    (h : (sync l service volumes power attachments).Differs s c) (hid : c.instanceId = s.row.instanceId) :
    (sync l service volumes power attachments).Settles s ↔ Reaches l volumes s.row c := by
  obtain ⟨raw, hshown⟩ := read_iff.mp h.read
  have hapart : Apart l volumes s → ¬ (sync l service volumes power attachments).Settles s :=
    Sync.not_settles (fun s => differs_of_apart) fun s c => apart_update hs
  rw [Reaches]
  split
  · next hkept =>
    constructor
    · intro hsettles
      by_contra hpush
      exact hapart (.unpushable c raw hshown hid hkept hpush) hsettles
    · intro hpush
      obtain ⟨hshown', hrow⟩ := shown_kept (l := l) hs hshown hid hkept
      obtain ⟨-, hmapped⟩ := mapped_iff.mp hshown.mapped
      refine Sync.settles_of_update h (agreed_of_shown hshown' ?_)
      rw [hrow]
      exact (equals_after (by rw [hmapped]; rfl) (by rw [hmapped]; rfl) hkept).mpr hpush
  · next hkept =>
    rw [Bool.not_eq_true] at hkept
    constructor
    · intro hsettles
      by_contra hreplace
      exact hapart (.unreplaceable c raw hshown hid hkept hreplace) hsettles
    · intro hreplace
      obtain ⟨newId, hrow, hshown'⟩ := shown_launched (l := l) hs hshown hid hkept hreplace.launches
      refine Sync.settles_of_update h (agreed_of_shown hshown' ?_)
      rw [hrow, equals_launched]
      exact replaceable_launched.mpr ⟨hreplace.keyPairName, hreplace.role⟩

end Settle

end Iasql.Instances
