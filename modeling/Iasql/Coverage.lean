import Iasql.ImageReads

namespace Iasql.Aws

open Program Prog OrderedMap Paging

section Images

variable {W : Type} {cloud : Cloud W} (h : Faithful cloud) {c d c₃ : Context W Entity}
  {out privateImages publicImages o : List Entity} {region name digest tag : String}

theorem Accounts.append_left {out o : List Entity} {id : String} {P : Prop}
    (h : Accounts out id P) (ho : o.countP (·.entityId == id) = 0) : Accounts (o ++ out) id P :=
  h.of_countP (by rw [List.countP_append, ho, Nat.zero_add])

theorem Accounts.append_right {out o : List Entity} {id : String} {P : Prop}
    (h : Accounts out id P) (ho : o.countP (·.entityId == id) = 0) : Accounts (out ++ o) id P :=
  h.of_countP (by rw [List.countP_append, ho, Nat.add_zero])

theorem countP_eq_zero_of_ne {id : String} (h : ∀ e ∈ out, e.entityId ≠ id) :
    out.countP (·.entityId == id) = 0 := by
  rw [List.countP_eq_zero]
  intro e he heq
  exact h e he (beq_iff_eq.mp heq)

include h

theorem mem_publicRepositoryImages {rp : PublicRepository} {u v : Context W Entity}
    (hrun : cloud.publicRepositoryImages rp u = (.returned o, v)) {e : Entity} (he : e ∈ o) :
    ∃ digest tag, Plain digest ∧ Plain tag ∧ Plain rp.repositoryName ∧
      e.entityId = publicTarget rp.repositoryName digest tag := by
  obtain ⟨hitems, hids, -⟩ := publicRepositoryImages_returned h hrun
  have hmem : e.entityId ∈ o.map Entity.entityId := List.mem_map.mpr ⟨e, he, rfl⟩
  rw [hids] at hmem
  obtain ⟨image, himage, hid⟩ := List.mem_map.mp hmem
  obtain ⟨digest, hitem⟩ := hitems image himage
  refine ⟨digest, image.2, hitem.plainDigest, hitem.plainTag, hitem.plainName, ?_⟩
  rw [← hid, hitem.imageId_eq]
  rfl

namespace Parts

variable (p : Parts cloud c d c₃ out privateImages publicImages)

include p

theorem now_used : cloud.now c ≤ cloud.now (cloud.afterRepositories c) := by
  have hused : cloud.now (cloud.afterRegions c) ≤ cloud.now (cloud.afterRepositories c) :=
    Frame.rel_of_eq (F := ctxFrame cloud.forward) (kept_forward h).usedRepositories p.used
  rwa [now_afterRegions h] at hused

theorem now_client : cloud.now (cloud.afterPrivate c) = cloud.now c₃ := by
  rw [← p.client]
  exact h.stillClient none c₃.store

theorem now_privates : cloud.now (cloud.afterRepositories c) ≤ cloud.now (cloud.afterPrivate c) := by
  rw [p.now_client h]
  exact Frame.rel_of_eq (F := ctxFrame cloud.forward) (Frame.keeps_gather fun region _ =>
    (kept_forward h).privateRegion (cloud.repositoriesAt c) region) p.privates

theorem now_publics : cloud.now (cloud.afterPrivate c) ≤ cloud.now d :=
  Frame.rel_of_eq (F := ctxFrame cloud.forward) (Frame.keeps_gather fun rp _ =>
    (kept_forward h).publicRepositoryImages rp) p.publics

theorem publicOnce (hc : PublicOnce c) : PublicOnce (cloud.afterPrivate c) := by
  have hkept := kept_publicOnce h
  have hused : PublicOnce (cloud.afterRepositories c) :=
    (Frame.rel_of_eq (F := Frame.ofInvariant PublicOnce) hkept.usedRepositories p.used) hc
  have hprivates : PublicOnce c₃ :=
    (Frame.rel_of_eq (F := Frame.ofInvariant PublicOnce) (Frame.keeps_gather fun region _ =>
      hkept.privateRegion (cloud.repositoriesAt c) region) p.privates) hused
  rw [← p.client]
  exact hprivates

theorem no_private_in_publics (hregion : Plain region) (hname : Plain name)
    (hdigest : Plain digest) (htag : Plain tag) :
    publicImages.countP (·.entityId == imageTarget region name digest tag) = 0 := by
  refine countP_eq_zero_of_ne (gather_forall (P := fun e => e.entityId ≠ _) p.publics ?_)
  intro rp _ u o v hrun e he heq
  obtain ⟨digest', tag', hd, ht, hn, hid⟩ := mem_publicRepositoryImages h hrun he
  exact private_ne_public hregion hname hn hdigest hd htag ht (heq.symm.trans hid)

theorem no_public_in_privates (hname : Plain name) (hdigest : Plain digest) (htag : Plain tag) :
    privateImages.countP (·.entityId == publicTarget name digest tag) = 0 := by
  obtain ⟨-, hnames⟩ := h.regions _ _ _ p.enabled
  refine countP_eq_zero_of_ne (gather_forall (P := fun e => e.entityId ≠ _) p.privates ?_)
  intro region hregion u o v hrun e he heq
  obtain ⟨name', digest', tag', hn, hd, ht, hid⟩ := mem_privateRegion h hrun he
  exact private_ne_public (hnames region hregion).2 hn hname hd hdigest ht htag (hid.symm.trans heq)

end Parts

theorem privateImage_accounts (hc : MemoOnce c)
    (hread : cloud.repositoryImageRead c = (.returned out, d))
    (hx : (Resource.privateImage region name digest tag).ExistsThroughout cloud c d) :
    Accounts out (imageTarget region name digest tag)
      ((Resource.privateImage region name digest tag).InReach cloud c) := by
  obtain ⟨henabled, hexists⟩ := hx
  obtain ⟨c₃, privateImages, publicImages, p⟩ := repositoryImageRead_returned hread
  have hused := p.now_used h
  have hprivates := p.now_privates h
  have hpublics := p.now_publics h
  obtain ⟨hnodup, hnames⟩ := h.regions _ _ _ p.enabled
  have hmem := henabled region rfl _ _ _ p.enabled
  have hplain := (hnames region hmem).2
  obtain ⟨-, image, hheld, -, -, htagged⟩ := hexists (cloud.now c) (Nat.le_refl _) (by omega)
  obtain ⟨-, hname, hdigest, -, htags⟩ := h.images hheld
  have htag : Plain tag := item_tag_plain htags htagged
  obtain ⟨o, v, hbody, -, -, hcount⟩ := gather_region (F := ctxFrame cloud.forward)
    ((kept_forward h).privateRegion (cloud.repositoriesAt c)) p.privates hmem
  obtain ⟨hone, hknown⟩ := @repositoriesAt_counts _ _ h region name _ hc hplain p.used
    (henabled region rfl) fun t hle hle' => (hexists t hle (by omega)).1
  have hown := privateRegion_accounts h hplain hname hdigest htag hone hbody
  rw [p.whole]
  refine ((hown.of_countP (hcount hnodup _ fun r hr hne u o v hrun e he heq => ?_)).append_right
    (p.no_private_in_publics h hplain hname hdigest htag)).congr ?_
  · obtain ⟨name', digest', tag', hn, hd, ht, hid⟩ := mem_privateRegion h hrun he
    obtain ⟨-, -, -, hsame⟩ := imageTarget_inj (hnames r hr).2 hplain hn hname hd hdigest ht htag
      (hid.symm.trans heq)
    exact hne hsame
  · exact and_congr_left fun _ => hknown

theorem publicImage_accounts (hc : MemoOnce c)
    (hread : cloud.repositoryImageRead c = (.returned out, d))
    (hx : (Resource.publicImage name digest tag).ExistsThroughout cloud c d) :
    Accounts out (publicTarget name digest tag)
      ((Resource.publicImage name digest tag).InReach cloud c) := by
  obtain ⟨-, hexists⟩ := hx
  obtain ⟨c₃, privateImages, publicImages, p⟩ := repositoryImageRead_returned hread
  have hused := p.now_used h
  have hprivates := p.now_privates h
  have hpublics := p.now_publics h
  obtain ⟨image, hheld, -, -, htagged⟩ := hexists (cloud.now c) (Nat.le_refl _) (by omega)
  obtain ⟨-, hname, hdigest, -, htags⟩ := h.publicImages hheld
  have htag : Plain tag := item_tag_plain htags htagged
  have hothers : ∀ rp : PublicRepository, (rp.repositoryName == name) = false → ∀ u o v,
      cloud.publicRepositoryImages rp u = (.returned o, v) → ∀ e ∈ o,
        (e.entityId == publicTarget name digest tag) = false := by
    intro rp hne u o v hrun e he
    obtain ⟨digest', tag', hd, ht, hn, hid⟩ := mem_publicRepositoryImages h hrun he
    rw [hid, beq_eq_false_iff_ne]
    intro heq
    obtain ⟨-, -, hsame⟩ := publicTarget_inj hn hname hd hdigest ht htag heq
    rw [hsame, beq_self_eq_true] at hne
    cases hne
  rw [p.whole]
  refine Accounts.append_left ?_ (p.no_public_in_privates h hname hdigest htag)
  have hplaces : (∃ rp ∈ cloud.usedPublicRepositories (cloud.afterPrivate c),
      (rp.repositoryName == name) = true) ↔
        ∃ rp ∈ cloud.usedPublicRepositories (cloud.afterPrivate c), rp.repositoryName = name := by
    simp
  by_cases hany : ∃ rp ∈ cloud.usedPublicRepositories (cloud.afterPrivate c),
      (rp.repositoryName == name) = true
  · obtain ⟨rp, hmem, hrp, o, v, hbody, hend, -, hcount⟩ := gather_first
      (F := ctxFrame cloud.forward) (p := (·.repositoryName == name))
      (kept_forward h).publicRepositoryImages p.publics hany
    obtain rfl := beq_iff_eq.mp hrp
    have hone : ((cloud.usedPublicRepositories (cloud.afterPrivate c)).filter
        (·.repositoryName == rp.repositoryName)).length ≤ 1 := by
      rw [← List.countP_eq_length_filter]
      unfold Cloud.usedPublicRepositories
      split
      · exact p.publicOnce h hc.publicOnce rp.repositoryName
      · simp
    have hstart : cloud.now (cloud.afterPrivate c) ≤
        cloud.now (cloud.atPublicRepository rp.repositoryName c) :=
      rel_atFirst (F := ctxFrame cloud.forward) (kept_forward h).publicRepositoryImages
    have hmoved := (publicRepositoryImages_returned h hbody).2.2
    have hend : cloud.now v ≤ cloud.now d := hend
    have hbetween : cloud.now (cloud.atPublicRepository rp.repositoryName c) ≤ cloud.now d := by
      change cloud.now (cloud.atPublicRepository rp.repositoryName c) < cloud.now v at hmoved
      omega
    obtain ⟨image', hheld', hdigest', -, htagged'⟩ := hexists
      (cloud.now (cloud.atPublicRepository rp.repositoryName c)) (by omega) hbetween
    have hown := publicRepositoryImages_accounts h hdigest htag
      ⟨image', hheld', hdigest', htagged'⟩ hbody
    refine (hown.of_countP (hcount _ hone fun rp' _ hne => hothers rp' hne)).congr ?_
    exact (and_iff_right (hplaces.mp hany)).symm
  · refine ⟨fun hP => absurd (hplaces.mpr hP.1) hany, fun _ => ?_⟩
    refine countP_eq_zero_of_ne (gather_forall (P := fun e => e.entityId ≠ _) p.publics ?_)
    intro rp hmem u o v hrun e he heq
    have hne : (rp.repositoryName == name) = false := by
      cases hsame : rp.repositoryName == name with
      | false => rfl
      | true => exact absurd ⟨rp, hmem, hsame⟩ hany
    have hfalse := hothers rp hne u o v hrun e he
    rw [heq, beq_self_eq_true] at hfalse
    cases hfalse

end Images

section Rows

variable {W : Type} {cloud : Cloud W} {x : Resource} {missed : W → Prop} {base : Mapper W Entity}

namespace Resource

-- the mapper that reads the resource, whatever the rest of it does
def mapper (cloud : Cloud W) (x : Resource) (base : Mapper W Entity) : Mapper W Entity :=
  { base with
    entityId := Entity.entityId
    cloud := { base.cloud with readFn := x.read cloud } }

-- what the read asks of the memo has no repository twice
def AsksOnce (c : Context W Entity) : Resource → Prop
  | privateImage _ _ _ _ | publicImage _ _ _ => MemoOnce c
  | _ => True

theorem cloudId_id (x : Resource) : CloudId x.id := by
  cases x <;> exact cloudId_generateId _ _ _

theorem accounts (h : Faithful cloud) {c d : Context W Entity} {out : List Entity}
    (hc : x.AsksOnce c) (hread : x.read cloud c = (.returned out, d))
    (hx : x.ExistsThroughout cloud c d) : Accounts out x.id (x.InReach cloud c) := by
  cases x with
  | metricAlarm region name => exact metricAlarm_accounts h hread hx
  | subnetGroup region name => exact subnetGroup_accounts h hread hx
  | dynamoTable region name => exact dynamoTable_accounts h hread hx
  | privateImage region name digest tag => exact privateImage_accounts h hc hread hx
  | publicImage name digest tag => exact publicImage_accounts h hc hread hx

-- missed is any record of the world of the full reads that had the resource out of reach
structure Tracked (cloud : Cloud W) (x : Resource) (missed : W → Prop) : Prop where
  regions : (missedFrame missed).Keeps cloud.getEnabledAwsRegions
  client : ∀ region, (missedFrame missed).Keeps (cloud.getAwsClient region)
  tick : ∀ w, missed w → missed (cloud.clock.tick w)
  reads : ∀ c out d, x.read cloud c = (.returned out, d) →
    x.AsksOnce c ∧ x.ExistsThroughout cloud c d ∧ x.InReach cloud c ∨ missed d.store.world

theorem readsOrMisses (h : Faithful cloud) (ht : x.Tracked cloud missed) :
    ReadsOrMisses (x.mapper cloud base) x.id missed := by
  intro c out d hread
  refine (ht.reads c out d hread).imp_left ?_
  rintro ⟨hc, hx, hreach⟩
  have hone := (x.accounts h hc hread hx).once hreach
  obtain ⟨e, he, hid⟩ := List.countP_pos_iff.mp (show 0 < out.countP (·.entityId == x.id) by omega)
  exact ⟨e, he, beq_iff_eq.mp hid⟩

theorem kept_cover (h : Faithful cloud) (ht : x.Tracked cloud missed)
    (hname : base.entityName ≠ "Repository") (hrelated : ∀ dest entityName id,
      (coverFrame (x.mapper cloud base) x.id missed).Keeps (cloud.readById dest entityName id)) :
    Kept cloud (missedFrame missed) (coverFrame (x.mapper cloud base) x.id missed) where
  regions := ht.regions
  client := ht.client
  tick st := ht.tick st.world
  related := hrelated
  atStore := coverFrame_atStore
  memo es := by
    have hother : cloud.repositoryCrud.entityName ≠ (x.mapper cloud base).entityName := by
      rw [show cloud.repositoryCrud.entityName = "Repository" from h.repository]
      exact fun heq => hname heq.symm
    exact keeps_coverWrite (fun c => memo_store .cloud c es) fun c hcover =>
      covers_of_memo hcover (memo_cloud_other hother c es)

theorem kept_read {R : Frame (Store W)} {C : Frame (Context W Entity)} (hk : Kept cloud R C)
    (x : Resource) : C.Keeps (x.read cloud) := by
  cases x with
  | metricAlarm region name => exact hk.inRegions hk.metricAlarmRegion
  | subnetGroup region name => exact hk.inRegions hk.subnetGroupRegion
  | dynamoTable region name => exact hk.inRegions hk.tableRegion
  | privateImage region name digest tag => exact hk.repositoryImageRead
  | publicImage name digest tag => exact hk.repositoryImageRead

end Resource

-- a full read that returns has a resource once just when its way to it is not cut off, and no call
-- deletes the row of a resource unless a full read had it out of reach
theorem full_reads_exhaustive_iff (h : Faithful cloud) :
    (∀ (x : Resource) (c : Context W Entity), (x.read cloud c).1 ≠ .diverged) ∧
      (∀ (x : Resource) (c : Context W Entity) (out : List Entity) (d : Context W Entity),
        x.AsksOnce c → x.read cloud c = (.returned out, d) → x.ExistsThroughout cloud c d →
          (out.countP (·.entityId == x.id) = 1 ↔ x.InReach cloud c)) ∧
        ∀ (x : Resource) (missed : W → Prop) (base : Mapper W Entity) (env : Env W Entity),
          base.entityName ≠ "Repository" → x.Tracked cloud missed →
            Situated cloud.toProvider (x.mapper cloud base) x.id missed env →
              ∀ n c s, Spared base.entityName x.id s.trace →
                ¬ missed (CommitCall.run env n c s).2.ctx.store.world →
                  Spared base.entityName x.id (CommitCall.run env n c s).2.trace := by
  refine ⟨fun x => halts_read h x, fun x c out d hc hread hx => (x.accounts h hc hread hx).iff, ?_⟩
  intro x missed base env hname ht hs n c s hspared hmissed
  have hkept := Resource.kept_cover h ht hname hs.related
  exact run_spares (watched_of_situated x.cloudId_id rfl (Resource.readsOrMisses h ht)
    (Resource.kept_read hkept x) hs) n c hspared hmissed

end Rows

section Pages

structure AlarmWorld where
  rows : List Entity
  time : Nat := 0
deriving DecidableEq

def emptyListing {α : Type} (name : α → Option String) : Listing name where
  keys := []
  nodup := List.nodup_nil
  held _ _ := none
  pageSize _ := 1
  pageSize_pos _ := Nat.one_pos
  failure _ := none
  entries h := by cases h

def cpuAlarm (name : String) : AwsMetricAlarm :=
  { alarmName := some name, alarmArn := some ("arn:aws:cloudwatch:" ++ name) }

def twoAlarms (size : Nat) (hsize : 0 < size) : Listing AwsMetricAlarm.alarmName where
  keys := ["a", "b"]
  nodup := by decide
  held _ name := if name = "a" ∨ name = "b" then some (cpuAlarm name) else none
  pageSize _ := size
  pageSize_pos _ := hsize
  failure _ := none
  entries {t k a} h := by
    split at h
    · next hk =>
      obtain rfl := Option.some.inj h
      refine ⟨by simpa using hk, ?_, fun n hn => (Option.some.inj hn).symm⟩
      rcases hk with rfl | rfl <;> decide
    · cases h

def alarmBase (entityName : String) : Mapper AlarmWorld Entity where
  metadata := { name := entityName, tableName := "metric_alarm",
                ownColumns := [{ databaseName := "alarm_name", propertyName := "alarmName" }] }
  source := .db
  entityId := Entity.entityId
  equals a b := a.body == b.body
  updateOrReplace _ _ := .update
  db := Crud.ofList AlarmWorld.rows fun rows w => { w with rows }
  cloud :=
    { createFn := fun _ => Prog.fail (.error "LimitExceeded")
      readFn := pure []
      updateFn := fun e => pure [e]
      deleteFn := fun _ => pure () }
  changedEntities _ := Prog.reads fun st => st.world.rows

def alarmCloud (size : Nat) (hsize : 0 < size) : Cloud AlarmWorld where
  getEnabledAwsRegions := pure ["us-east-1"]
  getAwsClient _ := pure ()
  readById _ _ _ := pure none
  safeParse _ := none
  clock := { now := AlarmWorld.time, tick := fun w => { w with time := w.time + 1 },
             now_tick := fun _ => rfl }
  fuel := 1
  alarms _ := twoAlarms size hsize
  subnetGroups _ := emptyListing _
  repositories _ := emptyListing _
  images _ _ := emptyListing _
  publicImages _ := emptyListing _
  tables _ := emptyListing _
  goneTable _ _ := none
  memoised _ _ := false
  repository := alarmBase "Repository"

def secondAlarm : Resource := .metricAlarm "us-east-1" "b"

def alarmMapper (size : Nat) (hsize : 0 < size) : Mapper AlarmWorld Entity :=
  secondAlarm.mapper (alarmCloud size hsize) (alarmBase "MetricAlarm")

def alarmEnv (size : Nat) (hsize : 0 < size) : Env AlarmWorld Entity :=
  Env.reliable { dbUser := "iasql", version := "0.0.1" }
    [{ name := "aws_cloudwatch", version := "0.0.1", dependencies := [], tables := ["metric_alarm"],
       mappers := [alarmMapper size hsize] }]

def alarmRecord (name : String) : Entity where
  body := .metricAlarm
    { alarmName := name, alarmArn := (cpuAlarm name).alarmArn, region := "us-east-1" }

def alarmRow (id : Nat) (name : String) : Entity := { alarmRecord name with id := some id }

def alarmEngine : Engine AlarmWorld Entity where
  ctx := { store := { world := { rows := [alarmRow 1 "a", alarmRow 2 "b"] }, auditLog := [] } }

variable {size : Nat} {hsize : 0 < size}

theorem alarmCloud_faithful : Faithful (alarmCloud size hsize) where
  regions st regions st' h := by
    cases h
    exact ⟨by decide, by decide +kernel⟩
  stillRegions := Frame.keeps_pure _
  stillClient _ := Frame.keeps_pure _
  related _ _ _ := Frame.keeps_pure _
  relatedOnce _ _ _ := Frame.keeps_pure _
  haltsRegions := halts_pure _
  haltsClient _ := halts_pure _
  haltsRelated _ _ _ := halts_pure _
  tablesFuel _ := Nat.one_pos
  repositoriesFuel _ := Nat.one_pos
  repository := rfl
  images h := by cases h
  publicImages h := by cases h

theorem secondAlarm_exists (c d : Context AlarmWorld Entity) :
    secondAlarm.ExistsThroughout (alarmCloud size hsize) c d := by
  refine ⟨fun region hregion st regions st' h => ?_, fun t _ _ => ?_⟩
  · cases h
    exact List.mem_singleton.mpr (Option.some.inj hregion).symm
  · exact ⟨cpuAlarm "b", rfl, rfl, by decide⟩

theorem secondAlarm_inReach (c : Context AlarmWorld Entity) :
    secondAlarm.InReach (alarmCloud 2 Nat.two_pos) c :=
  show "b" ∈ ["a", "b"] by decide

theorem secondAlarm_tracked :
    secondAlarm.Tracked (alarmCloud 2 Nat.two_pos) fun _ => False where
  regions := Frame.keeps_pure _
  client _ := Frame.keeps_pure _
  tick _ h := h
  reads c _ d _ := .inl ⟨trivial, secondAlarm_exists c d, secondAlarm_inReach c⟩

theorem never_keeps {α : Type} (p : Prog (Store AlarmWorld) Thrown α) :
    (missedFrame fun _ : AlarmWorld => False).Keeps p := fun _ h => h.elim

theorem alarmCover_writes {f : List Entity → List Entity} {m : Mapper AlarmWorld Entity}
    {id : String} : (coverFrame m id fun _ => False).Keeps (Prog.writes fun ctx =>
      { ctx with store := { ctx.store with world := { ctx.store.world with
          rows := f ctx.store.world.rows } } } : Prog (Context AlarmWorld Entity) Thrown Unit) :=
  fun _ => ⟨fun h => h, .inl⟩

theorem alarmEnv_situated :
    Situated (alarmCloud 2 Nat.two_pos).toProvider (alarmMapper 2 Nat.two_pos) secondAlarm.id
      (fun _ => False) (alarmEnv 2 Nat.two_pos) where
  keeps :=
    { newDate := fun _ h => h
      createConn := Frame.keeps_pure _
      dropConn := fun _ => Frame.keeps_pure _
      roundTrip := Frame.keeps_pure _
      upgrading := Frame.keeps_pure _
      versionString := Frame.keeps_pure _
      recreateEntities := fun _ => Frame.keeps_pure _
      query := fun _ => Frame.keeps_pure _
      modules := fun _ _ _ _ =>
        { create := fun _ _ _ h => h.elim
          read := fun _ _ h => h.elim
          update := fun _ _ _ h => h.elim
          delete := fun _ _ _ h => h.elim
          changed := fun _ => never_keeps _ } }
  related _ _ _ := Frame.keeps_pure _
  createRow e := Frame.keeps_bind (alarmCover_writes (f := fun rows => rows ++ [e])) fun _ =>
    Frame.keeps_pure _
  readRows := Frame.keeps_reads _
  updateRow _ := Frame.keeps_pure _
  deleteRow e := alarmCover_writes (f := fun rows => rows.filter (· ≠ e))
  others mod hmod m' hm := by
    obtain rfl := List.mem_singleton.mp hmod
    exact .inl (List.mem_singleton.mp hm)
  created e c out c' he h := by
    cases h
    intro o ho
    obtain rfl := List.mem_singleton.mp ho
    exact he
  updated e c out c' he h := by
    cases h
    intro o ho
    obtain rfl := List.mem_singleton.mp ho
    exact he

theorem second_alarm_on_first_page :
    [alarmRecord "a", alarmRecord "b"].countP (·.entityId == secondAlarm.id) = 1 ∧
      Spared "MetricAlarm" secondAlarm.id (CommitCall.run (alarmEnv 2 Nat.two_pos) 4
        (.commit false false none none) alarmEngine).2.trace := by
  obtain ⟨-, hread, hrun⟩ := full_reads_exhaustive_iff (@alarmCloud_faithful 2 Nat.two_pos)
  refine ⟨?_, ?_⟩
  · exact (hread secondAlarm alarmEngine.ctx _ _ trivial rfl (secondAlarm_exists _ _)).mpr
      (secondAlarm_inReach _)
  · exact hrun secondAlarm (fun _ => False) (alarmBase "MetricAlarm") (alarmEnv 2 Nat.two_pos)
      (by decide) secondAlarm_tracked alarmEnv_situated 4 (.commit false false none none) alarmEngine
      (by decide) fun h => h

-- with one alarm a page, the second alarm is in no full read and sync deletes its row
theorem second_alarm_on_second_page :
    (∃ d, secondAlarm.read (alarmCloud 1 Nat.one_pos) alarmEngine.ctx =
        (.returned [alarmRecord "a"], d) ∧
      secondAlarm.ExistsThroughout (alarmCloud 1 Nat.one_pos) alarmEngine.ctx d) ∧
      [alarmRecord "a"].countP (·.entityId == secondAlarm.id) = 0 ∧
        ¬ Spared "MetricAlarm" secondAlarm.id (CommitCall.run (alarmEnv 1 Nat.one_pos) 4
          (.commit false false none none) alarmEngine).2.trace := by
  refine ⟨⟨_, rfl, secondAlarm_exists _ _⟩, ?_, ?_⟩ <;> decide +kernel

end Pages

end Iasql.Aws
