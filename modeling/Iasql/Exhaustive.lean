import Iasql.CloudIds
import Iasql.FullRead

namespace Iasql.Aws

open Program Prog OrderedMap Paging

section Calls

variable {W α β : Type} {clock : Clock W} {name : α → Option String} {listing : Listing name}
  {f : String × α → β} {token : Option String} {st st' : Store W}

theorem call_returned {answer : Nat → Except Thrown β} {b : β}
    (h : clock.call answer st = (.returned b, st')) :
    answer (clock.now st.world) = .ok b ∧ st' = { st with world := clock.tick st.world } := by
  unfold Clock.call at h
  obtain ⟨hout, rfl⟩ := Prod.mk.inj h
  refine ⟨?_, rfl⟩
  cases hanswer : answer (clock.now st.world) with
  | ok b' =>
    rw [hanswer] at hout
    exact congrArg Except.ok (Outcome.returned.inj hout)
  | error err =>
    rw [hanswer] at hout
    cases hout

theorem page_ok {t : Nat} {page : Page β} (h : listing.page f token t = .ok page) :
    listing.failure t = none ∧
      page = { items := some ((listing.shown t token).map f), nextToken := listing.next t token } := by
  unfold Listing.page at h
  split at h
  · cases h
  · next hfailure => exact ⟨hfailure, (Except.ok.inj h).symm⟩

theorem page_returned {page : Page β}
    (h : clock.call (listing.page f token) st = (.returned page, st')) :
    page.items.getD [] = (listing.shown (clock.now st.world) token).map f ∧
      page.nextToken = listing.next (clock.now st.world) token ∧
        clock.now st'.world = clock.now st.world + 1 := by
  obtain ⟨hpage, rfl⟩ := call_returned h
  obtain ⟨-, rfl⟩ := page_ok hpage
  exact ⟨rfl, rfl, clock.now_tick _⟩

theorem paginate_returned {n : Nat} {items : List β}
    (h : paginate (fun token => clock.call (listing.page f token)) n token st =
      (.returned items, st')) :
    ∃ out, listing.collect n (clock.now st.world) token = some (out, clock.now st'.world) ∧
      items = out.map f := by
  induction n generalizing token st items with
  | zero => cases h
  | succ n ih =>
    obtain ⟨page, st₁, hcall, hrest⟩ := bind_returned_inv h
    obtain ⟨hitems, hnext, hnow⟩ := page_returned hcall
    rw [Shelf.collect, ← hnext]
    cases htoken : page.nextToken with
    | none =>
      simp only [htoken] at hrest
      cases hrest
      exact ⟨_, by rw [hnow], hitems⟩
    | some next =>
      simp only [htoken] at hrest
      obtain ⟨rest, st₂, hpages, hpure⟩ := bind_returned_inv hrest
      cases hpure
      obtain ⟨out, hcollect, rfl⟩ := ih hpages
      rw [hnow] at hcollect
      refine ⟨listing.shown (clock.now st.world) token ++ out, by simp [hcollect], ?_⟩
      rw [hitems, List.map_append]

theorem halts_call (answer : Nat → Except Thrown β) : Halts (clock.call answer) := by
  intro st h
  unfold Clock.call at h
  split at h <;> cases h

theorem halts_paginate {n : Nat} (h : (listing.after token).length < n) :
    (paginate (fun token => clock.call (listing.page f token)) n token st).1 ≠ .diverged := by
  induction n generalizing token st with
  | zero => omega
  | succ n ih =>
    intro hdiverged
    rcases hcall : clock.call (listing.page f token) st with ⟨o, st₁⟩
    cases o with
    | thrown e =>
      have hthrown : paginate (fun token => clock.call (listing.page f token)) (n + 1) token st =
          (.thrown e, st₁) := bind_of_thrown hcall
      rw [hthrown] at hdiverged
      cases hdiverged
    | diverged => exact @halts_call _ _ clock (listing.page f token) st (by rw [hcall])
    | returned page =>
      obtain ⟨-, hnext, -⟩ := page_returned hcall
      rw [paginate, bind_of_returned hcall] at hdiverged
      cases htoken : page.nextToken with
      | none =>
        simp only [htoken] at hdiverged
        cases hdiverged
      | some next =>
        simp only [htoken] at hdiverged
        obtain ⟨before, hafter, -⟩ := Shelf.next_some (hnext.symm.trans htoken)
        have hlen : (listing.after (some next)).length < n := by
          rw [hafter, List.length_append, List.length_cons] at h
          omega
        have hih := @ih _ st₁ hlen
        rcases hpages : paginate (fun token => clock.call (listing.page f token)) n (some next) st₁
          with ⟨o, st₂⟩
        rw [hpages] at hih
        cases o with
        | returned items => rw [bind_of_returned hpages] at hdiverged; cases hdiverged
        | thrown e => rw [bind_of_thrown hpages] at hdiverged; cases hdiverged
        | diverged => exact hih rfl

end Calls

section Conditions

variable {W : Type}

namespace Cloud

variable (cloud : Cloud W)

def now (c : Context W Entity) : Nat := cloud.clock.now c.store.world

def still : Frame (Store W) := Frame.ofField fun st => cloud.clock.now st.world

def forward : Frame (Store W) where
  rel s t := cloud.clock.now s.world ≤ cloud.clock.now t.world
  refl _ := Nat.le_refl _
  trans := Nat.le_trans

def Enabled (region : String) : Prop :=
  ∀ st regions st', cloud.getEnabledAwsRegions st = (.returned regions, st') → region ∈ regions

def regionsAt (c : Context W Entity) : List String :=
  match (cloud.getEnabledAwsRegions c.store).1 with
  | .returned regions => regions
  | _ => []

def afterRegions (c : Context W Entity) : Context W Entity :=
  (atStore cloud.getEnabledAwsRegions c).2

-- the state in which a read comes to a region
def atRegion (body : String → Prog (Context W Entity) Thrown (List Entity)) (region : String)
    (c : Context W Entity) : Context W Entity :=
  atFirst body (· == region) (cloud.regionsAt c) (cloud.afterRegions c)

def repositoriesAt (c : Context W Entity) : List Repository :=
  match (cloud.usedRepositories (cloud.afterRegions c)).1 with
  | .returned repositories => repositories
  | _ => []

def afterRepositories (c : Context W Entity) : Context W Entity :=
  (cloud.usedRepositories (cloud.afterRegions c)).2

-- the state in which the read of the images comes to a repository
def atRepository (region name : String) (c : Context W Entity) : Context W Entity :=
  atFirst (cloud.repositoryImages region) (·.repositoryName == name)
    ((cloud.repositoriesAt c).filter (·.region == region))
    (atStore (cloud.getAwsClient (some region)) (atFirst (cloud.privateRegion (cloud.repositoriesAt c))
      (· == region) (cloud.regionsAt c) (cloud.afterRepositories c))).2

def afterPrivate (c : Context W Entity) : Context W Entity :=
  (atStore (cloud.getAwsClient none) (Prog.gather (cloud.privateRegion (cloud.repositoriesAt c))
    (cloud.regionsAt c) (cloud.afterRepositories c)).2).2

def atPublicRepository (name : String) (c : Context W Entity) : Context W Entity :=
  atFirst cloud.publicRepositoryImages (·.repositoryName == name)
    (cloud.usedPublicRepositories (cloud.afterPrivate c)) (cloud.afterPrivate c)

def ticked (c : Context W Entity) : Context W Entity :=
  { c with store := { c.store with world := cloud.clock.tick c.store.world } }

-- no lookup throws before the loop comes to the image
def Reaches (region digest tag : String) : List (ImageDetail × String) → Context W Entity → Prop
  | [], _ => False
  | image :: images, c =>
    match cloud.repositoryImageMapper image "private" (some region) c with
    | (.returned _, c') =>
      image.1.imageDigest = some digest ∧ image.2 = tag ∨ Reaches region digest tag images c'
    | _ => False

end Cloud

inductive Resource where
  | metricAlarm (region name : String)
  | subnetGroup (region name : String)
  | dynamoTable (region name : String)
  | privateImage (region name digest tag : String)
  | publicImage (name digest tag : String)
deriving DecidableEq

namespace Resource

variable (cloud : Cloud W)

def id : Resource → String
  | metricAlarm region name | subnetGroup region name | dynamoTable region name =>
    generateId [name, region]
  | privateImage region name digest tag => generateId [digest, tag, "private", name, region]
  | publicImage name digest tag => generateId [digest, tag, "public", name]

def region : Resource → Option String
  | metricAlarm region _ | subnetGroup region _ | dynamoTable region _ => some region
  | privateImage region _ _ _ => some region
  | publicImage _ _ _ => none

def read : Resource → Prog (Context W Entity) Thrown (List Entity)
  | metricAlarm _ _ => cloud.metricAlarmRead
  | subnetGroup _ _ => cloud.subnetGroupRead
  | dynamoTable _ _ => cloud.dynamoTableRead
  | privateImage _ _ _ _ | publicImage _ _ _ => cloud.repositoryImageRead

-- what the mapper supports of the resource is there
def ExistsAt (t : Nat) : Resource → Prop
  | metricAlarm region name => ∃ ma, (cloud.alarms region).held t name = some ma ∧
      ma.alarmName = some name ∧ truthy ma.alarmArn = true
  | subnetGroup region name => supportedRegions.contains region = true ∧
      ∃ sg, (cloud.subnetGroups region).held t name = some sg ∧ sg.name = some name ∧
        truthy sg.arn = true
  | dynamoTable region name => ∃ table, (cloud.tables region).held t name = some table ∧
      table.tableName = some name
  | privateImage region name digest tag =>
      (∃ r, (cloud.repositories region).held t name = some r ∧ r.repositoryName = some name) ∧
        ∃ image, (cloud.images region name).held t digest = some image ∧
          image.imageDigest = some digest ∧ image.repositoryName = some name ∧
            (image, tag) ∈ Cloud.tagged image
  | publicImage name digest tag =>
      ∃ image, (cloud.publicImages name).held t digest = some image ∧
        image.imageDigest = some digest ∧ image.repositoryName = some name ∧
          (image, tag) ∈ Cloud.tagged image

-- in an enabled region, at each moment of a read
def ExistsThroughout (c d : Context W Entity) (x : Resource) : Prop :=
  (∀ region ∈ x.region, cloud.Enabled region) ∧
    ∀ t, cloud.now c ≤ t → t ≤ cloud.now d → x.ExistsAt cloud t

-- the way of the read to the resource is not cut off
def InReach (c : Context W Entity) : Resource → Prop
  -- it is on the first page, the only one asked for
  | metricAlarm region name => name ∈ ((cloud.alarms region).shown
      (cloud.now (cloud.atRegion cloud.metricAlarmRegion region c)) none).map Prod.fst
  | subnetGroup region name => name ∈ ((cloud.subnetGroups region).shown
      (cloud.now (cloud.atRegion cloud.subnetGroupRegion region c)) none).map Prod.fst
  -- no table listed before it is gone by the time it is described
  | dynamoTable region name => ∀ listed t before rest,
      (cloud.tables region).collect cloud.fuel
        (cloud.now (cloud.atRegion cloud.tableRegion region c)) none = some (listed, t) →
      listed.map Prod.fst = before ++ name :: rest →
      ∀ (i : Nat) (n : String), before[i]? = some n →
        ((cloud.tables region).held (t + i) n).isSome = true
  -- the memo knows its repository or nothing, the one page asked for has it, nothing is swallowed
  | privateImage region name digest tag =>
      (cloud.memoised c.memoCloud "Repository" = true →
        ∃ r ∈ Cloud.repositoriesIn (c.entities .cloud "Repository"),
          r.region = region ∧ r.repositoryName = name) ∧
      (cloud.images region name).failure (cloud.now (cloud.atRepository region name c)) = none ∧
      cloud.Reaches region digest tag
        (Cloud.privateDetails (((cloud.images region name).shown
          (cloud.now (cloud.atRepository region name c)) none).map Prod.snd))
        (cloud.ticked (cloud.atRepository region name c))
  -- the memo knows its repository, and the one page asked for has it
  | publicImage name digest _ =>
      (∃ rp ∈ cloud.usedPublicRepositories (cloud.afterPrivate c), rp.repositoryName = name) ∧
      digest ∈ ((cloud.publicImages name).shown
        (cloud.now (cloud.atPublicRepository name c)) none).map Prod.fst

end Resource

variable (cloud : Cloud W)

-- the memo has no public repository twice
def PublicOnce (c : Context W Entity) : Prop :=
  ∀ name, (Cloud.publicRepositoriesIn (c.entities .cloud "PublicRepository")).countP
    (·.repositoryName == name) ≤ 1

-- nor a private one, when it knows any
structure MemoOnce (c : Context W Entity) : Prop where
  privateOnce : ∀ region name,
    ((Cloud.repositoriesIn (c.entities .cloud "Repository")).filter (·.region == region)).countP
      (·.repositoryName == name) ≤ 1
  publicOnce : PublicOnce c

-- what AWS promises of its names, and what is no call to AWS takes no moment
structure Faithful : Prop where
  regions : ∀ st regions st', cloud.getEnabledAwsRegions st = (.returned regions, st') →
    regions.Nodup ∧ ∀ r ∈ regions, r ≠ "" ∧ Plain r
  stillRegions : cloud.still.Keeps cloud.getEnabledAwsRegions
  stillClient : ∀ region, cloud.still.Keeps (cloud.getAwsClient region)
  related : ∀ dest entityName id, (ctxFrame cloud.forward).Keeps (cloud.readById dest entityName id)
  relatedOnce : ∀ dest entityName id,
    (Frame.ofInvariant PublicOnce).Keeps (cloud.readById dest entityName id)
  haltsRegions : Halts cloud.getEnabledAwsRegions
  haltsClient : ∀ region, Halts (cloud.getAwsClient region)
  haltsRelated : ∀ dest entityName id, Halts (cloud.readById dest entityName id)
  tablesFuel : ∀ region, (cloud.tables region).keys.length < cloud.fuel
  repositoriesFuel : ∀ region, (cloud.repositories region).keys.length < cloud.fuel
  repository : cloud.repository.entityName = "Repository"
  images : ∀ {region name t digest image},
    (cloud.images region name).held t digest = some image →
      (∀ n ∈ image.repositoryName, n = name) ∧ Plain name ∧ Plain digest ∧
        image.imageTags.Nodup ∧ ∀ tag ∈ image.imageTags, Plain tag
  publicImages : ∀ {name t digest image},
    (cloud.publicImages name).held t digest = some image →
      image.repositoryName = some name ∧ Plain name ∧ Plain digest ∧
        image.imageTags.Nodup ∧ ∀ tag ∈ image.imageTags, Plain tag

end Conditions

section Halting

variable {W α : Type} {cloud : Cloud W} (h : Faithful cloud)

theorem halts_atStore {p : Prog (Store W) Thrown α} (hp : Halts p) : Halts (atStore p) :=
  halts_within hp _ _

theorem halts_mapItems {σ β : Type} {f : α → Prog σ Thrown (Option β)} (hf : ∀ a, Halts (f a))
    (items : List α) : Halts (mapItems f items) :=
  halts_gather (fun a => halts_bind (hf a) fun _ => halts_pure _) items

include h

theorem halts_inRegions {body : String → Prog (Context W Entity) Thrown (List Entity)}
    (hbody : ∀ region, Halts (body region)) : Halts (cloud.inRegions body) :=
  halts_bind (halts_atStore h.haltsRegions) fun regions => halts_gather hbody regions

theorem halts_readRegion {list : String → Prog (Store W) Thrown (List α)}
    {f : α → String → Option Body} (hlist : ∀ region, Halts (list region)) (region : String) :
    Halts (cloud.readRegion list (fun a region => pure (f a region)) region) :=
  halts_bind (halts_atStore (h.haltsClient _)) fun _ =>
    halts_bind (halts_atStore (hlist region)) fun items =>
      halts_mapItems (fun _ => halts_pure _) items

theorem halts_tableRegion (region : String) : Halts (cloud.tableRegion region) := by
  have hdescribe (tableNames : List String) : Halts (cloud.describeTables region tableNames) := by
    induction tableNames with
    | nil => exact halts_pure _
    | cons tableName tableNames ih =>
      refine halts_bind (halts_atStore (halts_call _)) ?_
      rintro (_ | table)
      · exact halts_pure _
      · refine halts_bind ?_ fun _ => halts_bind ih fun _ => halts_pure _
        unfold dynamoMapper
        split
        · exact halts_fail _
        · exact halts_pure _
  exact halts_bind (halts_atStore (h.haltsClient _)) fun _ =>
    halts_bind (halts_atStore fun st => halts_paginate (h.tablesFuel region)) hdescribe

theorem halts_repositoryImageMapper (image : ImageDetail × String) (type : String)
    (region : Option String) : Halts (cloud.repositoryImageMapper image type region) := by
  have hfind (id : String) : Halts (cloud.findRelated "Repository" id) := by
    refine halts_bind (h.haltsRelated _ _ _) ?_
    rintro (_ | e)
    · exact h.haltsRelated _ _ _
    · exact halts_pure _
  refine halts_ite (halts_fail _) (halts_bind (halts_ite (hfind _) (halts_pure _)) fun _ => ?_)
  exact halts_bind (halts_ite (halts_pure _) (h.haltsRelated _ _ _)) fun _ => halts_pure _

theorem halts_usedRepositories : Halts cloud.usedRepositories := by
  refine halts_bind (halts_reads _) fun ctx => halts_ite (halts_pure _) ?_
  refine halts_bind (halts_bind (halts_attempt (halts_inRegions h (halts_readRegion h fun region st =>
    halts_paginate (h.repositoriesFuel region)))) ?_) fun _ => halts_pure _
  rintro (err | out)
  · cases err <;> exact halts_fail _
  · exact halts_bind (halts_writes _) fun _ => halts_pure _

theorem halts_privateRegion (repositories : List Repository) (region : String) :
    Halts (cloud.privateRegion repositories region) := by
  have hpush (images : List (ImageDetail × String)) : Halts (cloud.pushImages region images) := by
    induction images with
    | nil => exact halts_pure _
    | cons image images ih =>
      refine halts_bind (halts_attempt (halts_repositoryImageMapper h image _ _)) ?_
      rintro (_ | e)
      · exact halts_pure _
      · exact halts_bind ih fun _ => halts_pure _
  refine halts_bind (halts_atStore (h.haltsClient _)) fun _ => halts_gather (fun r => ?_) _
  refine halts_bind (halts_attempt (halts_atStore (halts_call _))) ?_
  rintro (_ | ri)
  · exact halts_pure _
  · exact hpush _

theorem halts_repositoryImageRead : Halts cloud.repositoryImageRead := by
  refine halts_bind (halts_atStore h.haltsRegions) fun regions => ?_
  refine halts_bind (halts_usedRepositories h) fun repositories => ?_
  refine halts_bind (halts_gather (halts_privateRegion h repositories) _) fun _ => ?_
  refine halts_bind (halts_atStore (h.haltsClient _)) fun _ => halts_bind (halts_reads _) fun _ => ?_
  refine halts_bind (halts_gather (fun rp => ?_) _) fun _ => halts_pure _
  refine halts_bind (halts_atStore (halts_call _)) fun ri => halts_gather (fun image => ?_) _
  exact halts_bind (halts_repositoryImageMapper h image _ _) fun _ => halts_pure _

theorem halts_read (x : Resource) : Halts (x.read cloud) := by
  cases x with
  | metricAlarm region name =>
    exact halts_inRegions h (halts_readRegion h fun region =>
      halts_bind (halts_call _) fun _ => halts_pure _)
  | subnetGroup region name =>
    exact halts_inRegions h fun region => halts_ite (halts_pure _)
      (halts_readRegion h (fun region => halts_bind (halts_call _) fun _ => halts_pure _) region)
  | dynamoTable region name => exact halts_inRegions h (halts_tableRegion h)
  | privateImage region name digest tag => exact halts_repositoryImageRead h
  | publicImage name digest tag => exact halts_repositoryImageRead h

end Halting

section Time

variable {W : Type} {cloud : Cloud W}

theorem memo_cloud_other {m : Mapper W Entity} {name : String} (hname : m.entityName ≠ name)
    (c : Context W Entity) (es : List Entity) :
    (m.memo .cloud c es).memo .cloud name = c.memo .cloud name := by
  induction es generalizing c with
  | nil => rfl
  | cons e es ih =>
    refine (ih (m.memoOne .cloud c e)).trans ?_
    unfold Mapper.memoOne
    simp only
    split <;> exact memo_putEntries_other fun _ => hname

variable (h : Faithful cloud)

include h

theorem kept_forward : Kept cloud cloud.forward (ctxFrame cloud.forward) where
  regions st := Nat.le_of_eq (h.stillRegions st).symm
  client region st := Nat.le_of_eq (h.stillClient region st).symm
  tick st := Nat.le_of_lt (by rw [cloud.clock.now_tick]; exact Nat.lt_succ_self _)
  related := h.related
  atStore hp := keeps_atStore hp
  memo es c := by
    change cloud.clock.now c.store.world ≤
      cloud.clock.now (cloud.repositoryCrud.memo .cloud c es).store.world
    rw [memo_store]

theorem kept_publicOnce :
    Kept cloud ⟨fun _ _ => True, fun _ => trivial, fun _ _ => trivial⟩
      (Frame.ofInvariant PublicOnce) where
  regions _ := trivial
  client _ _ := trivial
  tick _ := trivial
  related := h.relatedOnce
  atStore _ _ hc := hc
  memo es c hc name := by
    have hname : cloud.repositoryCrud.entityName ≠ "PublicRepository" := by
      rw [show cloud.repositoryCrud.entityName = "Repository" from h.repository]
      decide
    have hother := memo_cloud_other hname c es
    change (Cloud.publicRepositoriesIn (((cloud.repositoryCrud.memo .cloud c es).memo .cloud
      "PublicRepository").map Prod.snd)).countP _ ≤ 1
    rw [hother]
    exact hc name

theorem now_afterRegions (c : Context W Entity) : cloud.now (cloud.afterRegions c) = cloud.now c :=
  h.stillRegions c.store

end Time

-- one record of the id when the condition holds, and none when it does not
structure Accounts (out : List Entity) (id : String) (P : Prop) : Prop where
  once : P → out.countP (·.entityId == id) = 1
  never : ¬ P → out.countP (·.entityId == id) = 0

theorem Accounts.iff {out : List Entity} {id : String} {P : Prop} (h : Accounts out id P) :
    out.countP (·.entityId == id) = 1 ↔ P := by
  refine ⟨fun hone => ?_, h.once⟩
  by_contra hP
  rw [h.never hP] at hone
  cases hone

theorem Accounts.congr {out : List Entity} {id : String} {P Q : Prop} (h : Accounts out id P)
    (hPQ : P ↔ Q) : Accounts out id Q :=
  ⟨fun hQ => h.once (hPQ.mpr hQ), fun hQ => h.never fun hP => hQ (hPQ.mp hP)⟩

theorem Accounts.of_countP {out o : List Entity} {id : String} {P : Prop} (h : Accounts o id P)
    (heq : out.countP (·.entityId == id) = o.countP (·.entityId == id)) : Accounts out id P :=
  ⟨fun hP => heq.trans (h.once hP), fun hP => heq.trans (h.never hP)⟩

section Entries

variable {α : Type} {name : α → Option String} {listing : Listing name}
  {f : α → String → Option Body} {region region' target : String}

-- a record is under the name of what it records, in its region
def NamesItself (name : α → Option String) (f : α → String → Option Body) : Prop :=
  ∀ a region body, f a region = some body → ∃ n ∈ name a, body.cloudColumns = [n, region]

theorem metricAlarmMapper_names : NamesItself AwsMetricAlarm.alarmName metricAlarmMapper := by
  intro ma region body h
  unfold metricAlarmMapper at h
  split at h
  · cases h
  · next htruthy =>
    obtain rfl := Option.some.inj h
    cases hname : ma.alarmName with
    | none => simp [truthy, hname] at htruthy
    | some n => exact ⟨n, rfl, by simp [Body.cloudColumns]⟩

theorem subnetGroupMapper_names : NamesItself AwsSubnetGroup.name subnetGroupMapper := by
  intro sg region body h
  unfold subnetGroupMapper at h
  split at h
  · cases h
  · next htruthy =>
    obtain rfl := Option.some.inj h
    cases hname : sg.name with
    | none => simp [truthy, hname] at htruthy
    | some n => exact ⟨n, rfl, by simp [Body.cloudColumns]⟩

theorem repositoryMapper_names : NamesItself RepositoryAws.repositoryName repositoryMapper := by
  intro r region body h
  unfold repositoryMapper at h
  split at h
  · cases h
  · next htruthy =>
    obtain rfl := Option.some.inj h
    cases hname : r.repositoryName with
    | none => simp [truthy, hname] at htruthy
    | some n => exact ⟨n, rfl, by simp [Body.cloudColumns]⟩

theorem dynamoBody_names : NamesItself TableDescription.tableName dynamoBody := by
  intro table region body h
  obtain ⟨n, hname, rfl⟩ := Option.map_eq_some_iff.mp h
  exact ⟨n, hname, rfl⟩

def recordsOf (f : α → String → Option Body) (region : String) (p : String × α) : List Entity :=
  ((f p.2 region).map fun body => ({ body } : Entity)).toList

theorem recordsOf_some {p : String × α} {body : Body} (h : f p.2 region = some body) :
    recordsOf f region p = [{ body }] := by simp [recordsOf, h]

def Held (listing : Listing name) (entries : List (String × α)) : Prop :=
  ∀ p ∈ entries, ∃ t, listing.held t p.1 = some p.2

theorem held_shown (t : Nat) (token : Option String) :
    Held listing (listing.shown t token) := fun _ hmem => ⟨t, Shelf.shown_held hmem⟩

variable (hf : NamesItself name f) (hregion : region ≠ "") {entries : List (String × α)}
  (hheld : Held listing entries)

include hf hregion hheld

theorem id_of_mem {p : String × α} (hp : p ∈ entries) {e : Entity}
    (he : e ∈ recordsOf f region p) : e.entityId = generateId [p.1, region] := by
  unfold recordsOf at he
  rw [Option.mem_toList, Option.map_eq_some_iff] at he
  obtain ⟨body, hbody, rfl⟩ := he
  obtain ⟨n, hname, hcolumns⟩ := hf _ _ _ hbody
  obtain ⟨t, ht⟩ := hheld p hp
  obtain ⟨-, hne, hnamed⟩ := listing.entries ht
  obtain rfl := hnamed n hname
  exact entityId_of_columns hcolumns (by simp [hne, hregion])

theorem id_of_entries {e : Entity} (he : e ∈ entries.flatMap (recordsOf f region)) :
    ∃ n, e.entityId = generateId [n, region] := by
  obtain ⟨p, hp, hmem⟩ := List.mem_flatMap.mp he
  exact ⟨p.1, id_of_mem hf hregion hheld hp hmem⟩

theorem accounts_entries (hnodup : (entries.map Prod.fst).Nodup) (hplain : Plain region)
    (hsupported : ∀ a, (target, a) ∈ entries → (f a region).isSome = true) :
    Accounts (entries.flatMap (recordsOf f region)) (generateId [target, region])
      (target ∈ entries.map Prod.fst) := by
  have hother : ∀ p ∈ entries, p.1 ≠ target →
      (recordsOf f region p).countP (·.entityId == generateId [target, region]) = 0 := by
    intro p hp hne
    rw [List.countP_eq_zero]
    intro e he hid
    have heq := (id_of_mem hf hregion hheld hp he).symm.trans (beq_iff_eq.mp hid)
    exact hne (generateId_pair_inj hplain hplain heq).1
  rcases countP_keyed hnodup hother with ⟨a, ha, hcount⟩ | ⟨hnot, hcount⟩
  · refine ⟨fun _ => hcount.trans ?_, fun hnot =>
      absurd (List.mem_map.mpr ⟨(target, a), ha, rfl⟩) hnot⟩
    obtain ⟨body, hbody⟩ := Option.isSome_iff_exists.mp (hsupported a ha)
    have hrecords : recordsOf f region (target, a) = [{ body }] := recordsOf_some hbody
    have hid := id_of_mem hf hregion hheld ha (e := { body }) (by rw [hrecords]; simp)
    rw [hrecords]
    simp [hid]
  · exact ⟨fun hmem => absurd hmem hnot, fun _ => hcount⟩

end Entries

section Regions

variable {W : Type} {cloud : Cloud W} (h : Faithful cloud)
  {body : String → Prog (Context W Entity) Thrown (List Entity)} {c d u v : Context W Entity}
  {out o : List Entity} {region : String}

theorem inRegions_returned (hread : cloud.inRegions body c = (.returned out, d)) :
    Prog.gather body (cloud.regionsAt c) (cloud.afterRegions c) = (.returned out, d) ∧
      cloud.getEnabledAwsRegions c.store =
        (.returned (cloud.regionsAt c), (cloud.afterRegions c).store) := by
  obtain ⟨regions, c', hregions, hgather⟩ := bind_returned_inv hread
  obtain ⟨hfst, rfl⟩ : (cloud.getEnabledAwsRegions c.store).1 = .returned regions ∧
      cloud.afterRegions c = c' := Prod.mk.inj hregions
  have hat : cloud.regionsAt c = regions := by rw [Cloud.regionsAt, hfst]
  rw [hat]
  exact ⟨hgather, run_eq hfst⟩

theorem filter_region_length {regions : List String} (hnodup : regions.Nodup) (region : String) :
    (regions.filter (· == region)).length ≤ 1 := by
  rw [← List.countP_eq_length_filter]
  exact List.nodup_iff_count_le_one.mp hnodup region

theorem gather_region {F : Frame (Context W Entity)} (hF : ∀ r, F.Keeps (body r))
    {regions : List String} (hgather : Prog.gather body regions c = (.returned out, d))
    (hmem : region ∈ regions) :
    ∃ o v, body region (atFirst body (· == region) regions c) = (.returned o, v) ∧ F.rel v d ∧
      o ⊆ out ∧ (regions.Nodup → ∀ id, (∀ r ∈ regions, r ≠ region → ∀ u o v,
        body r u = (.returned o, v) → ∀ e ∈ o, e.entityId ≠ id) →
          out.countP (·.entityId == id) = o.countP (·.entityId == id)) := by
  obtain ⟨r, -, hr, o, v, hbody, hrel, hsub, hcount⟩ := gather_first (p := (· == region)) hF hgather
    ⟨region, hmem, beq_self_eq_true region⟩
  obtain rfl := beq_iff_eq.mp hr
  refine ⟨o, v, hbody, hrel, hsub, fun hnodup id hothers => ?_⟩
  refine hcount _ (filter_region_length hnodup r) fun r' hmem hne u o v hbody e he => ?_
  simpa using hothers r' hmem (by simpa using hne) u o v hbody e he

variable {α : Type} {name : α → Option String} {listing : String → Listing name}
  {f : α → String → Option Body} {list : String → Prog (Store W) Thrown (List α)}

theorem mapItems_pure {σ α β : Type} (g : α → Option β) (xs : List α) (s : σ) :
    (mapItems (fun a => pure (g a)) xs : Prog σ Thrown (List β)) s =
      (.returned (xs.flatMap fun a => (g a).toList), s) := by
  induction xs with
  | nil => rfl
  | cons x xs ih =>
    change ((mapItems (fun a => pure (g a)) xs : Prog σ Thrown (List β)) >>= fun rest =>
      pure ((g x).toList ++ rest)) s = _
    rw [bind_of_returned ih]
    rfl

include h in
theorem readRegion_returned
    (hrun : cloud.readRegion list (fun a region => pure (f a region)) region u = (.returned o, v)) :
    ∃ st items, cloud.clock.now st.world = cloud.now u ∧
      list region st = (.returned items, v.store) ∧
        o = items.flatMap fun a => ((f a region).map fun body => ({ body } : Entity)).toList := by
  obtain ⟨_, u₁, hclient, hrest⟩ := bind_returned_inv hrun
  obtain ⟨items, u₂, hitems, hmap⟩ := bind_returned_inv hrest
  have hnow : cloud.now u₁ = cloud.now u := by
    obtain ⟨-, rfl⟩ := Prod.mk.inj hclient
    exact h.stillClient _ u.store
  obtain ⟨hlist, rfl⟩ : (list region u₁.store).1 = .returned items ∧
      { u₁ with store := (list region u₁.store).2 } = u₂ := Prod.mk.inj hitems
  have hpure : mapItems (fun a => (pure ((f a region).map fun body => ({ body } : Entity)) :
      Prog (Context W Entity) Thrown (Option Entity))) items
      { u₁ with store := (list region u₁.store).2 } = (.returned o, v) := hmap
  rw [mapItems_pure] at hpure
  obtain ⟨ho, rfl⟩ := Prod.mk.inj hpure
  exact ⟨u₁.store, items, hnow, run_eq hlist, (Outcome.returned.inj ho).symm⟩

include h in
theorem inRegions_first (hF : ∀ r, (ctxFrame cloud.forward).Keeps (body r))
    (hread : cloud.inRegions body c = (.returned out, d)) (henabled : cloud.Enabled region) :
    region ≠ "" ∧ Plain region ∧ ∃ o v,
      body region (cloud.atRegion body region c) = (.returned o, v) ∧
        cloud.now c ≤ cloud.now (cloud.atRegion body region c) ∧ cloud.now v ≤ cloud.now d ∧
          ((∀ r, r ≠ "" → ∀ u o v, body r u = (.returned o, v) →
              ∀ e ∈ o, ∃ n, e.entityId = generateId [n, r]) → ∀ target,
            out.countP (·.entityId == generateId [target, region]) =
              o.countP (·.entityId == generateId [target, region])) := by
  obtain ⟨hgather, hregions⟩ := inRegions_returned hread
  obtain ⟨hnodup, hnames⟩ := h.regions _ _ _ hregions
  have hmem := henabled _ _ _ hregions
  obtain ⟨hne, hplain⟩ := hnames region hmem
  obtain ⟨o, v, hbody, hrel, -, hcount⟩ := gather_region hF hgather hmem
  have hstart : cloud.now (cloud.afterRegions c) ≤ cloud.now (cloud.atRegion body region c) :=
    rel_atFirst (F := ctxFrame cloud.forward) hF
  rw [now_afterRegions h] at hstart
  refine ⟨hne, hplain, o, v, hbody, hstart, hrel, fun hids target => ?_⟩
  refine hcount hnodup _ fun r hr hother u o v hbody e he heq => ?_
  obtain ⟨n, hid⟩ := hids r (hnames r hr).1 u o v hbody e he
  exact hother (generateId_pair_inj (hnames r hr).2 hplain (hid.symm.trans heq)).2

end Regions

section Alarms

variable {W : Type} {cloud : Cloud W} (h : Faithful cloud) {c d u v : Context W Entity}
  {out o : List Entity} {region target : String} {α : Type} {name : α → Option String}
  {listing : String → Listing name} {f : α → String → Option Body}

include h in
theorem firstPage_returned (hrun : cloud.readRegion (fun region => do
      let res ← cloud.clock.call ((listing region).page Prod.snd none)
      return res.items.getD []) (fun a region => pure (f a region)) region u = (.returned o, v)) :
    o = ((listing region).shown (cloud.now u) none).flatMap (recordsOf f region) ∧
      cloud.now v = cloud.now u + 1 := by
  obtain ⟨st, items, hnow, hlist, rfl⟩ := readRegion_returned h hrun
  obtain ⟨res, st', hcall, hpure⟩ := bind_returned_inv hlist
  obtain ⟨hitems, -, hmoved⟩ := page_returned hcall
  cases hpure
  rw [hitems, hnow] at *
  refine ⟨?_, hmoved⟩
  rw [List.flatMap_map]
  rfl

theorem accounts_firstPage (hf : NamesItself name f) (hregion : region ≠ "") (hplain : Plain region)
    {t : Nat} (hsupported : ∀ a, (listing region).held t target = some a →
      (f a region).isSome = true) :
    Accounts (((listing region).shown t none).flatMap (recordsOf f region))
      (generateId [target, region]) (target ∈ ((listing region).shown t none).map Prod.fst) :=
  accounts_entries hf hregion (held_shown t none) (Shelf.shown_keys_nodup t none) hplain
    fun _ hmem => hsupported _ (Shelf.shown_held hmem)

include h in
theorem metricAlarm_accounts {x : String} (hread : cloud.metricAlarmRead c = (.returned out, d))
    (hx : (Resource.metricAlarm region x).ExistsThroughout cloud c d) :
    Accounts out (generateId [x, region]) ((Resource.metricAlarm region x).InReach cloud c) := by
  obtain ⟨hregion, hexists⟩ := hx
  obtain ⟨hne, hplain, o, v, hbody, hstart, hend, hcount⟩ := inRegions_first h
    (kept_forward h).metricAlarmRegion hread (hregion region rfl)
  obtain ⟨rfl, hmoved⟩ := firstPage_returned h hbody
  have hids : ∀ r, r ≠ "" → ∀ u o v, cloud.metricAlarmRegion r u = (.returned o, v) →
      ∀ e ∈ o, ∃ n, e.entityId = generateId [n, r] := by
    intro r hr u o v hbody e he
    obtain ⟨rfl, -⟩ := firstPage_returned h hbody
    exact id_of_entries metricAlarmMapper_names hr (held_shown _ none) he
  refine (accounts_firstPage metricAlarmMapper_names hne hplain fun ma hma => ?_).of_countP
    (hcount hids x)
  obtain ⟨ma', hheld, hname, harn⟩ := hexists _ hstart (by omega)
  obtain rfl := Option.some.inj (hma.symm.trans hheld)
  have hx : truthy ma.alarmName = true := by
    simp [truthy, hname, ((cloud.alarms region).entries hheld).2.1]
  simp [metricAlarmMapper, harn, hx]

theorem getSubnetGroups_region (hsupported : supportedRegions.contains region = true) :
    cloud.subnetGroupRegion region = cloud.readRegion cloud.getSubnetGroups
      (fun obj region => pure (subnetGroupMapper obj region)) region :=
  if_neg (by rw [hsupported]; decide)

include h in
theorem subnetGroup_accounts {x : String} (hread : cloud.subnetGroupRead c = (.returned out, d))
    (hx : (Resource.subnetGroup region x).ExistsThroughout cloud c d) :
    Accounts out (generateId [x, region]) ((Resource.subnetGroup region x).InReach cloud c) := by
  obtain ⟨hregion, hexists⟩ := hx
  obtain ⟨hne, hplain, o, v, hbody, hstart, hend, hcount⟩ := inRegions_first h
    (kept_forward h).subnetGroupRegion hread (hregion region rfl)
  have hids : ∀ r, r ≠ "" → ∀ u o v, cloud.subnetGroupRegion r u = (.returned o, v) →
      ∀ e ∈ o, ∃ n, e.entityId = generateId [n, r] := by
    intro r hr u o v hbody e he
    cases hsupported : supportedRegions.contains r with
    | false =>
      have hnothing : cloud.subnetGroupRegion r u = (.returned [], u) := by
        rw [Cloud.subnetGroupRegion, hsupported]
        rfl
      rw [hnothing] at hbody
      cases hbody
      cases he
    | true =>
      rw [getSubnetGroups_region hsupported] at hbody
      obtain ⟨rfl, -⟩ := firstPage_returned h hbody
      exact id_of_entries subnetGroupMapper_names hr (held_shown _ none) he
  have hnow : cloud.now c ≤ cloud.now d :=
    Frame.rel_of_eq ((kept_forward h).inRegions (kept_forward h).subnetGroupRegion) hread
  obtain ⟨hsupported, -⟩ := hexists _ (Nat.le_refl _) hnow
  rw [getSubnetGroups_region hsupported] at hbody
  obtain ⟨rfl, hmoved⟩ := firstPage_returned h hbody
  refine (accounts_firstPage subnetGroupMapper_names hne hplain fun sg hsg => ?_).of_countP
    (hcount hids x)
  obtain ⟨-, sg', hheld, hname, harn⟩ := hexists _ hstart (by omega)
  obtain rfl := Option.some.inj (hsg.symm.trans hheld)
  have hx : truthy sg.name = true := by
    simp [truthy, hname, ((cloud.subnetGroups region).entries hheld).2.1]
  simp [subnetGroupMapper, harn, hx]

end Alarms

section Tables

variable {W : Type} {cloud : Cloud W} (h : Faithful cloud) {c d u v w : Context W Entity}
  {out o : List Entity} {region : String}

theorem getTable_returned {name : String} {st st' : Store W} {table : Option TableDescription}
    (hrun : cloud.getTable region name st = (.returned table, st')) :
    table = (cloud.tables region).held (cloud.clock.now st.world) name ∧
      cloud.clock.now st'.world = cloud.clock.now st.world + 1 := by
  obtain ⟨hanswer, rfl⟩ := call_returned hrun
  refine ⟨?_, cloud.clock.now_tick _⟩
  split at hanswer
  · cases hanswer
  · split at hanswer
    · next hheld => rw [hheld]; exact (Except.ok.inj hanswer).symm
    · next hgone =>
      split at hanswer
      · cases hanswer
      · rw [hgone]
        exact (Except.ok.inj hanswer).symm

-- the tables described, up to the first one that is answered without a table
structure Described (cloud : Cloud W) (region : String) (t u : Nat) (names : List String)
    (described : List (String × TableDescription)) : Prop where
  held : Held (cloud.tables region) described
  named : ∀ p ∈ described, (dynamoBody p.2 region).isSome = true
  there : ∀ (i : Nat) (n : String), (described.map Prod.fst)[i]? = some n →
    ((cloud.tables region).held (t + i) n).isSome = true
  stops : described.map Prod.fst = names ∨ ∃ n rest, names = described.map Prod.fst ++ n :: rest ∧
    (cloud.tables region).held (t + described.length) n = none ∧ t + described.length < u

theorem dynamoMapper_returned {σ : Type} {table : TableDescription} {body : Body} {s t : σ}
    (hrun : dynamoMapper table region s = (.returned body, t)) :
    dynamoBody table region = some body ∧ s = t := by
  cases hbody : dynamoBody table region with
  | none =>
    rw [dynamoMapper, hbody] at hrun
    cases hrun
  | some b =>
    rw [dynamoMapper, hbody] at hrun
    cases hrun
    exact ⟨rfl, rfl⟩

theorem describeTables_returned {names : List String}
    (hrun : cloud.describeTables region names w = (.returned o, v)) :
    cloud.now w ≤ cloud.now v ∧ ∃ described,
      Described cloud region (cloud.now w) (cloud.now v) names described ∧
        o = described.flatMap (recordsOf dynamoBody region) := by
  induction names generalizing w o with
  | nil =>
    cases hrun
    refine ⟨Nat.le_refl _, [], ⟨?_, ?_, ?_, .inl rfl⟩, rfl⟩ <;> simp [Held]
  | cons name names ih =>
    obtain ⟨table, w₁, hget, hrest⟩ := bind_returned_inv hrun
    obtain ⟨htable, rfl⟩ : (cloud.getTable region name w.store).1 = .returned table ∧
        { w with store := (cloud.getTable region name w.store).2 } = w₁ := Prod.mk.inj hget
    obtain ⟨hheld, hmoved⟩ := getTable_returned (run_eq htable)
    cases table with
    | none =>
      cases hrest
      have hlt : cloud.now w < cloud.now
          { w with store := (cloud.getTable region name w.store).2 } := by
        change cloud.clock.now w.store.world <
          cloud.clock.now (cloud.getTable region name w.store).2.world
        omega
      refine ⟨Nat.le_of_lt hlt, [], ⟨?_, ?_, ?_, .inr ⟨name, names, rfl, hheld.symm, hlt⟩⟩, rfl⟩ <;>
        simp [Held]
    | some table =>
      obtain ⟨body, w₂, hmapper, hrest⟩ := bind_returned_inv hrest
      obtain ⟨rest, w₃, htables, hpure⟩ := bind_returned_inv hrest
      cases hpure
      obtain ⟨hbody, rfl⟩ := dynamoMapper_returned hmapper
      obtain ⟨hle, described, hd, rfl⟩ := ih htables
      have hnow : cloud.now { w with store := (cloud.getTable region name w.store).2 } =
          cloud.now w + 1 := hmoved
      rw [hnow] at hle hd
      refine ⟨by omega, (name, table) :: described, ⟨?_, ?_, ?_, ?_⟩, ?_⟩
      · intro p hp
        rcases List.mem_cons.mp hp with rfl | hp
        · exact ⟨_, hheld.symm⟩
        · exact hd.held p hp
      · intro p hp
        rcases List.mem_cons.mp hp with rfl | hp
        · rw [hbody]
          rfl
        · exact hd.named p hp
      · intro i n hi
        cases i with
        | zero =>
          obtain rfl := Option.some.inj hi
          exact Option.isSome_iff_exists.mpr ⟨table, hheld.symm⟩
        | succ i =>
          have hthere := hd.there i n (by simpa using hi)
          rwa [Nat.add_right_comm] at hthere
      · rcases hd.stops with hall | ⟨n, rest, hsplit, hgone, hlt⟩
        · exact .inl (by rw [List.map_cons, hall])
        · refine .inr ⟨n, rest, by rw [hsplit]; rfl, ?_, ?_⟩
          · rw [List.length_cons, ← Nat.add_assoc, Nat.add_right_comm]
            exact hgone
          · rw [List.length_cons]
            omega
      · rw [List.flatMap_cons, recordsOf_some hbody]
        rfl

include h in
theorem tableRegion_returned (hrun : cloud.tableRegion region u = (.returned o, v)) :
    ∃ listed t described, (cloud.tables region).collect cloud.fuel (cloud.now u) none =
        some (listed, t) ∧ cloud.now u < t ∧ t ≤ cloud.now v ∧
      Described cloud region t (cloud.now v) (listed.map Prod.fst) described ∧
        o = described.flatMap (recordsOf dynamoBody region) := by
  obtain ⟨_, u₁, hclient, hrest⟩ := bind_returned_inv hrun
  obtain ⟨names, u₂, hnames, hdescribe⟩ := bind_returned_inv hrest
  have hnow : cloud.now u₁ = cloud.now u := by
    obtain ⟨-, rfl⟩ := Prod.mk.inj hclient
    exact h.stillClient _ u.store
  obtain ⟨hlist, rfl⟩ : (cloud.listTables region u₁.store).1 = .returned names ∧
      { u₁ with store := (cloud.listTables region u₁.store).2 } = u₂ := Prod.mk.inj hnames
  obtain ⟨listed, hcollect, rfl⟩ := paginate_returned (run_eq hlist)
  obtain ⟨hle, described, hd, rfl⟩ := describeTables_returned hdescribe
  have hstart : cloud.clock.now u₁.store.world = cloud.now u := hnow
  rw [hstart] at hcollect
  exact ⟨listed, _, described, hcollect, (Shelf.collect_complete hcollect).moves, hle, hd, rfl⟩

theorem not_mem_of_nodup_split {α : Type} {xs before rest : List α} {x : α} (h : xs.Nodup)
    (hsplit : xs = before ++ x :: rest) : x ∉ before := by
  rw [hsplit, List.nodup_append] at h
  exact fun hmem => h.2.2 x hmem x (by simp) rfl

theorem mem_described_iff {names : List String} {described : List (String × TableDescription)}
    {t T : Nat} {x : String} (hd : Described cloud region t T names described)
    (hnodup : names.Nodup) (hx : x ∈ names)
    (hexists : ∀ s, t ≤ s → s < T → ((cloud.tables region).held s x).isSome = true) :
    x ∈ described.map Prod.fst ↔ ∀ before rest, names = before ++ x :: rest →
      ∀ (i : Nat) (n : String), before[i]? = some n →
        ((cloud.tables region).held (t + i) n).isSome = true := by
  constructor
  · intro hmem before rest hsplit i n hi
    obtain ⟨tail, htail⟩ : ∃ tail, names = described.map Prod.fst ++ tail := by
      rcases hd.stops with hall | ⟨m, rest', hsplit', -, -⟩
      · exact ⟨[], by rw [hall, List.append_nil]⟩
      · exact ⟨_, hsplit'⟩
    obtain ⟨front, back, hfront⟩ := List.append_of_mem hmem
    have hsame : names = front ++ x :: (back ++ tail) := by rw [htail, hfront]; simp
    have hbefore : before = front :=
      (append_cons_inj_left (not_mem_of_nodup_split hnodup hsplit)
        (not_mem_of_nodup_split hnodup hsame) (hsplit.symm.trans hsame)).1
    refine hd.there i n ?_
    rw [hfront, List.getElem?_append_left (by rw [← hbefore]; exact (List.getElem?_eq_some_iff.mp hi).1),
      ← hbefore]
    exact hi
  · intro hreach
    rcases hd.stops with hall | ⟨n, rest, hsplit, hgone, hlt⟩
    · rwa [hall]
    · by_contra hnot
      rw [hsplit, List.mem_append, List.mem_cons] at hx
      rcases hx with hx | rfl | hx
      · exact hnot hx
      · have hthere := hexists _ (Nat.le_add_right t _) hlt
        rw [hgone] at hthere
        cases hthere
      · obtain ⟨mid, rest', rfl⟩ := List.append_of_mem hx
        have hthere := hreach (described.map Prod.fst ++ n :: mid) rest' (by rw [hsplit]; simp)
          described.length n (by simp)
        rw [hgone] at hthere
        cases hthere

include h in
theorem dynamoTable_accounts {x : String} (hread : cloud.dynamoTableRead c = (.returned out, d))
    (hx : (Resource.dynamoTable region x).ExistsThroughout cloud c d) :
    Accounts out (generateId [x, region]) ((Resource.dynamoTable region x).InReach cloud c) := by
  obtain ⟨hregion, hexists⟩ := hx
  obtain ⟨hne, hplain, o, v, hbody, hstart, hend, hcount⟩ := inRegions_first h
    (kept_forward h).tableRegion hread (hregion region rfl)
  have hids : ∀ r, r ≠ "" → ∀ u o v, cloud.tableRegion r u = (.returned o, v) →
      ∀ e ∈ o, ∃ n, e.entityId = generateId [n, r] := by
    intro r hr u o v hbody e he
    obtain ⟨_, _, described, _, _, _, hd, rfl⟩ := tableRegion_returned h hbody
    exact id_of_entries dynamoBody_names hr hd.held he
  obtain ⟨listed, t, described, hcollect, hlt, hle, hd, rfl⟩ := tableRegion_returned h hbody
  have hcomplete := Shelf.collect_complete hcollect
  have hthere : ∀ s, cloud.now c ≤ s → s ≤ cloud.now d →
      ((cloud.tables region).held s x).isSome = true := by
    intro s hle hle'
    obtain ⟨table, hheld, -⟩ := hexists s hle hle'
    exact Option.isSome_iff_exists.mpr ⟨table, hheld⟩
  have hlisted : x ∈ listed.map Prod.fst := by
    obtain ⟨table, hheld, -⟩ := hexists (cloud.now c) (Nat.le_refl _) (by omega)
    exact hcomplete.every x ((cloud.tables region).entries hheld).1 fun s hle hlt =>
      hthere s (by omega) (by omega)
  have hnodup : (described.map Prod.fst).Nodup := by
    rcases hd.stops with hall | ⟨n, rest, hsplit, -, -⟩
    · rw [hall]
      exact hcomplete.nodup
    · exact (hsplit ▸ List.sublist_append_left _ _).nodup hcomplete.nodup
  refine ((accounts_entries dynamoBody_names hne hd.held hnodup hplain fun table hmem =>
    hd.named _ hmem).of_countP (hcount hids x)).congr ?_
  rw [mem_described_iff hd hcomplete.nodup hlisted fun s hle hlt => hthere s (by omega) (by omega)]
  constructor
  · intro hreach listed' t' before rest hcollect' hsplit
    obtain ⟨rfl, rfl⟩ := Prod.mk.inj (Option.some.inj (hcollect.symm.trans hcollect'))
    exact hreach before rest hsplit
  · intro hreach before rest hsplit
    exact hreach listed t before rest hcollect hsplit

end Tables

end Iasql.Aws
