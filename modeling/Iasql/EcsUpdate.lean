import Iasql.Calculus.Runs
import Iasql.EcsBlocks
import Iasql.EcsRoundTrip

namespace Iasql.EcsSimplified

open Runs

section Statements

-- the tables and the rows of ecs_simplified
structure Sys where
  db : Db
  apps : List EcsSimplified

inductive Action where
  | insert (new : EcsSimplified)
  | commit (cloud : Cloud)
  | update (old new : EcsSimplified)

namespace Sys

def fresh (regions : List String) (seq : Nat) : Sys := { db := dbOf regions seq [], apps := [] }

def insert (new : EcsSimplified) (sys : Sys) : Option Sys := do
  let apps ← insertUnique (fun r => r.appName = new.appName) new sys.apps
  let db ← insertEcsSimplified new sys.db
  return { db, apps }

def commit (cloud : Cloud) (sys : Sys) : Option Sys := do
  let apps ← syncEcsSimplified (sys.db.fill cloud)
  return { db := sys.db.fill cloud, apps }

-- the primary key and the guard on the region, then the trigger
def update (old new : EcsSimplified) (sys : Sys) : Option Sys :=
  if old ∈ sys.apps ∧ new.region = old.region ∧
      ∀ r ∈ sys.apps, r.appName = new.appName → r.appName = old.appName then do
    let db ← deleteEcsSimplified old sys.db
    let db ← insertEcsSimplified new db
    return { db, apps := sys.apps.map fun r => if r.appName = old.appName then new else r }
  else none

def step (sys : Sys) : Action → Option Sys
  | .insert new => sys.insert new
  | .commit cloud => sys.commit cloud
  | .update old new => sys.update old new

end Sys

end Statements

section Images

structure ImageRef where
  image : Option String
  tag : Option String
  digest : Option String
  repository : Option (String × String)
  publicRepositoryName : Option String
deriving DecidableEq

def imageOf (db : Db) (c : ContainerDefinition) : ImageRef where
  image := c.image
  tag := c.tag
  digest := c.digest
  repository := (db.repositories.find? fun r =>
    sqlEq (some r.id) c.repositoryId ∧ r.region = c.region).map fun r => (r.repositoryName, r.region)
  publicRepositoryName := c.publicRepositoryName

def containersOf (app : String) (db : Db) : List ContainerDefinition :=
  db.containerDefinitions.filter fun c =>
    db.taskDefinitions.any fun t => sqlEq c.taskDefinitionId (some t.id) ∧ t.family = app ++ "-td"

-- a repository up to its id
def repositoryRow (r : Repository) : String × Option String × String :=
  (r.repositoryName, r.repositoryUri, r.region)

def KeepsRepository (old new : EcsSimplified) (db db' : Db) : Prop :=
  (db'.repositories.map repositoryRow).Perm (db.repositories.map repositoryRow) ∧
    (containersOf new.appName db').map (imageOf db') =
      (containersOf old.appName db).map (imageOf db)

def SameImage (old new : EcsSimplified) : Prop :=
  new.repositoryUri = old.repositoryUri ∧ new.imageTag = old.imageTag ∧
    new.imageDigest = old.imageDigest

-- the row still says where the app's image comes from
def Replaceable (old new : EcsSimplified) (db : Db) : Prop :=
  match old.repositoryUri with
  | none => new.appName = old.appName
  | some _ => (∀ r ∈ db.repositories, r.repositoryName ≠ old.appName ++ "-repository") ∧
      ∀ c ∈ containersOf old.appName db, c.digest = old.imageDigest

-- a service is read back under the name its app has
def PlainNames (sys : Sys) : Action → Prop
  | .commit _ => ∀ s ∈ sys.db.services, splitPart s.name ++ "-service" = s.name
  | _ => True

def Reached : Sys → Prop :=
  RunFrom (fun sys => ∃ regions seq, sys = Sys.fresh regions seq)
    (fun sys action sys' => sys.step action = some sys') PlainNames

end Images

section Reading

variable {regions : List String} {seq : Nat} {blocks : List Block} {a b : Block}
  {new old r : EcsSimplified}

-- what a row of ecs_simplified knows of its app
structure Reads (r : EcsSimplified) (b : Block) : Prop where
  appName : r.appName = b.row.appName
  region : r.region = b.row.region
  repositoryUri : r.repositoryUri =
    if createsRepository b.row then b.repositoryUri else b.row.repositoryUri
  imageTag : createsRepository b.row = false → r.imageTag = b.row.imageTag
  imageDigest : r.imageDigest = none ∨ r.imageDigest = b.row.imageDigest

theorem reads_block (new : EcsSimplified) (n : Nat) : Reads new (new.block n) where
  appName := rfl
  region := rfl
  repositoryUri := by
    split
    · next hcreates => exact (createsRepository_iff.mp hcreates).1
    · rfl
  imageTag := fun _ => rfl
  imageDigest := .inr rfl

theorem appPort_block (h : Laid seq blocks) (hb : b ∈ blocks) :
    (dbOf regions seq blocks).appPort (b.row.ownService b.base) = some b.row.appPort := by
  unfold Db.appPort dbOf
  rw [Blocks.find?_flatMap_one h.nodup hb]
  · simp [Block.rows, EcsSimplified.rows, EcsSimplified.ownService, sqlEq]
  · intro a ha
    refine List.forall_mem_singleton.mpr fun hmatch => ?_
    have hid : a.base + 3 = b.base + 3 := of_decide_eq_true (of_decide_eq_true hmatch).1
    exact h.base_inj ha hb (by omega)

theorem container_block (h : Laid seq blocks) (hb : b ∈ blocks) :
    (dbOf regions seq blocks).container (b.row.ownService b.base) (some b.row.appPort) =
      some (b.row.ownContainer b.base) := by
  unfold Db.container dbOf
  rw [Blocks.find?_flatMap_one h.nodup hb]
  · simp [Block.rows, EcsSimplified.rows, EcsSimplified.ownService, EcsSimplified.ownContainer,
      sqlEq]
  · intro a ha
    refine List.forall_mem_singleton.mpr fun hmatch => ?_
    have hid : a.base + 8 = b.base + 8 := of_decide_eq_true (of_decide_eq_true hmatch).1
    exact h.base_inj ha hb (by omega)

theorem ownContainer_repositoryId (hcreates : createsRepository new = true) (n : Nat) :
    (new.ownContainer n).repositoryId = some (n + 9) := if_pos hcreates

theorem ownContainer_noRepository (hcreates : createsRepository new = false) (n : Nat) :
    (new.ownContainer n).repositoryId = none := if_neg (Bool.eq_false_iff.mp hcreates)

theorem repositories_of_id (regions : List String) (h : Laid seq blocks) (hb : b ∈ blocks)
    (hcreates : createsRepository b.row = true) :
    (dbOf regions seq blocks).repositories.filter (fun r =>
      sqlEq (some r.id) (some (b.base + 9)) ∧ r.region = b.row.region) = [b.repository] := by
  have hown : b.rows.repositories = [b.repository] := if_pos hcreates
  unfold dbOf
  rw [Blocks.filter_flatMap_one h.nodup hb, hown]
  · simp [Block.repository, sqlEq]
  · intro a ha r hr hmatch
    have hid : r.id = b.base + 9 := of_decide_eq_true (of_decide_eq_true hmatch).1
    rw [(Block.eq_repository hr).2] at hid
    exact h.base_inj ha hb (Nat.add_right_cancel hid)

theorem repositoryName_block (h : Laid seq blocks) (hb : b ∈ blocks) :
    (dbOf regions seq blocks).repositoryName (b.row.ownService b.base)
        (some (b.row.ownContainer b.base)) =
      some (if createsRepository b.row then some (b.row.appName ++ "-repository") else none) := by
  unfold Db.repositoryName
  dsimp only
  cases hcreates : createsRepository b.row with
  | true =>
    have hfound := repositories_of_id regions h hb hcreates
    rw [ownContainer_repositoryId hcreates]
    rw [show (b.row.ownService b.base).region = b.row.region from rfl, hfound]
    rfl
  | false => simp [ownContainer_noRepository hcreates, sqlEq_none, scalar]

theorem repositoryUri_block (h : Laid seq blocks) (hb : b ∈ blocks) :
    (dbOf regions seq blocks).repositoryUri (b.row.ownService b.base)
        (if createsRepository b.row then some (b.row.appName ++ "-repository") else none)
        (some (b.row.ownContainer b.base)) =
      if createsRepository b.row then b.repositoryUri else b.row.repositoryUri := by
  cases hcreates : createsRepository b.row with
  | true =>
    have hown : b.rows.repositories = [b.repository] := if_pos hcreates
    rw [if_pos rfl, if_pos rfl]
    unfold Db.repositoryUri dbOf
    dsimp only
    rw [Blocks.find?_flatMap_one h.nodup hb, hown]
    · simp [Block.repository, EcsSimplified.ownService]
    · intro a ha r hr hmatch
      have hname := (of_decide_eq_true hmatch).1
      rw [(Block.eq_repository hr).2] at hname
      exact h.name_inj ha hb ((String.append_left_inj _).mp hname)
  | false => rfl

theorem reads_of_sync (h : Laid seq blocks)
    (hplain : ∀ s ∈ (dbOf regions seq blocks).services, splitPart s.name ++ "-service" = s.name)
    {rows : List EcsSimplified} (hsync : syncEcsSimplified (dbOf regions seq blocks) = some rows)
    (hr : r ∈ rows) : ∃ b ∈ blocks, Reads r b := by
  obtain ⟨s, hs, app, happ, hrow⟩ := mem_sync hsync hr
  have hname := hplain s hs
  obtain ⟨b, hb, hmem⟩ := List.mem_flatMap.mp hs
  obtain rfl := List.mem_singleton.mp hmem
  obtain ⟨hport, hregion, htag, name, hrepository, huri⟩ := appOf_image happ
  rw [appPort_block h hb, container_block h hb] at htag huri hrepository
  obtain rfl := Option.some.inj ((repositoryName_block h hb).symm.trans hrepository)
  rw [repositoryUri_block h hb] at huri
  obtain ⟨hregion', huri', htag', hdigest⟩ := toRow_image hrow
  have hown : splitPart (b.row.ownService b.base).name = b.row.appName :=
    (String.append_left_inj "-service").mp hname
  refine ⟨b, hb, ?_, hregion'.trans hregion, huri'.trans huri, fun hcreates => ?_, .inl hdigest⟩
  · have hfits := toRow_appName hrow
    rw [(appOf_fields happ).1, hown, varchar18_eq_self b.row.appName_length] at hfits
    exact (Option.some.inj hfits).symm
  · rw [htag', htag]
    exact if_neg (Bool.eq_false_iff.mp hcreates)

end Reading

section Invariant

variable {sys sys' : Sys} {blocks : List Block} {new old : EcsSimplified} {cloud : Cloud}

-- the tables are those of some apps, each row of ecs_simplified knows one of them
structure Tracked (sys : Sys) (blocks : List Block) : Prop where
  tables : ∃ regions seq, sys.db = dbOf regions seq blocks ∧ Laid seq blocks
  names : sys.apps.Pairwise fun a b => a.appName ≠ b.appName
  reads : ∀ r ∈ sys.apps, ∃ b ∈ blocks, Reads r b

theorem tracked_fresh (regions : List String) (seq : Nat) :
    Tracked (Sys.fresh regions seq) [] where
  tables := ⟨regions, seq, rfl, laid_nil⟩
  names := .nil
  reads := List.forall_mem_nil _

theorem tracked_insert (h : Tracked sys blocks) (hstep : sys.insert new = some sys') :
    ∃ blocks', Tracked sys' blocks' := by
  obtain ⟨regions, seq, hdb, hlaid⟩ := h.tables
  obtain ⟨apps, happs, hstep⟩ := Option.bind_eq_some_iff.mp hstep
  obtain ⟨db, hinsert, hstep⟩ := Option.bind_eq_some_iff.mp hstep
  cases hstep
  rw [hdb] at hinsert
  obtain ⟨hlaid', rfl⟩ := insert_dbOf hlaid hinsert
  obtain ⟨rfl, hfree⟩ := insertUnique_eq_some_iff.mp happs
  refine ⟨blocks ++ [new.block seq], ⟨regions, _, rfl, hlaid'⟩, ?_, fun r hr => ?_⟩
  · refine List.pairwise_append.mpr ⟨h.names, List.pairwise_singleton _ _, fun r hr a ha => ?_⟩
    obtain rfl := List.mem_singleton.mp ha
    exact of_decide_eq_false (hfree r hr)
  · obtain hr | hr := List.mem_append.mp hr
    · obtain ⟨b, hb, hreads⟩ := h.reads r hr
      exact ⟨b, List.mem_append_left _ hb, hreads⟩
    · obtain rfl := List.mem_singleton.mp hr
      exact ⟨r.block seq, by simp, reads_block r seq⟩

theorem tracked_commit (h : Tracked sys blocks)
    (hplain : ∀ s ∈ sys.db.services, splitPart s.name ++ "-service" = s.name)
    (hstep : sys.commit cloud = some sys') : ∃ blocks', Tracked sys' blocks' := by
  obtain ⟨regions, seq, hdb, hlaid⟩ := h.tables
  obtain ⟨apps, hsync, hstep⟩ := Option.bind_eq_some_iff.mp hstep
  cases hstep
  have hfill : sys.db.fill cloud = dbOf regions seq (blocks.map (·.fill cloud)) := by
    rw [hdb, dbOf_fill]
  have hservices : (sys.db.fill cloud).services = sys.db.services := rfl
  rw [← hservices, hfill] at hplain
  rw [hfill] at hsync
  have hreads : ∀ r ∈ apps, ∃ b ∈ blocks.map (·.fill cloud), Reads r b := fun r hr =>
    reads_of_sync hlaid.fill hplain hsync hr
  exact ⟨blocks.map (·.fill cloud), ⟨regions, seq, hfill, hlaid.fill⟩,
    (foldlM_syncStep_rows .nil hsync).1, hreads⟩

-- an update replaces the block of its row by a new one at the end
theorem update_dbOf (h : Tracked sys blocks) (hstep : sys.update old new = some sys') :
    ∃ regions seq, ∃ b ∈ blocks, sys.db = dbOf regions seq blocks ∧ Laid seq blocks ∧
      Reads old b ∧ new.region = old.region ∧
      (∀ r ∈ sys.apps, r.appName = new.appName → r.appName = old.appName) ∧
      sys'.db = dbOf regions (new.block seq).next (without blocks b ++ [new.block seq]) ∧
      Laid (new.block seq).next (without blocks b ++ [new.block seq]) ∧
      sys'.apps = sys.apps.map fun r => if r.appName = old.appName then new else r := by
  obtain ⟨regions, seq, hdb, hlaid⟩ := h.tables
  unfold Sys.update at hstep
  split at hstep
  · next hallowed =>
    obtain ⟨hmem, hregion, hkey⟩ := hallowed
    obtain ⟨between, hdelete, hstep⟩ := Option.bind_eq_some_iff.mp hstep
    obtain ⟨db, hinsert, hstep⟩ := Option.bind_eq_some_iff.mp hstep
    cases hstep
    obtain ⟨b, hb, hreads⟩ := h.reads old hmem
    have hrepository : old.imageDigest = none ∨ createsRepository b.row = false := by
      cases hcreates : createsRepository b.row with
      | true =>
        have hnone := (createsRepository_iff.mp hcreates).2
        exact .inl (hreads.imageDigest.elim id fun hsame => hsame.trans hnone)
      | false => exact .inr rfl
    rw [hdb] at hdelete
    obtain rfl := delete_dbOf hlaid hb hreads.appName hrepository hdelete
    obtain ⟨hlaid', rfl⟩ := insert_dbOf (hlaid.filter _) hinsert
    exact ⟨regions, seq, b, hb, hdb, hlaid, hreads, hregion, hkey, rfl, hlaid', rfl⟩
  · cases hstep

theorem tracked_update (h : Tracked sys blocks) (hstep : sys.update old new = some sys') :
    ∃ blocks', Tracked sys' blocks' := by
  obtain ⟨regions, seq, b, hb, -, -, hreads, -, hkey, hdb', hlaid', happs⟩ := update_dbOf h hstep
  refine ⟨without blocks b ++ [new.block seq], ⟨regions, _, hdb', hlaid'⟩, ?_, fun r hr => ?_⟩
  · rw [happs, List.pairwise_map]
    refine h.names.imp_of_mem fun {r t} hr ht hne => ?_
    split
    · next hold =>
      rw [if_neg fun heq => hne (hold.trans heq.symm)]
      exact fun heq => hne (hold.trans (hkey t ht heq.symm).symm)
    · next hother =>
      split
      · exact fun heq => hother (hkey r hr heq)
      · exact hne
  · rw [happs] at hr
    obtain ⟨t, ht, rfl⟩ := List.mem_map.mp hr
    split
    · exact ⟨new.block seq, by simp, reads_block new seq⟩
    · next hother =>
      obtain ⟨c, hc, hfound⟩ := h.reads t ht
      refine ⟨c, List.mem_append_left _ (mem_without.mpr ⟨hc, fun heq => hother ?_⟩), hfound⟩
      rw [hfound.appName, heq, hreads.appName]

theorem reached_tracked (h : Reached sys) : ∃ blocks, Tracked sys blocks := by
  refine RunFrom.invariant (I := fun sys => ∃ blocks, Tracked sys blocks) h ?_ ?_
  · rintro _ ⟨regions, seq, rfl⟩
    exact ⟨[], tracked_fresh regions seq⟩
  · rintro sys action sys' ⟨blocks, htracked⟩ hplain hstep
    cases action with
    | insert new => exact tracked_insert htracked hstep
    | commit cloud => exact tracked_commit htracked hplain hstep
    | update old new => exact tracked_update htracked hstep

end Invariant

section Replacement

variable {regions : List String} {seq : Nat} {blocks : List Block} {a b : Block}
  {new old r : EcsSimplified} {sys sys' : Sys}

def Block.image (b : Block) : ImageRef where
  image := b.row.repositoryUri
  tag := if createsRepository b.row then none else b.row.imageTag
  digest := b.row.imageDigest
  repository :=
    if createsRepository b.row then some (b.row.appName ++ "-repository", b.row.region) else none
  publicRepositoryName := none

theorem containersOf_block (regions : List String) (h : Laid seq blocks) (hb : b ∈ blocks) :
    containersOf b.row.appName (dbOf regions seq blocks) = [b.row.ownContainer b.base] := by
  have hown : containersOf b.row.appName (dbOf regions seq blocks) =
      (blocks.filter fun a => a.row.appName = b.row.appName).flatMap
        fun a => [a.row.ownContainer a.base] := by
    refine Blocks.filter_flatMap_eq fun a ha => List.forall_mem_singleton.mpr ?_
    rw [Bool.eq_iff_iff, decide_eq_true_iff]
    exact ofFamily_iff h ha
  rw [hown, Blocks.filter_key_eq h.names hb, List.flatMap_singleton]

theorem imageOf_block (regions : List String) (h : Laid seq blocks) (hb : b ∈ blocks) :
    imageOf (dbOf regions seq blocks) (b.row.ownContainer b.base) = b.image := by
  unfold imageOf Block.image
  cases hcreates : createsRepository b.row with
  | true =>
    have hfound := repositories_of_id regions h hb hcreates
    rw [ownContainer_repositoryId hcreates, ← List.head?_filter,
      show (b.row.ownContainer b.base).region = b.row.region from rfl, hfound]
    simp [EcsSimplified.ownContainer, hcreates, Block.repository]
  | false =>
    rw [ownContainer_noRepository hcreates]
    simp [EcsSimplified.ownContainer, hcreates, sqlEq_none]

theorem repositories_perm (regions : List String) (h : Laid seq blocks) (hb : b ∈ blocks) :
    (((dbOf regions seq blocks).repositories).map repositoryRow).Perm
      (b.repositories.map repositoryRow ++
        ((without blocks b).flatMap (·.repositories)).map repositoryRow) := by
  have hperm := (Blocks.perm_cons_filter h.names hb).flatMap_right (·.repositories)
  rw [List.flatMap_cons] at hperm
  rw [← List.map_append]
  exact hperm.map repositoryRow

theorem eq_of_perm_short {α : Type} {l m : List α} (hl : l.length ≤ 1) (h : l.Perm m) : l = m := by
  match l with
  | [] => exact (List.nil_perm.mp h).symm
  | [a] => exact List.singleton_perm.mp h
  | a :: c :: l => simp at hl

theorem repositories_short : b.repositories.length ≤ 1 := by
  unfold Block.repositories
  split <;> simp

-- every other block keeps its repository, so the two blocks decide
theorem keepsRepository_iff {n : Nat} (h : Laid seq blocks) (hb : b ∈ blocks)
    (hname : old.appName = b.row.appName)
    (h' : Laid n (without blocks b ++ [new.block seq])) :
    KeepsRepository old new (dbOf regions seq blocks)
        (dbOf regions n (without blocks b ++ [new.block seq])) ↔
      (new.block seq).repositories.map repositoryRow = b.repositories.map repositoryRow ∧
        (new.block seq).image = b.image := by
  have hmem : new.block seq ∈ without blocks b ++ [new.block seq] := by simp
  have hcontainers := containersOf_block regions h' hmem
  have himage := imageOf_block regions h' hmem
  unfold KeepsRepository
  rw [hname, containersOf_block _ h hb, List.map_singleton, imageOf_block _ h hb]
  rw [show new.appName = (new.block seq).row.appName from rfl, hcontainers, List.map_singleton,
    himage, List.singleton_inj]
  refine and_congr_left fun _ => ?_
  have hafter : (dbOf regions n (without blocks b ++ [new.block seq])).repositories =
      (without blocks b).flatMap (·.repositories) ++ (new.block seq).repositories := by
    show (without blocks b ++ [new.block seq]).flatMap (·.repositories) = _
    rw [List.flatMap_append, List.flatMap_singleton]
  have hbefore := repositories_perm regions h hb
  rw [hafter, List.map_append]
  constructor
  · intro hperm
    refine eq_of_perm_short (by rw [List.length_map]; exact repositories_short) ?_
    exact (List.perm_append_right_iff _).mp ((List.perm_append_comm.trans hperm).trans hbefore)
  · intro heq
    rw [heq]
    exact List.perm_append_comm.trans hbefore.symm

theorem keeps_created_iff (hreads : Reads old b) (hsame : SameImage old new)
    (hregion : new.region = old.region) (hcreates : createsRepository b.row = true)
    (huri : b.repositoryUri = none) :
    (new.block seq).repositories.map repositoryRow = b.repositories.map repositoryRow ∧
      (new.block seq).image = b.image ↔ new.appName = b.row.appName := by
  obtain ⟨hnone, hdigest⟩ := createsRepository_iff.mp hcreates
  have holdUri : new.repositoryUri = none := by
    rw [hsame.1, hreads.repositoryUri, if_pos hcreates, huri]
  have holdDigest : new.imageDigest = none := by
    rw [hsame.2.2]
    exact hreads.imageDigest.elim id fun h => h.trans hdigest
  have hnew : createsRepository new = true := createsRepository_iff.mpr ⟨holdUri, holdDigest⟩
  have hrows : (new.block seq).repositories = [(new.block seq).repository] := if_pos hnew
  have hrows' : b.repositories = [b.repository] := if_pos hcreates
  rw [hrows, hrows']
  have hregion' := hregion.trans hreads.region
  simp only [Block.image, EcsSimplified.block, hnew, hcreates, if_true, holdUri, holdDigest, hnone,
    hdigest, hregion', List.map_cons, List.map_nil, repositoryRow, Block.repository, huri,
    List.cons.injEq, and_true, Prod.mk.injEq, ImageRef.mk.injEq, true_and, Option.some.injEq,
    String.append_left_inj, and_self]

theorem keeps_given_iff (hreads : Reads old b) (hsame : SameImage old new)
    (hcreates : createsRepository b.row = false) (hgiven : imageGiven b.row = true) :
    (new.block seq).repositories.map repositoryRow = b.repositories.map repositoryRow ∧
      (new.block seq).image = b.image ↔ b.row.imageDigest = old.imageDigest := by
  have huri : new.repositoryUri = b.row.repositoryUri := by
    rw [hsame.1, hreads.repositoryUri, hcreates]
    rfl
  have hnew : createsRepository new = false := by
    have hsome := createsRepository_of_image hgiven hcreates
    rw [← huri] at hsome
    rw [createsRepository, ← Option.not_isSome, hsome]
    rfl
  have htag := hsame.2.1.trans (hreads.imageTag hcreates)
  have hrows : (new.block seq).repositories = [] := if_neg (Bool.eq_false_iff.mp hnew)
  have hrows' : b.repositories = [] := if_neg (Bool.eq_false_iff.mp hcreates)
  rw [hrows, hrows']
  simp only [Block.image, EcsSimplified.block, hnew, hcreates, huri, htag, hsame.2.2,
    ImageRef.mk.injEq, true_and, and_true, Bool.false_eq_true, if_false, List.map_nil]
  exact eq_comm

theorem not_keeps_uploaded (hreads : Reads old b) (hsame : SameImage old new)
    (hcreates : createsRepository b.row = true) {uri : String}
    (huri : b.repositoryUri = some uri) :
    (new.block seq).repositories.map repositoryRow ≠ b.repositories.map repositoryRow := by
  have hnewUri : new.repositoryUri = some uri := by
    rw [hsame.1, hreads.repositoryUri, if_pos hcreates, huri]
  have hnew : createsRepository new = false := by simp [createsRepository, hnewUri]
  have hrows : (new.block seq).repositories = [] := if_neg (Bool.eq_false_iff.mp hnew)
  have hrows' : b.repositories = [b.repository] := if_pos hcreates
  rw [hrows, hrows']
  intro hnil
  cases hnil

theorem update_keeps_repository_iff (hrun : Reached sys) (hstep : sys.update old new = some sys')
    (hsame : SameImage old new) :
    KeepsRepository old new sys.db sys'.db ↔ Replaceable old new sys.db := by
  obtain ⟨blocks, htracked⟩ := reached_tracked hrun
  obtain ⟨regions, seq, b, hb, hdb, hlaid, hreads, hregion, -, hdb', hlaid', -⟩ :=
    update_dbOf htracked hstep
  have hname := hreads.appName
  have huri := hreads.repositoryUri
  rw [hdb, hdb', keepsRepository_iff hlaid hb hname hlaid']
  unfold Replaceable
  rw [hname, containersOf_block _ hlaid hb]
  cases hcreates : createsRepository b.row with
  | true =>
    rw [hcreates, if_pos rfl] at huri
    cases hfilled : b.repositoryUri with
    | none =>
      rw [huri, hfilled]
      exact keeps_created_iff hreads hsame hregion hcreates hfilled
    | some uri =>
      rw [huri, hfilled]
      have hmem : b.repository ∈ (dbOf regions seq blocks).repositories :=
        List.mem_flatMap.mpr ⟨b, hb, by
          show b.repository ∈ b.repositories
          rw [Block.repositories, if_pos hcreates]
          exact List.mem_singleton_self _⟩
      constructor
      · exact fun h => absurd h.1 (not_keeps_uploaded hreads hsame hcreates hfilled)
      · exact fun h => absurd rfl (h.1 b.repository hmem)
  | false =>
    have hgiven := hlaid.given b hb
    obtain ⟨uri, hsome⟩ := Option.isSome_iff_exists.mp (createsRepository_of_image hgiven hcreates)
    rw [hcreates, if_neg Bool.false_ne_true, hsome] at huri
    rw [huri, keeps_given_iff hreads hsame hcreates hgiven]
    have hnone : ∀ r ∈ (dbOf regions seq blocks).repositories,
        r.repositoryName ≠ b.row.appName ++ "-repository" := by
      intro r hr heq
      obtain ⟨a, ha, hmem⟩ := List.mem_flatMap.mp hr
      obtain ⟨hown, rfl⟩ := Block.eq_repository hmem
      obtain rfl := hlaid.name_inj ha hb ((String.append_left_inj _).mp heq)
      rw [hcreates] at hown
      cases hown
    exact ⟨fun h => ⟨hnone, List.forall_mem_singleton.mpr h⟩,
      fun h => h.2 _ (List.mem_singleton_self _)⟩

theorem reached_insert {new : EcsSimplified} (himage : imageGiven new = true)
    (hregion : new.region ∈ regions) :
    Reached { db := dbOf regions (new.block seq).next [new.block seq], apps := [new] } := by
  have hinsert : insertEcsSimplified new (dbOf regions seq []) =
      some (dbOf regions (new.block seq).next [new.block seq]) := by
    rw [insertEcsSimplified_eq laid_nil.belowSeq (noRowsOf (List.forall_mem_nil _)) hregion himage]
    exact congrArg some (@dbOf_add regions seq [] new seq).symm
  have hfresh : Reached (Sys.fresh regions seq) := .start ⟨regions, seq, rfl⟩
  refine hfresh.next (a := .insert new) (show PlainNames _ (.insert new) from trivial) ?_
  simp only [Sys.step, Sys.insert, Sys.fresh, hinsert]
  rfl

end Replacement

section Runs

theorem update_block {regions : List String} {n : Nat} {b : Block} {old new : EcsSimplified}
    (himage : imageGiven new = true) (hregion : new.region ∈ regions)
    (hsame : new.region = old.region)
    (hdelete : deleteEcsSimplified old (dbOf regions n [b]) = some (dbOf regions n [])) :
    Sys.update old new { db := dbOf regions n [b], apps := [old] } =
      some { db := dbOf regions (new.block n).next [new.block n], apps := [new] } := by
  have hinsert : insertEcsSimplified new (dbOf regions n []) =
      some (dbOf regions (new.block n).next [new.block n]) := by
    rw [insertEcsSimplified_eq laid_nil.belowSeq (noRowsOf (List.forall_mem_nil _)) hregion himage]
    exact congrArg some (@dbOf_add regions n [] new n).symm
  unfold Sys.update
  rw [if_pos ⟨List.mem_singleton_self _, hsame, fun r hr _ => by rw [List.mem_singleton.mp hr]⟩]
  simp [hdelete, hinsert]

def scaled : EcsSimplified := { tagged with desiredCount := 2 }

theorem tagged_kept : KeepsRepository tagged scaled
    (dbOf ["us-east-1"] (tagged.block 1).next [tagged.block 1])
    (dbOf ["us-east-1"] (scaled.block (tagged.block 1).next).next
      [scaled.block (tagged.block 1).next]) := by
  have hrun : Reached { db := dbOf ["us-east-1"] (tagged.block 1).next [tagged.block 1],
                        apps := [tagged] } := reached_insert (by decide) (by decide)
  have hupdate : Sys.update tagged scaled
      { db := dbOf ["us-east-1"] (tagged.block 1).next [tagged.block 1], apps := [tagged] } = _ :=
    update_block (by decide) (by decide) rfl (by decide)
  exact (update_keeps_repository_iff hrun hupdate ⟨rfl, rfl, rfl⟩).mpr ⟨by decide, by decide⟩

-- an app of its own repository, as inserted and as read back once the repository has its URI
def created : EcsSimplified :=
  { tagged with repositoryUri := none, imageTag := none, validImageFields := .inl rfl }

def uploaded : EcsSimplified := { created with repositoryUri := some "1.dkr/web-repository" }

def upload : Cloud where
  repositoryUri := fun _ => some "1.dkr/web-repository"
  dnsName := fun b => b.dnsName
  revision := fun t => t.revision
  status := fun t => t.status

def uploadedBlock : Block := (created.block 1).fill upload

def rescaled : EcsSimplified := { uploaded with desiredCount := 2 }

theorem repository_lost : ∃ sys sys', Reached sys ∧ sys.update uploaded rescaled = some sys' ∧
    SameImage uploaded rescaled ∧
    sys.db.repositories.map repositoryRow =
      [("web-repository", some "1.dkr/web-repository", "us-east-1")] ∧
    sys'.db.repositories = [] ∧ ¬KeepsRepository uploaded rescaled sys.db sys'.db := by
  have hstart : Reached { db := dbOf ["us-east-1"] (created.block 1).next [created.block 1],
                          apps := [created] } := reached_insert (by decide) (by decide)
  have hinserted : Reached { db := dbOf ["us-east-1"] 13 [created.block 1], apps := [created] } :=
    hstart
  have hfill : (dbOf ["us-east-1"] 13 [created.block 1]).fill upload =
      dbOf ["us-east-1"] 13 [uploadedBlock] := dbOf_fill
  have hsync : syncEcsSimplified (dbOf ["us-east-1"] 13 [uploadedBlock]) = some [uploaded] := by
    decide
  have hcommitted : Reached { db := dbOf ["us-east-1"] 13 [uploadedBlock], apps := [uploaded] } := by
    refine hinserted.next (a := .commit upload) (show PlainNames _ (.commit upload) from ?_) ?_
    · exact List.forall_mem_singleton.mpr (by decide)
    · simp only [Sys.step, Sys.commit, hfill, hsync]
      rfl
  have hupdate : Sys.update uploaded rescaled
      { db := dbOf ["us-east-1"] 13 [uploadedBlock], apps := [uploaded] } =
      some { db := dbOf ["us-east-1"] (rescaled.block 13).next [rescaled.block 13],
             apps := [rescaled] } :=
    update_block (by decide) (by decide) rfl (by decide)
  refine ⟨_, _, hcommitted, hupdate, ⟨rfl, rfl, rfl⟩, by decide, by decide, fun hkeeps => ?_⟩
  exact absurd hkeeps.1.length_eq (by decide)

end Runs

end Iasql.EcsSimplified
