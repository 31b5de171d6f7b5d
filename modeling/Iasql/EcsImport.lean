import Mathlib.Data.List.Nodup
import Iasql.EcsSync

namespace Iasql.EcsSimplified

section Apps

variable {db : Db} {s : Service} {rows rows' : List EcsSimplified} {apps : List App} {app : App}

theorem securityGroupId_isSome
    (h : (db.services.map fun s => (s.name, s.region)).Nodup) :
    (db.securityGroupId s).isSome = true := by
  have hone : (scalar (db.services.filter fun t =>
      t.name = s.name ∧ t.region = s.region)).isSome = true := by
    refine scalar_isSome_iff.mpr (filter_length_le_one ?_)
    refine (List.pairwise_map.mp h).imp fun hne hboth => hne ?_
    simp only [decide_eq_true_eq] at hboth
    exact Prod.ext (hboth.1.1.trans hboth.2.1.symm) (hboth.1.2.trans hboth.2.2.symm)
  obtain ⟨service, hservice⟩ := Option.isSome_iff_exists.mp hone
  rw [Db.securityGroupId, hservice]
  rfl

theorem repositoryName_isSome (h : (db.repositories.map (·.id)).Nodup)
    (c : Option ContainerDefinition) : (db.repositoryName s c).isSome = true := by
  cases c with
  | none => rfl
  | some c =>
    have hone : (scalar (db.repositories.filter fun r =>
        sqlEq (some r.id) c.repositoryId ∧ r.region = s.region)).isSome = true := by
      refine scalar_isSome_iff.mpr (filter_length_le_one ?_)
      refine (List.pairwise_map.mp h).imp fun hne hboth => hne ?_
      cases hid : c.repositoryId with
      | none => simp [hid, sqlEq] at hboth
      | some id =>
        simp only [hid, sqlEq, decide_eq_true_eq] at hboth
        exact hboth.1.1.trans hboth.2.1.symm
    obtain ⟨repository, hrepository⟩ := Option.isSome_iff_exists.mp hone
    simp only [Db.repositoryName, hrepository]
    rfl

theorem appOf_isSome (hservices : (db.services.map fun s => (s.name, s.region)).Nodup)
    (hrepositories : (db.repositories.map (·.id)).Nodup) : (db.appOf s).isSome = true := by
  obtain ⟨group, hgroup⟩ := Option.isSome_iff_exists.mp (securityGroupId_isSome (s := s) hservices)
  obtain ⟨name, hname⟩ := Option.isSome_iff_exists.mp
    (repositoryName_isSome (s := s) hrepositories (db.container s (db.appPort s)))
  unfold Db.appOf
  simp only [hgroup, hname, Option.bind_eq_bind, Option.bind_some]
  split
  · split <;> rfl
  · rfl

-- what the filters of the loop let through
def Db.IsApp (db : Db) (s : Service) : Prop := ∃ app, db.appOf s = some (some app)

theorem appOf_fields (h : db.appOf s = some (some app)) :
    app.appName = splitPart s.name ∧
      app.cpuMem = (db.cpuMemory s).getD (getCpuMemEnumFromParts
        ((db.container s (db.appPort s)).bind (·.cpu))
        ((db.container s (db.appPort s)).bind (·.memory))) := by
  unfold Db.appOf at h
  simp only [Option.bind_eq_bind, Option.bind_eq_some_iff] at h
  obtain ⟨group, -, name, -, h⟩ := h
  split at h
  · split at h
    · cases h
      exact ⟨rfl, rfl⟩
    · cases h
  · cases h

theorem appOf_image (h : db.appOf s = some (some app)) :
    db.appPort s = some app.appPort ∧ app.region = s.region ∧
      app.imageTag = (db.container s (db.appPort s)).bind (·.tag) ∧
      ∃ name, db.repositoryName s (db.container s (db.appPort s)) = some name ∧
        app.repositoryUri = db.repositoryUri s name (db.container s (db.appPort s)) := by
  unfold Db.appOf at h
  simp only [Option.bind_eq_bind, Option.bind_eq_some_iff] at h
  obtain ⟨group, -, name, hname, h⟩ := h
  split at h
  · next hport =>
    split at h
    · cases h
      exact ⟨hport, rfl, rfl, name, hname, rfl⟩
    · cases h
  · cases h

end Apps

section Loop

variable {db : Db} {rows : List EcsSimplified} {apps : List App} {app : App}
  {services : List Service}

def insertApp (rows : List EcsSimplified) (app : App) : Option (List EcsSimplified) := do
  let row ← app.toRow
  insertUnique (fun r => r.appName = row.appName) row rows

theorem foldlM_syncStep (h : ∀ s ∈ services, (db.appOf s).isSome = true) :
    services.foldlM (syncStep db) rows =
      (services.filterMap fun s => (db.appOf s).join).foldlM insertApp rows := by
  induction services generalizing rows with
  | nil => rfl
  | cons s services ih =>
    obtain ⟨found, hfound⟩ := Option.isSome_iff_exists.mp (h s List.mem_cons_self)
    have hrest : ∀ rows, services.foldlM (syncStep db) rows =
        (services.filterMap fun s => (db.appOf s).join).foldlM insertApp rows :=
      fun rows => ih fun t ht => h t (List.mem_cons_of_mem s ht)
    rw [List.foldlM_cons]
    cases found with
    | none =>
      rw [List.filterMap_cons_none (by rw [hfound]; rfl), ← hrest]
      simp [syncStep, hfound]
    | some app =>
      rw [List.filterMap_cons_some (by rw [hfound]; rfl), List.foldlM_cons]
      have hstep : syncStep db rows s = insertApp rows app := by
        rw [syncStep, hfound]
        rfl
      rw [hstep]
      exact bind_congr hrest

theorem toRow_appName {row : EcsSimplified} (h : app.toRow = some row) :
    varchar18 app.appName = some row.appName := by
  unfold App.toRow at h
  split at h
  · cases h
  · split at h
    · cases h
    · next hname =>
      cases h
      exact hname

theorem toRow_image {row : EcsSimplified} (h : app.toRow = some row) :
    row.region = app.region ∧ row.repositoryUri = app.repositoryUri ∧
      row.imageTag = app.imageTag ∧ row.imageDigest = none := by
  unfold App.toRow at h
  split at h
  · cases h
  · split at h
    · cases h
    · cases h
      exact ⟨rfl, rfl, rfl, rfl⟩

theorem toRow_isSome_iff : app.toRow.isSome = true ↔
    (CpuMemory.ofLabel app.cpuMem).isSome = true ∧ (varchar18 app.appName).isSome = true := by
  unfold App.toRow
  split
  · next hlabel => simp [hlabel]
  · next hlabel =>
    split
    · next hname => simp [hname]
    · next hname => simp [hlabel, hname]

theorem insertApp_eq_some_iff {rows' : List EcsSimplified} : insertApp rows app = some rows' ↔
    ∃ row, app.toRow = some row ∧ (∀ r ∈ rows, r.appName ≠ row.appName) ∧
      rows' = rows ++ [row] := by
  unfold insertApp insertUnique
  simp only [Option.bind_eq_bind, Option.bind_eq_some_iff]
  refine exists_congr fun row => and_congr_right fun _ => ?_
  split
  · next hclash =>
    obtain ⟨r, hr, heq⟩ := List.any_eq_true.mp hclash
    constructor
    · exact nofun
    · exact fun h => absurd (of_decide_eq_true heq) (h.1 r hr)
  · next hfree =>
    have hnone : ∀ r ∈ rows, r.appName ≠ row.appName := by
      intro r hr heq
      exact hfree (List.any_eq_true.mpr ⟨r, hr, decide_eq_true heq⟩)
    constructor
    · intro h
      cases h
      exact ⟨hnone, rfl⟩
    · rintro ⟨-, rfl⟩
      rfl

theorem syncStep_eq_some {s : Service} {rows' : List EcsSimplified}
    (h : syncStep db rows s = some rows') : rows' = rows ∨ ∃ app row, db.appOf s = some (some app) ∧
      app.toRow = some row ∧ (∀ r ∈ rows, r.appName ≠ row.appName) ∧ rows' = rows ++ [row] := by
  obtain ⟨found, hfound, h⟩ := Option.bind_eq_some_iff.mp h
  cases found with
  | none => exact .inl (Option.some.inj h).symm
  | some app =>
    obtain ⟨row, hrow, hnew, rfl⟩ := insertApp_eq_some_iff.mp h
    exact .inr ⟨app, row, hfound, hrow, hnew, rfl⟩

-- whatever the services: the names differ and every row is some service's app
theorem foldlM_syncStep_rows {rows' : List EcsSimplified}
    (hdistinct : rows.Pairwise fun a b => a.appName ≠ b.appName)
    (h : services.foldlM (syncStep db) rows = some rows') :
    (rows'.Pairwise fun a b => a.appName ≠ b.appName) ∧ ∀ r ∈ rows', r ∈ rows ∨
      ∃ s ∈ services, ∃ app, db.appOf s = some (some app) ∧ app.toRow = some r := by
  induction services generalizing rows with
  | nil =>
    obtain rfl : rows = rows' := Option.some.inj h
    exact ⟨hdistinct, fun r hr => .inl hr⟩
  | cons s services ih =>
    rw [List.foldlM_cons] at h
    obtain ⟨between, hstep, hrest⟩ := Option.bind_eq_some_iff.mp h
    obtain rfl | ⟨app, row, happ, hrow, hnew, rfl⟩ := syncStep_eq_some hstep
    · obtain ⟨hapart, hmem⟩ := ih hdistinct hrest
      refine ⟨hapart, fun r hr => (hmem r hr).imp_right ?_⟩
      rintro ⟨t, ht, hfound⟩
      exact ⟨t, List.mem_cons_of_mem s ht, hfound⟩
    · have hbetween : (rows ++ [row]).Pairwise fun a b => a.appName ≠ b.appName :=
        List.pairwise_append.mpr ⟨hdistinct, List.pairwise_singleton _ _,
          fun r hr a ha => List.mem_singleton.mp ha ▸ hnew r hr⟩
      obtain ⟨hapart, hmem⟩ := ih hbetween hrest
      refine ⟨hapart, fun r hr => ?_⟩
      obtain hr | ⟨t, ht, hfound⟩ := hmem r hr
      · obtain hr | hr := List.mem_append.mp hr
        · exact .inl hr
        · obtain rfl := List.mem_singleton.mp hr
          exact .inr ⟨s, List.mem_cons_self, app, happ, hrow⟩
      · exact .inr ⟨t, List.mem_cons_of_mem s ht, hfound⟩

theorem mem_sync (h : syncEcsSimplified db = some rows) {r : EcsSimplified} (hr : r ∈ rows) :
    ∃ s ∈ db.services, ∃ app, db.appOf s = some (some app) ∧ app.toRow = some r :=
  ((foldlM_syncStep_rows .nil h).2 r hr).resolve_left List.not_mem_nil

-- the loop goes through when every app has its row and the names differ, the given ones included
theorem foldlM_insertApp_iff {rows' : List EcsSimplified} :
    apps.foldlM insertApp rows = some rows' ↔
      ∃ added, apps.map App.toRow = added.map some ∧
        (∀ r ∈ rows, ∀ a ∈ added, r.appName ≠ a.appName) ∧
        added.Pairwise (fun a b => a.appName ≠ b.appName) ∧ rows' = rows ++ added := by
  induction apps generalizing rows with
  | nil =>
    constructor
    · intro h
      obtain rfl : rows = rows' := Option.some.inj h
      exact ⟨[], rfl, fun _ _ a ha => absurd ha List.not_mem_nil, .nil, by simp⟩
    · rintro ⟨added, hmap, -, -, rfl⟩
      obtain rfl : added = [] := List.map_eq_nil_iff.mp hmap.symm
      rw [List.append_nil]
      rfl
  | cons app apps ih =>
    rw [List.foldlM_cons, Option.bind_eq_bind, Option.bind_eq_some_iff]
    constructor
    · rintro ⟨between, hfirst, hrest⟩
      obtain ⟨row, hrow, hnew, rfl⟩ := insertApp_eq_some_iff.mp hfirst
      obtain ⟨added, hmap, hapart, hdistinct, rfl⟩ := ih.mp hrest
      refine ⟨row :: added, by simp [hrow, hmap], ?_, ?_, by simp⟩
      · intro r hr a ha
        obtain rfl | ha := List.mem_cons.mp ha
        · exact hnew r hr
        · exact hapart r (List.mem_append_left _ hr) a ha
      · exact .cons (fun a ha => hapart row (by simp) a ha) hdistinct
    · rintro ⟨added, hmap, hapart, hdistinct, rfl⟩
      cases added with
      | nil => simp at hmap
      | cons row added =>
        obtain ⟨hrow, htail⟩ := List.cons.inj hmap
        obtain ⟨hfirst, hothers⟩ := List.pairwise_cons.mp hdistinct
        refine ⟨rows ++ [row], insertApp_eq_some_iff.mpr ⟨row, hrow, ?_, rfl⟩, ih.mpr ?_⟩
        · exact fun r hr => hapart r hr row List.mem_cons_self
        · refine ⟨added, htail, fun r hr a ha => ?_, hothers, by simp⟩
          obtain hr | hr := List.mem_append.mp hr
          · exact hapart r hr a (List.mem_cons_of_mem row ha)
          · exact List.mem_singleton.mp hr ▸ hfirst a ha

theorem exists_rows_iff : (∃ rows : List EcsSimplified, apps.map App.toRow = rows.map some ∧
      rows.Pairwise fun a b => a.appName ≠ b.appName) ↔
    (∀ app ∈ apps, app.toRow.isSome = true) ∧
      apps.Pairwise fun a b => varchar18 a.appName ≠ varchar18 b.appName := by
  induction apps with
  | nil =>
    refine ⟨fun _ => ⟨fun a ha => absurd ha List.not_mem_nil, .nil⟩, fun _ => ⟨[], rfl, .nil⟩⟩
  | cons app apps ih =>
    constructor
    · rintro ⟨rows, hmap, hdistinct⟩
      cases rows with
      | nil => simp at hmap
      | cons row rows =>
        obtain ⟨hrow, htail⟩ := List.cons.inj hmap
        obtain ⟨hfirst, hothers⟩ := List.pairwise_cons.mp hdistinct
        obtain ⟨hsome, happart⟩ := ih.mp ⟨rows, htail, hothers⟩
        refine ⟨fun a ha => ?_, .cons (fun a ha => ?_) happart⟩
        · obtain rfl | ha := List.mem_cons.mp ha
          · exact Option.isSome_iff_exists.mpr ⟨row, hrow⟩
          · exact hsome a ha
        · have hmem : a.toRow ∈ rows.map some := htail ▸ List.mem_map_of_mem ha
          obtain ⟨r, hr, heq⟩ := List.mem_map.mp hmem
          rw [toRow_appName hrow, toRow_appName heq.symm]
          exact fun h => hfirst r hr (Option.some.inj h)
    · rintro ⟨hsome, hdistinct⟩
      obtain ⟨hfirst, hothers⟩ := List.pairwise_cons.mp hdistinct
      obtain ⟨row, hrow⟩ := Option.isSome_iff_exists.mp (hsome app List.mem_cons_self)
      obtain ⟨rows, hmap, hapart⟩ := ih.mpr ⟨fun a ha => hsome a (List.mem_cons_of_mem app ha), hothers⟩
      refine ⟨row :: rows, by simp [hrow, hmap], .cons (fun r hr heq => ?_) hapart⟩
      have hmem : some r ∈ apps.map App.toRow := hmap ▸ List.mem_map_of_mem hr
      obtain ⟨a, ha, har⟩ := List.mem_map.mp hmem
      refine hfirst a ha ?_
      rw [toRow_appName hrow, toRow_appName har, heq]

end Loop

section Finishing

variable {db : Db} {s : Service} {app : App}

-- the label of a service's size is one of the enum
def Db.SizeKnown (db : Db) (s : Service) : Prop :=
  (db.cpuMemory s).isSome = true ∨
    ((db.container s (db.appPort s)).bind (·.cpu)).getD 256 ≤ 261 ∧
      ((db.container s (db.appPort s)).bind (·.memory)).getD 512 ≤ 517

structure Db.Importable (db : Db) : Prop where
  sizes : ∀ s ∈ db.services, db.IsApp s → db.SizeKnown s
  lengths : ∀ s ∈ db.services, db.IsApp s → (varchar18 (splitPart s.name)).isSome = true
  distinct : db.services.Pairwise fun s t => db.IsApp s → db.IsApp t →
    varchar18 (splitPart s.name) ≠ varchar18 (splitPart t.name)

theorem ofLabel_cpuMem (h : db.appOf s = some (some app)) :
    (CpuMemory.ofLabel app.cpuMem).isSome = true ↔ db.SizeKnown s := by
  rw [(appOf_fields h).2, Db.SizeKnown]
  cases hsize : db.cpuMemory s with
  | none => simp [ofLabel_parts]
  | some label =>
    obtain ⟨t, -, hlabel⟩ := Option.bind_eq_some_iff.mp hsize
    obtain ⟨c, -, rfl⟩ := Option.map_eq_some_iff.mp hlabel
    simp [ofLabel_label]

theorem syncEcsSimplified_eq (hservices : (db.services.map fun s => (s.name, s.region)).Nodup)
    (hrepositories : (db.repositories.map (·.id)).Nodup) {rows : List EcsSimplified} :
    syncEcsSimplified db = some rows ↔
      (db.services.filterMap fun s => (db.appOf s).join).map App.toRow = rows.map some ∧
        rows.Pairwise fun a b => a.appName ≠ b.appName := by
  rw [syncEcsSimplified, foldlM_syncStep fun s _ => appOf_isSome hservices hrepositories,
    foldlM_insertApp_iff]
  constructor
  · rintro ⟨added, hmap, -, hdistinct, rfl⟩
    exact ⟨hmap, hdistinct⟩
  · rintro ⟨hmap, hdistinct⟩
    exact ⟨rows, hmap, fun r hr => absurd hr List.not_mem_nil, hdistinct, rfl⟩

theorem sync_finishes_iff (db : Db)
    (hservices : (db.services.map fun s => (s.name, s.region)).Nodup)
    (hrepositories : (db.repositories.map (·.id)).Nodup) :
    (syncEcsSimplified db).isSome = true ↔ db.Importable := by
  have happ : ∀ s app, (db.appOf s).join = some app ↔ db.appOf s = some (some app) :=
    fun s app => Option.join_eq_some_iff
  rw [Option.isSome_iff_exists]
  simp only [syncEcsSimplified_eq hservices hrepositories]
  rw [exists_rows_iff, List.pairwise_filterMap]
  constructor
  · rintro ⟨hrows, hdistinct⟩
    have hrow : ∀ s ∈ db.services, ∀ app, db.appOf s = some (some app) →
        app.toRow.isSome = true :=
      fun s hs app h => hrows app (List.mem_filterMap.mpr ⟨s, hs, (happ s app).mpr h⟩)
    refine ⟨?_, ?_, hdistinct.imp ?_⟩
    · rintro s hs ⟨app, h⟩
      exact (ofLabel_cpuMem h).mp (toRow_isSome_iff.mp (hrow s hs app h)).1
    · rintro s hs ⟨app, h⟩
      rw [← (appOf_fields h).1]
      exact (toRow_isSome_iff.mp (hrow s hs app h)).2
    · rintro s t hne ⟨a, ha⟩ ⟨b, hb⟩
      rw [← (appOf_fields ha).1, ← (appOf_fields hb).1]
      exact hne a ((happ s a).mpr ha) b ((happ t b).mpr hb)
  · intro h
    constructor
    · intro app hmem
      obtain ⟨s, hs, hjoin⟩ := List.mem_filterMap.mp hmem
      have hfound := (happ s app).mp hjoin
      refine toRow_isSome_iff.mpr ⟨(ofLabel_cpuMem hfound).mpr (h.sizes s hs ⟨app, hfound⟩), ?_⟩
      rw [(appOf_fields hfound).1]
      exact h.lengths s hs ⟨app, hfound⟩
    · refine h.distinct.imp fun hne a ha b hb => ?_
      have hfound := (happ _ a).mp ha
      have hfound' := (happ _ b).mp hb
      rw [(appOf_fields hfound).1, (appOf_fields hfound').1]
      exact hne ⟨a, hfound⟩ ⟨b, hfound'⟩

-- a service as it is imported: its task definition names no size, its container has one
def importedDb : Db where
  regions := ["us-east-1"]
  seq := 10
  securityGroups := [{ id := 1, groupName := "web", region := "us-east-1" }]
  securityGroupRules := [
    { id := 1, isEgress := false, ipProtocol := some "tcp", fromPort := some 80, toPort := some 80,
      cidrIpv4 := some "0.0.0.0/0", securityGroupId := some 1, region := "us-east-1" },
    { id := 2, isEgress := true, ipProtocol := some "-1", fromPort := some (-1),
      toPort := some (-1), cidrIpv4 := some "0.0.0.0/0", securityGroupId := some 1,
      region := "us-east-1" }]
  targetGroups := [
    { id := 1, targetGroupName := "web", targetType := .ip, protocol := some .http,
      port := some 80, healthCheckPath := some "/health", region := "us-east-1" }]
  loadBalancers := [
    { id := 1, loadBalancerName := "web", dnsName := none, scheme := .internetFacing,
      loadBalancerType := .application, ipAddressType := .ipv4, region := "us-east-1" }]
  loadBalancerSecurityGroups := [{ loadBalancerId := 1, securityGroupId := 1 }]
  listeners := [
    { id := 1, loadBalancerId := 1, port := 80, protocol := .http, actionType := .forward,
      targetGroupId := 1 }]
  logGroups := []
  clusters := []
  iamRoles := [{ roleName := "exec" }]
  taskDefinitions := [
    { id := 1, family := "web", revision := some 1, status := some .active, cpuMemory := none,
      region := "us-east-1", taskRoleName := some "exec", executionRoleName := some "exec" }]
  repositories := []
  containerDefinitions := [
    { id := 1, name := "web", essential := true, image := some "nginx", tag := none,
      digest := none, cpu := some 2048, memory := some 4096, hostPort := some 80,
      containerPort := some 80, envVariables := none, region := "us-east-1",
      taskDefinitionId := some 1, repositoryId := none, publicRepositoryName := none,
      logGroupId := none }]
  services := [
    { id := 1, name := "web", desiredCount := 1, assignPublicIp := .enabled,
      region := "us-east-1", clusterId := none, taskDefinitionId := some 1,
      targetGroupId := some 1 }]
  serviceSecurityGroups := [{ serviceId := 1, securityGroupId := 1 }]

theorem importedDb_label : (importedDb.services.map fun s => (s.name, s.region)).Nodup ∧
    (importedDb.repositories.map (·.id)).Nodup ∧
    importedDb.services.map (fun s => (importedDb.appOf s).map (Option.map (·.cpuMem))) =
      [some (some "vCPU2.-4.GB")] ∧
    syncEcsSimplified importedDb = none := by
  decide

theorem importedDb_not_importable : ¬importedDb.Importable := by
  intro h
  have hfinishes := (sync_finishes_iff importedDb (by decide) (by decide)).mpr h
  exact absurd hfinishes (by decide)

end Finishing

end Iasql.EcsSimplified
