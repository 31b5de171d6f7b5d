import Mathlib.Data.List.TakeWhile
import Iasql.EcsImport
import Iasql.EcsInsert

namespace Iasql.EcsSimplified

section Appended

variable {α : Type} {p : α → Bool} {l m : List α}

theorem find?_append_left (h : ∀ a ∈ m, p a = false) : (l ++ m).find? p = l.find? p := by
  have hnone : m.find? p = none := List.find?_eq_none.mpr fun a ha => by simp [h a ha]
  rw [List.find?_append, hnone, Option.or_none]

theorem find?_append_right (h : ∀ a ∈ l, p a = false) : (l ++ m).find? p = m.find? p := by
  have hnone : l.find? p = none := List.find?_eq_none.mpr fun a ha => by simp [h a ha]
  rw [List.find?_append, hnone, Option.none_or]

theorem filter_append_left (h : ∀ a ∈ m, p a = false) : (l ++ m).filter p = l.filter p := by
  have hnone : m.filter p = [] := List.filter_eq_nil_iff.mpr fun a ha => by simp [h a ha]
  rw [List.filter_append, hnone, List.append_nil]

theorem exactlyOne_append_left (h : ∀ a ∈ m, p a = false) :
    exactlyOne p (l ++ m) = exactlyOne p l := by
  have hnone : m.countP p = 0 := List.countP_eq_zero.mpr fun a ha => by simp [h a ha]
  rw [exactlyOne, List.countP_append, hnone, Nat.add_zero, exactlyOne]

theorem exactlyOne_append_right (h : ∀ a ∈ l, p a = false) :
    exactlyOne p (l ++ m) = exactlyOne p m := by
  have hnone : l.countP p = 0 := List.countP_eq_zero.mpr fun a ha => by simp [h a ha]
  rw [exactlyOne, List.countP_append, hnone, Nat.zero_add, exactlyOne]

end Appended

section Frame

variable {db : Db} {new : EcsSimplified} {s : Service} {group balancer : Option Nat}
  {port : Option Int} {c : Option ContainerDefinition} {name : Option String}

theorem appPort_add (hs : ∀ t, s.targetGroupId = some t → t < db.seq) :
    (db.add (new.rows db.seq)).appPort s = db.appPort s := by
  unfold Db.appPort Db.add
  rw [find?_append_left]
  intro t ht
  obtain rfl := List.mem_singleton.mp ht
  exact decide_eq_false fun h => not_sqlEq_below hs (Nat.le_add_right _ 3) h.1

theorem cpuMemory_add (hs : ∀ t, s.taskDefinitionId = some t → t < db.seq) :
    (db.add (new.rows db.seq)).cpuMemory s = db.cpuMemory s := by
  unfold Db.cpuMemory Db.add
  rw [find?_append_left]
  intro t ht
  obtain rfl := List.mem_singleton.mp ht
  exact decide_eq_false fun h => not_sqlEq_below hs (Nat.le_add_right _ 8) h.1

theorem container_add (hs : ∀ t, s.taskDefinitionId = some t → t < db.seq) :
    (db.add (new.rows db.seq)).container s port = db.container s port := by
  unfold Db.container Db.add
  rw [find?_append_left]
  intro t ht
  obtain rfl := List.mem_singleton.mp ht
  exact decide_eq_false fun h => not_sqlEq_below hs (Nat.le_add_right _ 8) h.1

theorem forwards_add (hs : ∀ t, s.targetGroupId = some t → t < db.seq) :
    (db.add (new.rows db.seq)).forwards s port = db.forwards s port := by
  unfold Db.forwards Db.add
  rw [exactlyOne_append_left]
  intro l hl
  obtain rfl := List.mem_singleton.mp hl
  exact decide_eq_false fun h => not_sqlEq_below hs (Nat.le_add_right _ 3) h.2.1

theorem loadBalancerId_add (hs : ∀ t, s.targetGroupId = some t → t < db.seq) :
    (db.add (new.rows db.seq)).loadBalancerId s port = db.loadBalancerId s port := by
  unfold Db.loadBalancerId Db.add
  rw [find?_append_left]
  intro l hl
  obtain rfl := List.mem_singleton.mp hl
  exact decide_eq_false fun h => not_sqlEq_below hs (Nat.le_add_right _ 3) h.2

theorem securityGroupId_add (hseq : db.BelowSeq) (hname : s.name ≠ new.appName ++ "-service") :
    (db.add (new.rows db.seq)).securityGroupId s = db.securityGroupId s := by
  unfold Db.securityGroupId Db.add
  rw [filter_append_left]
  · cases hservice : scalar (db.services.filter fun t => t.name = s.name ∧ t.region = s.region) with
    | none => rfl
    | some service =>
      have hid : ∀ x, service.map (·.id) = some x → x < db.seq := by
        intro x hx
        obtain ⟨t, rfl, rfl⟩ := Option.map_eq_some_iff.mp hx
        exact hseq.services t (List.mem_of_mem_filter (mem_of_scalar hservice))
      rw [some_bind, some_bind, find?_append_left]
      intro g hg
      obtain rfl := List.mem_singleton.mp hg
      have hle : db.seq ≤ new.serviceId db.seq := Nat.le_trans (by omega) le_serviceId
      exact eq_false_of_ne_true (not_sqlEq_below hid hle)
  · intro t ht
    obtain rfl := List.mem_singleton.mp ht
    exact decide_eq_false fun h => hname h.1.symm

theorem opensIngress_add (hgroup : ∀ g, group = some g → g < db.seq) :
    (db.add (new.rows db.seq)).opensIngress s group port = db.opensIngress s group port := by
  unfold Db.opensIngress Db.add
  rw [exactlyOne_append_left]
  intro r hr
  refine decide_eq_false fun h => not_sqlEq_below hgroup (Nat.le_refl _) ?_
  obtain rfl | hr := List.mem_cons.mp hr
  · exact h.1
  · obtain rfl := List.mem_singleton.mp hr
    exact h.1

theorem opensEgress_add (hgroup : ∀ g, group = some g → g < db.seq) :
    (db.add (new.rows db.seq)).opensEgress s group = db.opensEgress s group := by
  unfold Db.opensEgress Db.add
  rw [exactlyOne_append_left]
  intro r hr
  refine decide_eq_false fun h => not_sqlEq_below hgroup (Nat.le_refl _) ?_
  obtain rfl | hr := List.mem_cons.mp hr
  · exact h.1
  · obtain rfl := List.mem_singleton.mp hr
    exact h.1

theorem balances_add (hbalancer : ∀ b, balancer = some b → b < db.seq) :
    (db.add (new.rows db.seq)).balances s balancer = db.balances s balancer := by
  unfold Db.balances Db.add
  rw [exactlyOne_append_left]
  intro b hb
  obtain rfl := List.mem_singleton.mp hb
  exact decide_eq_false fun h => not_sqlEq_below hbalancer (Nat.le_add_right _ 4) h.1

theorem guards_add (hbalancer : ∀ b, balancer = some b → b < db.seq) :
    (db.add (new.rows db.seq)).guards balancer group = db.guards balancer group := by
  unfold Db.guards Db.add
  rw [exactlyOne_append_left]
  intro g hg
  obtain rfl := List.mem_singleton.mp hg
  exact decide_eq_false fun h => not_sqlEq_below hbalancer (Nat.le_add_right _ 4) h.1

theorem loadBalancerDns_add (hbalancer : ∀ b, balancer = some b → b < db.seq) :
    (db.add (new.rows db.seq)).loadBalancerDns s balancer = db.loadBalancerDns s balancer := by
  unfold Db.loadBalancerDns Db.add
  rw [find?_append_left]
  intro b hb
  obtain rfl := List.mem_singleton.mp hb
  exact decide_eq_false fun h => not_sqlEq_below hbalancer (Nat.le_add_right _ 4) h.1

theorem mem_ownRepositories {n : Nat} {r : Repository} (hr : r ∈ new.ownRepositories n) :
    r.id = n + 9 ∧ r.repositoryName = new.appName ++ "-repository" := by
  unfold EcsSimplified.ownRepositories at hr
  split at hr
  · obtain rfl := List.mem_singleton.mp hr
    exact ⟨rfl, rfl⟩
  · cases hr

theorem repositoryName_add (hc : ∀ d, c = some d → ∀ r, d.repositoryId = some r → r < db.seq) :
    (db.add (new.rows db.seq)).repositoryName s c = db.repositoryName s c := by
  cases c with
  | none => rfl
  | some d =>
    unfold Db.repositoryName Db.add
    dsimp only
    rw [filter_append_left]
    intro r hr
    have hid := (mem_ownRepositories hr).1
    refine decide_eq_false fun h => not_sqlEq_below (hc d rfl) (Nat.le_add_right _ 9) ?_
    exact hid ▸ h.1

theorem repositoryUri_add (hname : name ≠ some (new.appName ++ "-repository")) :
    (db.add (new.rows db.seq)).repositoryUri s name c = db.repositoryUri s name c := by
  cases name with
  | none => rfl
  | some name =>
    unfold Db.repositoryUri Db.add
    dsimp only
    rw [find?_append_left]
    intro r hr
    refine decide_eq_false fun h => hname ?_
    rw [← h.1, (mem_ownRepositories hr).2]

theorem container_mem {d : ContainerDefinition} (h : db.container s port = some d) :
    d ∈ db.containerDefinitions := List.mem_of_find?_eq_some h

theorem repositoryName_mem {r : String} (h : db.repositoryName s c = some (some r)) :
    ∃ repository ∈ db.repositories, repository.repositoryName = r := by
  cases c with
  | none => cases h
  | some d =>
    obtain ⟨found, hfound, h⟩ := Option.bind_eq_some_iff.mp h
    obtain ⟨repository, rfl, rfl⟩ := Option.map_eq_some_iff.mp (Option.some.inj h)
    exact ⟨repository, List.mem_of_mem_filter (mem_of_scalar hfound), rfl⟩

theorem securityGroupId_mem {g : Nat} (h : db.securityGroupId s = some (some g)) :
    ∃ row ∈ db.serviceSecurityGroups, row.securityGroupId = g := by
  obtain ⟨found, -, h⟩ := Option.bind_eq_some_iff.mp h
  obtain ⟨row, hrow, rfl⟩ := Option.map_eq_some_iff.mp (Option.some.inj h)
  exact ⟨row, List.mem_of_find?_eq_some hrow, rfl⟩

theorem loadBalancerId_mem {b : Nat} (h : db.loadBalancerId s port = some b) :
    ∃ l ∈ db.listeners, l.loadBalancerId = b := by
  obtain ⟨row, hrow, rfl⟩ := Option.map_eq_some_iff.mp h
  exact ⟨row, List.mem_of_find?_eq_some hrow, rfl⟩

theorem appOf_add (hseq : db.BelowSeq) (hnone : db.NoRowsOf new.appName) (hs : s ∈ db.services) :
    (db.add (new.rows db.seq)).appOf s = db.appOf s := by
  have htarget := hseq.targeted s hs
  have htask := hseq.defined s hs
  have hpulled : ∀ d, db.container s (db.appPort s) = some d →
      ∀ r, d.repositoryId = some r → r < db.seq :=
    fun d hd => hseq.pulled d (container_mem hd)
  have hbalancer : ∀ b, db.loadBalancerId s (db.appPort s) = some b → b < db.seq := by
    intro b hb
    obtain ⟨l, hl, rfl⟩ := loadBalancerId_mem hb
    exact (hseq.listeners l hl).1
  unfold Db.appOf
  simp only [appPort_add htarget, securityGroupId_add hseq (hnone.services s hs),
    container_add htask, cpuMemory_add htask, forwards_add htarget, loadBalancerId_add htarget,
    repositoryName_add hpulled, balances_add hbalancer, guards_add hbalancer,
    loadBalancerDns_add hbalancer]
  cases hgroup : db.securityGroupId s with
  | none => rfl
  | some group =>
    have hbelow : ∀ g, group = some g → g < db.seq := by
      rintro g rfl
      obtain ⟨row, hrow, rfl⟩ := securityGroupId_mem hgroup
      exact (hseq.grouped row hrow).2
    cases hname : db.repositoryName s (db.container s (db.appPort s)) with
    | none => rfl
    | some name =>
      have hother : name ≠ some (new.appName ++ "-repository") := by
        rintro rfl
        obtain ⟨r, hr, heq⟩ := repositoryName_mem hname
        exact hnone.repositories r hr heq
      simp only [some_bind, opensIngress_add hbelow, opensEgress_add hbelow,
        repositoryUri_add hother]

end Frame

section Own

variable {db : Db} {new : EcsSimplified}

-- what the loop finds in the service of an app just inserted
def EcsSimplified.ownApp (new : EcsSimplified) : App where
  appName := splitPart (new.appName ++ "-service")
  desiredCount := new.desiredCount
  appPort := new.appPort
  cpuMem := new.cpuMem.label
  imageTag := if createsRepository new then none else new.imageTag
  publicIp := new.publicIp
  loadBalancerDns := none
  repositoryUri := new.repositoryUri
  envVariables := new.envVariables
  region := new.region

theorem appPort_own (hseq : db.BelowSeq) :
    (db.add (new.rows db.seq)).appPort (new.ownService db.seq) = some new.appPort := by
  unfold Db.appPort Db.add
  rw [find?_append_right]
  · simp [EcsSimplified.rows, EcsSimplified.ownService, sqlEq]
  · intro t ht
    have hlt := hseq.targetGroups t ht
    exact decide_eq_false fun h => not_sqlEq_ne (by omega) h.1

theorem cpuMemory_own (hseq : db.BelowSeq) :
    (db.add (new.rows db.seq)).cpuMemory (new.ownService db.seq) = some new.cpuMem.label := by
  unfold Db.cpuMemory Db.add
  rw [find?_append_right]
  · simp [EcsSimplified.rows, EcsSimplified.ownService, sqlEq]
  · intro t ht
    have hlt := hseq.taskDefinitions t ht
    exact decide_eq_false fun h => not_sqlEq_ne (by omega) h.1

theorem container_own (hseq : db.BelowSeq) :
    (db.add (new.rows db.seq)).container (new.ownService db.seq) (some new.appPort) =
      some (new.ownContainer db.seq) := by
  unfold Db.container Db.add
  rw [find?_append_right]
  · simp [EcsSimplified.rows, EcsSimplified.ownService, EcsSimplified.ownContainer, sqlEq]
  · intro c hc
    exact decide_eq_false fun h =>
      not_sqlEq_above (hseq.containers c hc) (Nat.le_add_right _ 8) h.1

theorem forwards_own (hseq : db.BelowSeq) :
    (db.add (new.rows db.seq)).forwards (new.ownService db.seq) (some new.appPort) = true := by
  unfold Db.forwards Db.add
  rw [exactlyOne_append_right]
  · simp [exactlyOne, EcsSimplified.rows, EcsSimplified.ownService, sqlEq]
  · intro l hl
    have hlt := (hseq.listeners l hl).2
    exact decide_eq_false fun h => not_sqlEq_ne (by omega) h.2.1

theorem loadBalancerId_own (hseq : db.BelowSeq) :
    (db.add (new.rows db.seq)).loadBalancerId (new.ownService db.seq) (some new.appPort) =
      some (db.seq + 4) := by
  unfold Db.loadBalancerId Db.add
  rw [find?_append_right]
  · simp [EcsSimplified.rows, EcsSimplified.ownService, sqlEq]
  · intro l hl
    have hlt := (hseq.listeners l hl).2
    exact decide_eq_false fun h => not_sqlEq_ne (by omega) h.2

theorem securityGroupId_own (hseq : db.BelowSeq) (hnone : db.NoRowsOf new.appName) :
    (db.add (new.rows db.seq)).securityGroupId (new.ownService db.seq) = some (some db.seq) := by
  have hservice : scalar ((db.services ++ [new.ownService db.seq]).filter fun t =>
      t.name = (new.ownService db.seq).name ∧ t.region = (new.ownService db.seq).region) =
      some (some (new.ownService db.seq)) :=
    scalar_snoc (fun s hs => decide_eq_false fun h => hnone.services s hs h.1)
      (decide_eq_true ⟨rfl, rfl⟩)
  unfold Db.securityGroupId Db.add
  rw [show (new.rows db.seq).services = [new.ownService db.seq] from rfl, hservice, some_bind,
    find?_append_right]
  · simp [EcsSimplified.rows, EcsSimplified.ownService, sqlEq]
  · intro g hg
    have hlt := (hseq.grouped g hg).1
    have hle : db.seq + 10 ≤ new.serviceId db.seq := le_serviceId
    exact eq_false_of_ne_true (not_sqlEq_ne (k := new.serviceId db.seq) (by omega))

theorem opensIngress_own (hseq : db.BelowSeq) :
    (db.add (new.rows db.seq)).opensIngress (new.ownService db.seq) (some db.seq)
      (some new.appPort) = true := by
  unfold Db.opensIngress Db.add
  rw [exactlyOne_append_right]
  · simp [exactlyOne, EcsSimplified.rows, EcsSimplified.ownService, sqlEq]
  · intro r hr
    exact decide_eq_false fun h => not_sqlEq_above (hseq.rules r hr) (Nat.le_refl _) h.1

theorem opensEgress_own (hseq : db.BelowSeq) :
    (db.add (new.rows db.seq)).opensEgress (new.ownService db.seq) (some db.seq) = true := by
  unfold Db.opensEgress Db.add
  rw [exactlyOne_append_right]
  · simp [exactlyOne, EcsSimplified.rows, EcsSimplified.ownService, sqlEq]
  · intro r hr
    exact decide_eq_false fun h => not_sqlEq_above (hseq.rules r hr) (Nat.le_refl _) h.1

theorem balances_own (hseq : db.BelowSeq) :
    (db.add (new.rows db.seq)).balances (new.ownService db.seq) (some (db.seq + 4)) = true := by
  unfold Db.balances Db.add
  rw [exactlyOne_append_right]
  · simp [exactlyOne, EcsSimplified.rows, EcsSimplified.ownService, sqlEq]
  · intro b hb
    have hlt := hseq.loadBalancers b hb
    exact decide_eq_false fun h => not_sqlEq_ne (by omega) h.1

theorem guards_own (hseq : db.BelowSeq) :
    (db.add (new.rows db.seq)).guards (some (db.seq + 4)) (some db.seq) = true := by
  unfold Db.guards Db.add
  rw [exactlyOne_append_right]
  · simp [exactlyOne, EcsSimplified.rows, sqlEq]
  · intro g hg
    have hlt := hseq.balanced g hg
    exact decide_eq_false fun h => not_sqlEq_ne (by omega) h.1

theorem loadBalancerDns_own (hseq : db.BelowSeq) :
    (db.add (new.rows db.seq)).loadBalancerDns (new.ownService db.seq) (some (db.seq + 4)) =
      none := by
  unfold Db.loadBalancerDns Db.add
  rw [find?_append_right]
  · simp [EcsSimplified.rows, EcsSimplified.ownService, sqlEq]
  · intro b hb
    have hlt := hseq.loadBalancers b hb
    exact decide_eq_false fun h => not_sqlEq_ne (by omega) h.1

theorem repositoryName_own (hseq : db.BelowSeq) :
    (db.add (new.rows db.seq)).repositoryName (new.ownService db.seq)
        (some (new.ownContainer db.seq)) =
      some (if createsRepository new then some (new.appName ++ "-repository") else none) := by
  unfold Db.repositoryName Db.add
  dsimp only
  cases hcreates : createsRepository new with
  | true =>
    have hrepository : (new.rows db.seq).repositories =
        [{ id := db.seq + 9, repositoryName := new.appName ++ "-repository", repositoryUri := none,
           region := new.region }] := if_pos hcreates
    have hid : (new.ownContainer db.seq).repositoryId = some (db.seq + 9) := if_pos hcreates
    rw [hrepository, hid, scalar_snoc]
    · rfl
    · intro r hr
      have hlt := hseq.repositories r hr
      exact decide_eq_false fun h => not_sqlEq_ne (by omega) h.1
    · exact decide_eq_true ⟨sqlEq_self _, rfl⟩
  | false =>
    have hid : (new.ownContainer db.seq).repositoryId = none :=
      if_neg (Bool.eq_false_iff.mp hcreates)
    simp [hid, sqlEq_none, scalar]

theorem repositoryUri_own (hnone : db.NoRowsOf new.appName) :
    (db.add (new.rows db.seq)).repositoryUri (new.ownService db.seq)
        (if createsRepository new then some (new.appName ++ "-repository") else none)
        (some (new.ownContainer db.seq)) = new.repositoryUri := by
  cases hcreates : createsRepository new with
  | true =>
    have hrepository : (new.rows db.seq).repositories =
        [{ id := db.seq + 9, repositoryName := new.appName ++ "-repository", repositoryUri := none,
           region := new.region }] := if_pos hcreates
    have huri : new.repositoryUri = none := by
      simpa [createsRepository] using (Bool.and_eq_true_iff.mp hcreates).1
    rw [if_pos rfl]
    unfold Db.repositoryUri Db.add
    dsimp only
    rw [hrepository, find?_snoc, huri]
    · rfl
    · exact fun r hr => decide_eq_false fun h => hnone.repositories r hr h.1
    · exact decide_eq_true ⟨rfl, rfl⟩
  | false => rfl

theorem appOf_own (hseq : db.BelowSeq) (hnone : db.NoRowsOf new.appName) :
    (db.add (new.rows db.seq)).appOf (new.ownService db.seq) = some (some new.ownApp) := by
  have hpublic : decide ((new.ownService db.seq).assignPublicIp = .enabled) = new.publicIp := by
    cases hip : new.publicIp <;> simp [EcsSimplified.ownService, hip]
  unfold Db.appOf
  simp only [appPort_own hseq, securityGroupId_own hseq hnone, container_own hseq,
    cpuMemory_own hseq, forwards_own hseq, loadBalancerId_own hseq, repositoryName_own hseq,
    some_bind, opensIngress_own hseq, opensEgress_own hseq, balances_own hseq, guards_own hseq,
    loadBalancerDns_own hseq, repositoryUri_own hnone, Option.isSome_some, Bool.and_true,
    if_true, Option.getD_some, Option.bind_some, hpublic]
  rfl

end Own

section Names

variable {app : String}

theorem takeWhile_stop {α : Type} {p : α → Bool} {a : α} (l r : List α) (ha : p a = false) :
    (l ++ a :: r).takeWhile p = l.takeWhile p := by
  induction l with
  | nil => simp [ha]
  | cons b l ih =>
    rw [List.cons_append, List.takeWhile_cons, List.takeWhile_cons, ih]

theorem splitPart_service : splitPart (app ++ "-service") = splitPart app := by
  have hsuffix : "-service".toList = '-' :: "service".toList := rfl
  rw [splitPart, String.toList_append, hsuffix, takeWhile_stop _ _ (by decide), splitPart]

theorem splitPart_eq_self_iff : splitPart app = app ↔ '-' ∉ app.toList := by
  have hwhole : splitPart app = app ↔ app.toList.takeWhile (· ≠ '-') = app.toList := by
    rw [splitPart, ← String.toList_inj, String.toList_ofList]
  rw [hwhole, List.takeWhile_eq_self_iff]
  constructor
  · exact fun h hmem => of_decide_eq_true (h '-' hmem) rfl
  · exact fun h c hc => decide_eq_true fun heq => h (heq ▸ hc)

theorem splitPart_service_length : (splitPart (app ++ "-service")).length ≤ app.length := by
  rw [splitPart_service, splitPart, String.length_ofList, ← String.length_toList]
  exact (List.takeWhile_prefix _).length_le

end Names

section Synced

variable {db : Db} {new : EcsSimplified} {rows : List EcsSimplified} {services : List Service}

-- the row the loop inserts for it
def EcsSimplified.readBack (new : EcsSimplified) : EcsSimplified where
  appName := splitPart (new.appName ++ "-service")
  desiredCount := new.desiredCount
  appPort := new.appPort
  cpuMem := new.cpuMem
  repositoryUri := new.repositoryUri
  imageTag := if createsRepository new then none else new.imageTag
  imageDigest := none
  publicIp := new.publicIp
  loadBalancerDns := none
  envVariables := new.envVariables
  region := new.region
  appName_length := Nat.le_trans splitPart_service_length new.appName_length
  validImageFields := .inr rfl

theorem ownApp_toRow : new.ownApp.toRow = some new.readBack := by
  have hname : varchar18 new.ownApp.appName = some new.readBack.appName :=
    varchar18_eq_self new.readBack.appName_length
  have hlabel : CpuMemory.ofLabel new.ownApp.cpuMem = some new.cpuMem := ofLabel_label new.cpuMem
  unfold App.toRow
  rw [hlabel]
  dsimp only
  split
  · next hnone => exact nomatch hname.symm.trans hnone
  · next heq =>
    obtain rfl := Option.some.inj (hname.symm.trans heq)
    rfl

theorem foldlM_syncStep_congr {db' : Db} (h : ∀ s ∈ services, db'.appOf s = db.appOf s) :
    services.foldlM (syncStep db') rows = services.foldlM (syncStep db) rows := by
  induction services generalizing rows with
  | nil => rw [List.foldlM_nil, List.foldlM_nil]
  | cons s services ih =>
    have hstep : syncStep db' rows s = syncStep db rows s := by
      rw [syncStep, syncStep, h s List.mem_cons_self]
    rw [List.foldlM_cons, List.foldlM_cons, hstep]
    exact bind_congr fun rows => ih fun t ht => h t (List.mem_cons_of_mem s ht)

theorem sync_add (hseq : db.BelowSeq) (hnone : db.NoRowsOf new.appName) :
    syncEcsSimplified (db.add (new.rows db.seq)) =
      (syncEcsSimplified db).bind fun others => insertApp others new.ownApp := by
  have hservices : (db.add (new.rows db.seq)).services =
      db.services ++ [new.ownService db.seq] := rfl
  rw [syncEcsSimplified, hservices, List.foldlM_append,
    foldlM_syncStep_congr fun s hs => appOf_add hseq hnone hs]
  refine bind_congr fun others => ?_
  rw [List.foldlM_cons, syncStep, appOf_own hseq hnone]
  exact bind_pure _

theorem row_of_app (hservices : (db.services.map fun s => (s.name, s.region)).Nodup)
    (hrepositories : (db.repositories.map (·.id)).Nodup)
    (hsync : syncEcsSimplified db = some rows) {s : Service} {app : App} (hs : s ∈ db.services)
    (happ : db.appOf s = some (some app)) : ∃ r ∈ rows, app.toRow = some r := by
  have hmap := ((syncEcsSimplified_eq hservices hrepositories).mp hsync).1
  have hmem : app ∈ db.services.filterMap fun s => (db.appOf s).join :=
    List.mem_filterMap.mpr ⟨s, hs, Option.join_eq_some_iff.mpr happ⟩
  have hrow : app.toRow ∈ rows.map some := hmap ▸ List.mem_map_of_mem hmem
  obtain ⟨r, hr, heq⟩ := List.mem_map.mp hrow
  exact ⟨r, hr, heq.symm⟩

theorem readBack_appName_iff :
    new.readBack.appName = new.appName ↔ '-' ∉ new.appName.toList := by
  show splitPart (new.appName ++ "-service") = new.appName ↔ _
  rw [splitPart_service, splitPart_eq_self_iff]

end Synced

section RoundTrip

variable {db : Db} {new row : EcsSimplified}

-- the columns a row read back shares with the row written
structure EcsSimplified.SameApp (row new : EcsSimplified) : Prop where
  appName : row.appName = new.appName
  desiredCount : row.desiredCount = new.desiredCount
  appPort : row.appPort = new.appPort
  cpuMem : row.cpuMem = new.cpuMem
  imageTag : row.imageTag = new.imageTag
  imageDigest : row.imageDigest = new.imageDigest
  publicIp : row.publicIp = new.publicIp
  envVariables : row.envVariables = new.envVariables
  region : row.region = new.region
  repositoryUri : new.repositoryUri.isSome = true → row.repositoryUri = new.repositoryUri

def RoundTrips (new : EcsSimplified) (db : Db) : Prop :=
  ∃ db' others row, insertEcsSimplified new db = some db' ∧ syncEcsSimplified db = some others ∧
    syncEcsSimplified db' = some (others ++ [row]) ∧ (∀ r ∈ others, r.appName ≠ new.appName) ∧
    row.SameApp new

structure EcsSimplified.Readable (new : EcsSimplified) (db : Db) : Prop where
  plain : '-' ∉ new.appName.toList
  undigested : new.imageDigest = none
  untagged : new.repositoryUri = none → new.imageTag = none
  region : new.region ∈ db.regions
  importable : db.Importable
  apart : ∀ s ∈ db.services, db.IsApp s → varchar18 (splitPart s.name) ≠ some new.appName

theorem createsRepository_iff :
    createsRepository new = true ↔ new.repositoryUri = none ∧ new.imageDigest = none := by
  simp [createsRepository]

theorem readBack_imageTag_iff (h : new.imageDigest = none) :
    new.readBack.imageTag = new.imageTag ↔ (new.repositoryUri = none → new.imageTag = none) := by
  show (if createsRepository new then none else new.imageTag) = new.imageTag ↔ _
  split
  · next hcreates =>
    exact ⟨fun heq _ => heq.symm, fun htag => (htag (createsRepository_iff.mp hcreates).1).symm⟩
  · next hcreates =>
    exact ⟨fun _ huri => absurd (createsRepository_iff.mpr ⟨huri, h⟩) hcreates, fun _ => rfl⟩

theorem readBack_sameApp_iff : new.readBack.SameApp new ↔ '-' ∉ new.appName.toList ∧
    new.imageDigest = none ∧ (new.repositoryUri = none → new.imageTag = none) := by
  constructor
  · intro h
    have hdigest : new.imageDigest = none := h.imageDigest.symm
    exact ⟨readBack_appName_iff.mp h.appName, hdigest,
      (readBack_imageTag_iff hdigest).mp h.imageTag⟩
  · rintro ⟨hplain, hdigest, htag⟩
    exact ⟨readBack_appName_iff.mpr hplain, rfl, rfl, rfl, (readBack_imageTag_iff hdigest).mpr htag,
      hdigest.symm, rfl, rfl, rfl, fun _ => rfl⟩

theorem others_apart_iff (hservices : (db.services.map fun s => (s.name, s.region)).Nodup)
    (hrepositories : (db.repositories.map (·.id)).Nodup) {others : List EcsSimplified}
    (hsync : syncEcsSimplified db = some others) {app : String} :
    (∀ r ∈ others, r.appName ≠ app) ↔
      ∀ s ∈ db.services, db.IsApp s → varchar18 (splitPart s.name) ≠ some app := by
  have hname : ∀ s found row, db.appOf s = some (some found) → found.toRow = some row →
      varchar18 (splitPart s.name) = some row.appName := by
    intro s found row hfound hrow
    rw [← (appOf_fields hfound).1]
    exact toRow_appName hrow
  constructor
  · rintro h s hs ⟨found, hfound⟩ heq
    obtain ⟨r, hr, hrow⟩ := row_of_app hservices hrepositories hsync hs hfound
    have hsome := (hname s found r hfound hrow).symm.trans heq
    exact h r hr (Option.some.inj hsome)
  · intro h r hr heq
    obtain ⟨s, hs, found, hfound, hrow⟩ := mem_sync hsync hr
    exact h s hs ⟨found, hfound⟩ (heq ▸ hname s found r hfound hrow)

def freshDb : Db where
  regions := ["us-east-1"]
  seq := 1
  securityGroups := []
  securityGroupRules := []
  targetGroups := []
  loadBalancers := []
  loadBalancerSecurityGroups := []
  listeners := []
  logGroups := []
  clusters := []
  iamRoles := []
  taskDefinitions := []
  repositories := []
  containerDefinitions := []
  services := []
  serviceSecurityGroups := []

theorem freshDb_belowSeq : freshDb.BelowSeq := by
  constructor <;> exact List.forall_mem_nil _

theorem freshDb_noRowsOf (app : String) : freshDb.NoRowsOf app := by
  constructor <;> exact List.forall_mem_nil _

def tagged : EcsSimplified where
  appName := "web"
  desiredCount := 1
  appPort := 80
  cpuMem := .vCPU2x8GB
  repositoryUri := some "docker.io/web"
  imageTag := some "latest"
  imageDigest := none
  publicIp := true
  loadBalancerDns := none
  envVariables := none
  region := "us-east-1"
  appName_length := by decide
  validImageFields := .inr rfl

-- the same image by its digest
def digested : EcsSimplified :=
  { tagged with imageTag := none, imageDigest := some "sha256:0f", validImageFields := .inl rfl }

end RoundTrip

end Iasql.EcsSimplified
