import Mathlib.Data.List.Pairwise
import Iasql.Calculus.Blocks
import Iasql.EcsDelete

namespace Iasql.EcsSimplified

section Cloud

-- what a commit fills in
structure Cloud where
  repositoryUri : Repository → Option String
  dnsName : LoadBalancer → Option String
  revision : TaskDefinition → Option Int
  status : TaskDefinition → Option TaskDefinitionStatus

def Db.fill (cloud : Cloud) (db : Db) : Db :=
  { db with
    repositories := db.repositories.map fun r => { r with repositoryUri := cloud.repositoryUri r }
    loadBalancers := db.loadBalancers.map fun b => { b with dnsName := cloud.dnsName b }
    taskDefinitions := db.taskDefinitions.map fun t =>
      { t with revision := cloud.revision t, status := cloud.status t } }

end Cloud

section Blocks

-- an app's row as it was inserted, the first id drawn for it and what commits filled in since
structure Block where
  row : EcsSimplified
  base : Nat
  repositoryUri : Option String
  dnsName : Option String
  revision : Option Int
  status : Option TaskDefinitionStatus

namespace Block

variable (b : Block)

def repository : Repository where
  id := b.base + 9
  repositoryName := b.row.appName ++ "-repository"
  repositoryUri := b.repositoryUri
  region := b.row.region

def repositories : List Repository := if createsRepository b.row then [b.repository] else []

def loadBalancer : LoadBalancer where
  id := b.base + 4
  loadBalancerName := b.row.appName ++ "-load-balancer"
  dnsName := b.dnsName
  scheme := .internetFacing
  loadBalancerType := .application
  ipAddressType := .ipv4
  region := b.row.region

def taskDefinition : TaskDefinition where
  id := b.base + 8
  family := b.row.appName ++ "-td"
  revision := b.revision
  status := b.status
  cpuMemory := some b.row.cpuMem
  region := b.row.region
  taskRoleName := some (b.row.appName ++ "-ecs-task-exec-role")
  executionRoleName := some (b.row.appName ++ "-ecs-task-exec-role")

def rows : Db :=
  { b.row.rows b.base with
    repositories := b.repositories
    loadBalancers := [b.loadBalancer]
    taskDefinitions := [b.taskDefinition] }

-- the first id after the app's own
def next : Nat := b.row.serviceId b.base + 1

def fill (cloud : Cloud) : Block :=
  { b with
    repositoryUri := cloud.repositoryUri b.repository
    dnsName := cloud.dnsName b.loadBalancer
    revision := cloud.revision b.taskDefinition
    status := cloud.status b.taskDefinition }

end Block

-- as its INSERT leaves it
def EcsSimplified.block (new : EcsSimplified) (base : Nat) : Block where
  row := new
  base
  repositoryUri := none
  dnsName := none
  revision := none
  status := none

def dbOf (regions : List String) (seq : Nat) (blocks : List Block) : Db where
  regions
  seq
  securityGroups := blocks.flatMap (·.rows.securityGroups)
  securityGroupRules := blocks.flatMap (·.rows.securityGroupRules)
  targetGroups := blocks.flatMap (·.rows.targetGroups)
  loadBalancers := blocks.flatMap (·.rows.loadBalancers)
  loadBalancerSecurityGroups := blocks.flatMap (·.rows.loadBalancerSecurityGroups)
  listeners := blocks.flatMap (·.rows.listeners)
  logGroups := blocks.flatMap (·.rows.logGroups)
  clusters := blocks.flatMap (·.rows.clusters)
  iamRoles := blocks.flatMap (·.rows.iamRoles)
  taskDefinitions := blocks.flatMap (·.rows.taskDefinitions)
  repositories := blocks.flatMap (·.rows.repositories)
  containerDefinitions := blocks.flatMap (·.rows.containerDefinitions)
  services := blocks.flatMap (·.rows.services)
  serviceSecurityGroups := blocks.flatMap (·.rows.serviceSecurityGroups)

-- one app after the other, under different names, their ids drawn in turn
structure Laid (seq : Nat) (blocks : List Block) : Prop where
  names : (blocks.map (·.row.appName)).Nodup
  apart : blocks.Pairwise fun a b => a.next ≤ b.base
  below : ∀ b ∈ blocks, b.next ≤ seq
  given : ∀ b ∈ blocks, imageGiven b.row = true

end Blocks

section Layout

variable {regions : List String} {seq : Nat} {blocks : List Block} {a b : Block}
  {new : EcsSimplified} {cloud : Cloud}

theorem block_rows (n : Nat) : (new.block n).rows = new.rows n := rfl

theorem dbOf_add (n : Nat) : dbOf regions (new.block n).next (blocks ++ [new.block n]) =
    (dbOf regions seq blocks).add (new.rows n) := by
  unfold dbOf Db.add
  simp only [List.flatMap_append, List.flatMap_cons, List.flatMap_nil, List.append_nil, block_rows]
  rfl

theorem fill_repositories : (b.fill cloud).repositories =
    b.repositories.map fun r => { r with repositoryUri := cloud.repositoryUri r } := by
  unfold Block.repositories Block.fill
  split <;> rfl

theorem dbOf_fill : (dbOf regions seq blocks).fill cloud =
    dbOf regions seq (blocks.map (·.fill cloud)) := by
  unfold dbOf Db.fill
  simp only [List.flatMap_map, List.map_flatMap]
  congr 1
  exact (Blocks.flatMap_congr fun b _ => fill_repositories).symm

theorem Block.eq_repository {r : Repository} (hr : r ∈ b.repositories) :
    createsRepository b.row = true ∧ r = b.repository := by
  unfold Block.repositories at hr
  split at hr
  · next hcreates => exact ⟨hcreates, List.mem_singleton.mp hr⟩
  · cases hr

theorem Block.base_lt_next : b.base + 10 < b.next := Nat.lt_succ_of_le le_serviceId

theorem Laid.eq_of_near (h : Laid seq blocks) (ha : a ∈ blocks) (hb : b ∈ blocks)
    (hab : a.base < b.next) (hba : b.base < a.next) : a = b := by
  by_contra hne
  have hsymm : Std.Symm fun a b : Block => a.next ≤ b.base ∨ b.next ≤ a.base :=
    ⟨fun _ _ h => h.symm⟩
  have hpairs : blocks.Pairwise fun a b => a.next ≤ b.base ∨ b.next ≤ a.base :=
    h.apart.imp fun hle => .inl hle
  have hapart := hpairs.forall ha hb hne
  omega

theorem Laid.base_inj (h : Laid seq blocks) (ha : a ∈ blocks) (hb : b ∈ blocks)
    (heq : a.base = b.base) : a = b := by
  have hlt := a.base_lt_next
  have hlt' := b.base_lt_next
  exact h.eq_of_near ha hb (by omega) (by omega)

theorem Laid.service_inj (h : Laid seq blocks) (ha : a ∈ blocks) (hb : b ∈ blocks)
    (heq : a.row.serviceId a.base = b.row.serviceId b.base) : a = b := by
  have hlt := a.base_lt_next
  have hlt' := b.base_lt_next
  have hnext : a.next = b.next := congrArg (· + 1) heq
  exact h.eq_of_near ha hb (by omega) (by omega)

theorem Laid.name_inj (h : Laid seq blocks) (ha : a ∈ blocks) (hb : b ∈ blocks)
    (heq : a.row.appName = b.row.appName) : a = b :=
  List.inj_on_of_nodup_map h.names ha hb heq

theorem Laid.nodup (h : Laid seq blocks) : blocks.Nodup := h.names.of_map

theorem laid_nil : Laid seq [] :=
  ⟨.nil, .nil, List.forall_mem_nil _, List.forall_mem_nil _⟩

theorem Laid.filter (h : Laid seq blocks) (q : Block → Bool) : Laid seq (blocks.filter q) where
  names := h.names.sublist (List.filter_sublist.map _)
  apart := h.apart.filter q
  below := fun b hb => h.below b (List.mem_of_mem_filter hb)
  given := fun b hb => h.given b (List.mem_of_mem_filter hb)

theorem Laid.fill (h : Laid seq blocks) : Laid seq (blocks.map (·.fill cloud)) where
  names := by
    rw [List.map_map]
    exact h.names
  apart := List.pairwise_map.mpr h.apart
  below := List.forall_mem_map.mpr h.below
  given := List.forall_mem_map.mpr h.given

theorem Laid.snoc (h : Laid seq blocks) (hnew : ∀ b ∈ blocks, b.row.appName ≠ new.appName)
    (himage : imageGiven new = true) : Laid (new.block seq).next (blocks ++ [new.block seq]) where
  names := by
    rw [List.map_append]
    refine h.names.append (List.nodup_singleton _) fun name hname hown => ?_
    obtain ⟨b, hb, rfl⟩ := List.mem_map.mp hname
    exact hnew b hb (List.mem_singleton.mp hown)
  apart := by
    refine List.pairwise_append.mpr ⟨h.apart, List.pairwise_singleton _ _, fun b hb c hc => ?_⟩
    obtain rfl := List.mem_singleton.mp hc
    exact h.below b hb
  below := by
    intro b hb
    obtain hb | hb := List.mem_append.mp hb
    · have hlt := (new.block seq).base_lt_next
      exact Nat.le_trans (h.below b hb) (Nat.le_trans (Nat.le_add_right _ 10) (Nat.le_of_lt hlt))
    · exact Nat.le_of_eq (congrArg Block.next (List.mem_singleton.mp hb))
  given := by
    intro b hb
    obtain hb | hb := List.mem_append.mp hb
    · exact h.given b hb
    · rw [List.mem_singleton.mp hb]
      exact himage

theorem forall_mem_flatMap {α : Type} {f : Block → List α} {P : α → Prop}
    (h : ∀ b ∈ blocks, ∀ x ∈ f b, P x) : ∀ x ∈ blocks.flatMap f, P x := by
  intro x hx
  obtain ⟨b, hb, hmem⟩ := List.mem_flatMap.mp hx
  exact h b hb x hmem

theorem Laid.belowSeq (h : Laid seq blocks) : (dbOf regions seq blocks).BelowSeq := by
  have hlt : ∀ b ∈ blocks, b.base + 10 < seq :=
    fun b hb => Nat.lt_of_lt_of_le b.base_lt_next (h.below b hb)
  have hservice : ∀ b ∈ blocks, b.row.serviceId b.base < seq := h.below
  constructor
  case rules =>
    refine forall_mem_flatMap fun b hb r hr g hg => ?_
    have hgroup : some b.base = some g := by
      rw [← hg]
      obtain rfl | hr := List.mem_cons.mp hr
      · rfl
      · rw [List.mem_singleton.mp hr]
    have := hlt b hb
    have := Option.some.inj hgroup
    show g < seq
    omega
  case targetGroups =>
    refine forall_mem_flatMap fun b hb => List.forall_mem_singleton.mpr ?_
    have := hlt b hb
    show b.base + 3 < seq
    omega
  case loadBalancers =>
    refine forall_mem_flatMap fun b hb => List.forall_mem_singleton.mpr ?_
    have := hlt b hb
    show b.base + 4 < seq
    omega
  case balanced =>
    refine forall_mem_flatMap fun b hb => List.forall_mem_singleton.mpr ?_
    have := hlt b hb
    show b.base + 4 < seq
    omega
  case listeners =>
    refine forall_mem_flatMap fun b hb => List.forall_mem_singleton.mpr ?_
    have := hlt b hb
    show b.base + 4 < seq ∧ b.base + 3 < seq
    omega
  case taskDefinitions =>
    refine forall_mem_flatMap fun b hb => List.forall_mem_singleton.mpr ?_
    have := hlt b hb
    show b.base + 8 < seq
    omega
  case repositories =>
    refine forall_mem_flatMap fun b hb r hr => ?_
    have := hlt b hb
    rw [(Block.eq_repository hr).2]
    show b.base + 9 < seq
    omega
  case containers =>
    refine forall_mem_flatMap fun b hb => List.forall_mem_singleton.mpr fun t ht => ?_
    have := hlt b hb
    have : b.base + 8 = t := Option.some.inj ht
    show t < seq
    omega
  case pulled =>
    refine forall_mem_flatMap fun b hb => List.forall_mem_singleton.mpr fun r hr => ?_
    have := hlt b hb
    have : b.base + 9 = r := by
      change (if createsRepository b.row then some (b.base + 9) else none) = some r at hr
      split at hr
      · exact Option.some.inj hr
      · cases hr
    show r < seq
    omega
  case services =>
    refine forall_mem_flatMap fun b hb => List.forall_mem_singleton.mpr ?_
    exact hservice b hb
  case defined =>
    refine forall_mem_flatMap fun b hb => List.forall_mem_singleton.mpr fun t ht => ?_
    have := hlt b hb
    have : b.base + 8 = t := Option.some.inj ht
    show t < seq
    omega
  case targeted =>
    refine forall_mem_flatMap fun b hb => List.forall_mem_singleton.mpr fun t ht => ?_
    have := hlt b hb
    have : b.base + 3 = t := Option.some.inj ht
    show t < seq
    omega
  case grouped =>
    refine forall_mem_flatMap fun b hb => List.forall_mem_singleton.mpr ?_
    have := hlt b hb
    have := hservice b hb
    show b.row.serviceId b.base < seq ∧ b.base < seq
    omega

theorem noRowsOf {app : String} (h : ∀ b ∈ blocks, b.row.appName ≠ app) :
    (dbOf regions seq blocks).NoRowsOf app := by
  have hne : ∀ b ∈ blocks, ∀ suffix : String, b.row.appName ++ suffix ≠ app ++ suffix :=
    fun b hb suffix heq => h b hb ((String.append_left_inj suffix).mp heq)
  constructor
  case targetGroups =>
    exact forall_mem_flatMap fun b hb => List.forall_mem_singleton.mpr (hne b hb _)
  case loadBalancers =>
    exact forall_mem_flatMap fun b hb => List.forall_mem_singleton.mpr (hne b hb _)
  case logGroups =>
    exact forall_mem_flatMap fun b hb => List.forall_mem_singleton.mpr (hne b hb _)
  case clusters =>
    exact forall_mem_flatMap fun b hb => List.forall_mem_singleton.mpr (hne b hb _)
  case iamRoles =>
    exact forall_mem_flatMap fun b hb => List.forall_mem_singleton.mpr (hne b hb _)
  case taskDefinitions =>
    exact forall_mem_flatMap fun b hb => List.forall_mem_singleton.mpr (hne b hb _)
  case repositories =>
    refine forall_mem_flatMap fun b hb r hr => ?_
    rw [(Block.eq_repository hr).2]
    exact hne b hb _
  case services =>
    exact forall_mem_flatMap fun b hb => List.forall_mem_singleton.mpr (hne b hb _)

theorem insert_dbOf (h : Laid seq blocks) {db' : Db}
    (hinsert : insertEcsSimplified new (dbOf regions seq blocks) = some db') :
    Laid (new.block seq).next (blocks ++ [new.block seq]) ∧
      db' = dbOf regions (new.block seq).next (blocks ++ [new.block seq]) := by
  have hfresh : ∀ b ∈ blocks, b.row.appName ≠ new.appName := by
    intro b hb heq
    have hmem : b.loadBalancer ∈ (dbOf regions seq blocks).loadBalancers :=
      List.mem_flatMap.mpr ⟨b, hb, List.mem_singleton.mpr rfl⟩
    exact fresh_of_insert hinsert b.loadBalancer hmem (congrArg (· ++ "-load-balancer") heq)
  have himage := imageGiven_of_insert hinsert
  rw [insertEcsSimplified_eq h.belowSeq (noRowsOf hfresh) (region_of_insert hinsert) himage]
    at hinsert
  refine ⟨h.snoc hfresh himage, ?_⟩
  rw [dbOf_add]
  exact (Option.some.inj hinsert).symm

end Layout

section Removal

variable {regions : List String} {seq : Nat} {blocks : List Block} {a b : Block}
  {old : EcsSimplified} {α : Type} {f : Block → List α}

theorem Laid.base_iff (h : Laid seq blocks) (ha : a ∈ blocks) (hb : b ∈ blocks) :
    a.base = b.base ↔ a.row.appName = b.row.appName :=
  ⟨fun heq => h.base_inj ha hb heq ▸ rfl, fun heq => h.name_inj ha hb heq ▸ rfl⟩

theorem Laid.service_iff (h : Laid seq blocks) (ha : a ∈ blocks) (hb : b ∈ blocks) :
    a.row.serviceId a.base = b.row.serviceId b.base ↔ a.row.appName = b.row.appName :=
  ⟨fun heq => h.service_inj ha hb heq ▸ rfl, fun heq => h.name_inj ha hb heq ▸ rfl⟩

def without (blocks : List Block) (b : Block) : List Block :=
  blocks.filter fun a => a.row.appName ≠ b.row.appName

theorem mem_without : a ∈ without blocks b ↔ a ∈ blocks ∧ a.row.appName ≠ b.row.appName := by
  simp [without]

theorem filter_name_ne (name : α → String) (suffix : String)
    (h : ∀ a ∈ blocks, ∀ x ∈ f a, name x = a.row.appName ++ suffix) :
    (blocks.flatMap f).filter (fun x => name x ≠ b.row.appName ++ suffix) =
      (without blocks b).flatMap f := by
  refine Blocks.filter_flatMap_eq fun a ha x hx => ?_
  rw [h a ha x hx]
  simp only [ne_eq, String.append_left_inj]

theorem filter_name_eq (hlaid : Laid seq blocks) (hb : b ∈ blocks) (name : α → String)
    (suffix : String) (h : ∀ a ∈ blocks, ∀ x ∈ f a, name x = a.row.appName ++ suffix) :
    (blocks.flatMap f).filter (fun x => name x = b.row.appName ++ suffix) = f b := by
  have hown : (blocks.flatMap f).filter (fun x => name x = b.row.appName ++ suffix) =
      (blocks.filter fun a => a.row.appName = b.row.appName).flatMap f := by
    refine Blocks.filter_flatMap_eq fun a ha x hx => ?_
    rw [h a ha x hx]
    simp only [String.append_left_inj]
  rw [hown, Blocks.filter_key_eq hlaid.names hb, List.flatMap_singleton]

theorem scalar_name_eq (hlaid : Laid seq blocks) (hb : b ∈ blocks) (name : α → String)
    (suffix : String) {x : α} {found : Option α}
    (h : ∀ a ∈ blocks, ∀ x ∈ f a, name x = a.row.appName ++ suffix) (hx : f b = [x])
    (hfound : scalar ((blocks.flatMap f).filter fun x => name x = b.row.appName ++ suffix) =
      some found) : found = some x := by
  rw [filter_name_eq hlaid hb name suffix h, hx] at hfound
  exact (Option.some.inj hfound).symm

theorem singleton_named {name : α → String} {suffix : String} {g : Block → α}
    (h : ∀ a : Block, name (g a) = a.row.appName ++ suffix) :
    ∀ a ∈ blocks, ∀ x ∈ [g a], name x = a.row.appName ++ suffix :=
  fun a _ => List.forall_mem_singleton.mpr (h a)

-- rows of one block each, by a condition that singles out the block deleted
theorem filter_ne_own {g : Block → α} {p : α → Bool}
    (h : ∀ a ∈ blocks, p (g a) = true ↔ a.row.appName = b.row.appName) :
    (blocks.flatMap fun a => [g a]).filter (fun x => !p x) =
      (without blocks b).flatMap fun a => [g a] := by
  refine Blocks.filter_flatMap_eq fun a ha => List.forall_mem_singleton.mpr ?_
  rw [Bool.eq_iff_iff, Bool.not_eq_true', ← Bool.not_eq_true, h a ha]
  simp

theorem filter_ne_other {g : Block → α} {p : α → Bool}
    (h : ∀ a ∈ blocks, p (g a) = true ↔ a.row.appName = b.row.appName) :
    ((without blocks b).flatMap fun a => [g a]).filter (fun x => !p x) =
      (without blocks b).flatMap fun a => [g a] := by
  refine Blocks.filter_flatMap_self fun a ha => List.forall_mem_singleton.mpr ?_
  obtain ⟨hmem, hne⟩ := mem_without.mp ha
  rw [Bool.not_eq_true', ← Bool.not_eq_true, h a hmem]
  exact hne

theorem filter_ne_twice {g : Block → α} {p q : α → Bool}
    (hp : ∀ a ∈ blocks, p (g a) = true ↔ a.row.appName = b.row.appName)
    (hq : ∀ a ∈ blocks, q (g a) = true ↔ a.row.appName = b.row.appName) :
    ((blocks.flatMap fun a => [g a]).filter fun x => !p x).filter (fun x => !q x) =
      (without blocks b).flatMap fun a => [g a] := by
  rw [filter_ne_own hp, filter_ne_other hq]

-- USING: a row of another table with the id and the name
theorem any_using (suffix : String) (h : Laid seq blocks) (ha : a ∈ blocks) {g : Block → α}
    {p : α → Bool} (hp : ∀ c, p (g c) = true ↔ c.base = a.base ∧
      c.row.appName ++ suffix = b.row.appName ++ suffix) :
    (blocks.flatMap fun c => [g c]).any p = true ↔ a.row.appName = b.row.appName := by
  rw [List.any_eq_true]
  constructor
  · rintro ⟨x, hx, hmatch⟩
    obtain ⟨c, hc, hmem⟩ := List.mem_flatMap.mp hx
    obtain rfl := List.mem_singleton.mp hmem
    obtain ⟨hbase, hname⟩ := (hp c).mp hmatch
    obtain rfl := h.base_inj hc ha hbase
    exact (String.append_left_inj suffix).mp hname
  · intro hname
    refine ⟨g a, List.mem_flatMap.mpr ⟨a, ha, List.mem_singleton.mpr rfl⟩, (hp a).mpr ⟨rfl, ?_⟩⟩
    rw [hname]

theorem ofFamily_iff (h : Laid seq blocks) (ha : a ∈ blocks) :
    (dbOf regions seq blocks).taskDefinitions.any (fun t =>
      sqlEq (a.row.ownContainer a.base).taskDefinitionId (some t.id) ∧
        t.family = b.row.appName ++ "-td") = true ↔ a.row.appName = b.row.appName := by
  refine any_using "-td" h ha (g := Block.taskDefinition) fun c => ?_
  have hid : a.base + 8 = c.base + 8 ↔ c.base = a.base := by omega
  exact decide_eq_true_iff.trans (and_congr (decide_eq_true_iff.trans hid) Iff.rfl)

theorem refers_singleton {n k : Nat} : refers [n] (some k) = true ↔ k = n := by
  simp [refers]

theorem delete_dbOf (h : Laid seq blocks) (hb : b ∈ blocks) (hname : old.appName = b.row.appName)
    (hrepository : old.imageDigest = none ∨ createsRepository b.row = false) {db' : Db}
    (hdelete : deleteEcsSimplified old (dbOf regions seq blocks) = some db') :
    db' = dbOf regions seq (without blocks b) := by
  obtain ⟨service, loadBalancer, targetGroup, hservice, hbalancer, htarget, rfl⟩ :=
    deleteEcsSimplified_eq hdelete
  rw [hname] at hservice hbalancer htarget ⊢
  obtain rfl := scalar_name_eq h hb Service.name _ (singleton_named fun _ => rfl) rfl hservice
  obtain rfl := scalar_name_eq h hb LoadBalancer.loadBalancerName _ (singleton_named fun _ => rfl)
    rfl hbalancer
  obtain rfl := scalar_name_eq h hb TargetGroup.targetGroupName _ (singleton_named fun _ => rfl)
    rfl htarget
  have hservices : serviceIds b.row.appName (dbOf regions seq blocks) =
      [b.row.serviceId b.base] :=
    congrArg (List.map Service.id)
      (filter_name_eq h hb Service.name "-service" (singleton_named fun _ => rfl))
  have htasks : taskDefinitionIds b.row.appName (dbOf regions seq blocks) = [b.base + 8] :=
    congrArg (List.map TaskDefinition.id)
      (filter_name_eq h hb TaskDefinition.family "-td" (singleton_named fun _ => rfl))
  have hbalancers : loadBalancerIds b.row.appName (dbOf regions seq blocks) = [b.base + 4] :=
    congrArg (List.map LoadBalancer.id) (filter_name_eq h hb LoadBalancer.loadBalancerName
      "-load-balancer" (singleton_named fun _ => rfl))
  have hgroups : securityGroupIds b.row.appName (dbOf regions seq blocks) = [b.base] :=
    congrArg (List.map SecurityGroup.id)
      (filter_name_eq h hb SecurityGroup.groupName "-security-group" (singleton_named fun _ => rfl))
  rw [hservices, htasks, hbalancers, hgroups]
  have hbase : ∀ a ∈ blocks, ∀ k, a.base + k = b.base + k ↔ a.row.appName = b.row.appName :=
    fun a ha k => Nat.add_right_cancel_iff.trans (h.base_iff ha hb)
  have hsql : ∀ {m k : Nat}, sqlEq (some m) (some k) = true ↔ m = k := decide_eq_true_iff
  refine Db.ext rfl rfl ?_ ?_ ?_ ?_ ?_ ?_ ?_ ?_ ?_ ?_ ?_ ?_ ?_ ?_
  · exact filter_name_ne _ _ (singleton_named fun _ => rfl)
  · refine Blocks.filter_flatMap_eq fun a ha r hr => ?_
    have hgroup : r.securityGroupId = some a.base := by
      obtain rfl | hr := List.mem_cons.mp hr
      · rfl
      · rw [List.mem_singleton.mp hr]
    have hany := any_using (b := b) "-security-group" h ha (g := fun c => (⟨c.base, c.row.appName ++ "-security-group",
      c.row.region⟩ : SecurityGroup)) (p := fun g => sqlEq (some g.id) (some a.base) ∧
      g.groupName = b.row.appName ++ "-security-group") fun c => by rw [decide_eq_true_iff, hsql]
    rw [Bool.eq_iff_iff, Bool.not_eq_true', ← Bool.not_eq_true, hgroup]
    exact (not_congr hany).trans decide_eq_true_iff.symm
  · exact filter_name_ne _ _ (singleton_named fun _ => rfl)
  · exact filter_name_ne _ _ (singleton_named fun _ => rfl)
  · refine (congrArg _ (filter_ne_twice (fun a ha => ?_) fun a ha => ?_)).trans
      (filter_ne_other fun a ha => ?_)
    · exact hsql.trans (hbase a ha 4)
    · exact refers_singleton.trans (hbase a ha 4)
    · exact refers_singleton.trans (hbase a ha 0)
  · refine filter_ne_own fun a ha => ?_
    rw [Bool.and_eq_true, and_iff_left_of_imp fun hbalancer => ?_]
    · exact hsql.trans (hbase a ha 4)
    · exact hsql.mpr ((hbase a ha 3).mpr ((hbase a ha 4).mp (hsql.mp hbalancer)))
  · exact filter_name_ne _ _ (singleton_named fun _ => rfl)
  · exact filter_name_ne _ _ (singleton_named fun _ => rfl)
  · exact filter_name_ne _ _ (singleton_named fun _ => rfl)
  · exact filter_name_ne _ _ (singleton_named fun _ => rfl)
  · show (if old.imageDigest.isNone = true then _ else _) = _
    split
    · refine filter_name_ne _ _ fun a _ r hr => ?_
      rw [(Block.eq_repository hr).2]
      rfl
    · next hsome =>
      have hnone := hrepository.resolve_left fun hnone => hsome (by rw [hnone]; rfl)
      refine (Blocks.flatMap_filter_eq fun a ha heq => ?_).symm
      obtain rfl : a = b := h.name_inj ha hb (by simpa using heq)
      exact if_neg (Bool.eq_false_iff.mp hnone)
  · refine filter_ne_twice (fun a ha => ?_) fun a ha => ?_
    · exact ofFamily_iff h ha
    · exact refers_singleton.trans (hbase a ha 8)
  · exact filter_name_ne _ _ (singleton_named fun _ => rfl)
  · refine (congrArg _ (filter_ne_twice (fun a ha => ?_) fun a ha => ?_)).trans
      (filter_ne_other fun a ha => ?_)
    · exact hsql.trans (h.service_iff ha hb)
    · exact refers_singleton.trans (h.service_iff ha hb)
    · exact refers_singleton.trans (hbase a ha 0)

end Removal

end Iasql.EcsSimplified
