import Iasql.ContainerRoundTrip
import Iasql.EcsTables
import Iasql.GeneratedKeys
import Iasql.LazyDep
import Iasql.TargetGroups

namespace Iasql.Fargate

open ContainerDefinitions GeneratedKeys OneSided
open EcsSimplified (AssignPublicIp TaskDefinitionStatus)
open Instances (IamRole)
open SecurityGroups (SecurityGroup)
open Elb (TargetGroup)

section Entities

structure Cluster where
  id : Option Nat := none
  clusterName : String

-- cpuMemory: what is read of AWS need not be one of the enum
structure TaskDefinition (C : Type) where
  id : Option Nat := none
  taskDefinitionArn : Option String := none
  family : String
  revision : Option Int := none
  taskRole : Option IamRole := none
  executionRole : Option IamRole := none
  status : Option TaskDefinitionStatus := none
  cpuMemory : Option String := none
  containerDefinitions : Option (List C) := none
  region : String

structure Service where
  id : Option Nat := none
  name : String
  arn : Option String := none
  status : Option String := none
  cluster : Option Cluster := none
  task : Option (TaskDefinition ContainerDefinition) := none
  desiredCount : Option Int := none
  subnets : Option (List String) := none
  securityGroups : Option (List SecurityGroup) := none
  assignPublicIp : Option AssignPublicIp := none
  targetGroup : Option TargetGroup := none
  region : String

abbrev Repositories : Type := Table Repository (·.id)

-- a container whose repository, where it has a key, is the row of it
abbrev Container (repositories : Repositories) : Type :=
  { c : ContainerDefinition // ∀ repository ∈ c.repository, repositories.Holds repository }

end Entities

section Mappers

def ServiceMapper.equals (a b : Service) : Bool :=
  a.desiredCount == b.desiredCount &&
    a.task.bind (·.taskDefinitionArn) == b.task.bind (·.taskDefinitionArn) &&
    a.cluster.map (·.clusterName) == b.cluster.map (·.clusterName) && a.arn == b.arn &&
    a.targetGroup.bind (·.targetGroupArn) == b.targetGroup.bind (·.targetGroupArn) &&
    a.name == b.name && a.status == b.status && a.assignPublicIp == b.assignPublicIp &&
    listed (fun asg bs => (bs.find? fun bsg => asg.groupId == bsg.groupId).isSome)
      a.securityGroups b.securityGroups &&
    listed (fun asn bs => (bs.find? fun bsn => asn == bsn).any (· != "")) a.subnets b.subnets

variable {repositories : Repositories}

-- the containers are read only where all that stands before them is equal
def TaskDefinitionMapper.equals (a b : TaskDefinition (Container repositories)) : Except Thrown Bool :=
  if a.cpuMemory == b.cpuMemory && a.executionRole.bind (·.arn) == b.executionRole.bind (·.arn) &&
      a.family == b.family && a.revision == b.revision && a.status == b.status &&
      a.taskDefinitionArn == b.taskDefinitionArn &&
      a.taskRole.bind (·.arn) == b.taskRole.bind (·.arn) then
    match a.containerDefinitions, b.containerDefinitions with
    | some as, some bs => .ok (as.length == bs.length &&
        as.all fun ac => (bs.find? fun bc => containersEq ac.1 bc.1).isSome)
    | _, _ => .error (.error "Cannot read properties of undefined (reading 'length')")
  else .ok false

end Mappers

section Columns

variable (reading : Reading)

def repositoryColumns (repository : Repository) : Repository :=
  { repository with id := reading.key repository.id }

def containerColumns (c : ContainerDefinition) : ContainerDefinition :=
  { c with
    id := reading.key c.id
    repository := c.repository.map (repositoryColumns reading)
    logGroup := c.logGroup.map fun logGroup => { logGroup with id := reading.key logGroup.id } }

def taskColumns {C : Type} (definition : C → ContainerDefinition) (a : TaskDefinition C) :
    TaskDefinition ContainerDefinition :=
  { a with
    id := reading.key a.id
    containerDefinitions := a.containerDefinitions.map
      (List.map fun c => containerColumns reading (definition c)) }

def targetGroupColumns (targetGroup : TargetGroup) : TargetGroup :=
  { targetGroup with
    id := reading.key targetGroup.id
    vpc := targetGroup.vpc.map (vpcColumns reading) }

def serviceColumns (a : Service) : Service :=
  { a with
    id := reading.key a.id
    cluster := a.cluster.map fun cluster => { cluster with id := reading.key cluster.id }
    task := a.task.map (taskColumns reading fun c => c)
    securityGroups := a.securityGroups.map (List.map (groupColumns reading))
    targetGroup := a.targetGroup.map (targetGroupColumns reading) }

end Columns

section Services

variable {reading : Reading}

def ServiceMapper.rest (a : Service) :=
  (a.desiredCount, a.task.bind (·.taskDefinitionArn), a.cluster.map (·.clusterName), a.arn,
    a.targetGroup.bind (·.targetGroupArn), a.name, a.status, a.assignPublicIp)

theorem ServiceMapper.rest_columns (a : Service) :
    ServiceMapper.rest (serviceColumns reading a) = ServiceMapper.rest a := by
  simp [ServiceMapper.rest, serviceColumns, taskColumns, targetGroupColumns, Option.bind_map,
    Function.comp_def]

-- the security groups by group id, and the subnets
def ServiceMapper.Same (a b : Service) : Prop :=
  SameBy (·.groupId) a.securityGroups b.securityGroups ∧ SameBy (fun subnet => subnet) a.subnets b.subnets

theorem ServiceMapper.parted (reading : Reading) :
    Parted (fun a b => ServiceMapper.equals a b = true)
      (fun a b => serviceColumns reading a = serviceColumns reading b) ServiceMapper.Same
      (fun a b => ServiceMapper.rest a = ServiceMapper.rest b)
      (fun a => (a.securityGroups, a.subnets))
      (Both (groups reading).Matches subnetIds.Matches) (Both (groups reading).Copies subnetIds.Copies)
      (Both (SameBy (·.groupId)) (SameBy fun subnet => subnet)) where
  equivalence := ⟨fun _ => rfl, Eq.symm, Eq.trans⟩
  eq_iff a b := by
    rw [Both, ← listed_groups, ← listed_subnetIds]
    simp only [ServiceMapper.equals, ServiceMapper.rest, Bool.and_eq_true, beq_iff_eq, Prod.mk.injEq,
      and_assoc]
  same_iff a b := Iff.rfl
  of_alike a b h := by
    have hrest := congrArg ServiceMapper.rest h
    rw [ServiceMapper.rest_columns, ServiceMapper.rest_columns] at hrest
    have hsubnets := congrArg Service.subnets h
    exact ⟨hrest, congrArg Service.securityGroups h, congrArg (Option.map (List.map subnetIds.columns)) hsubnets⟩
  replaced a p := by
    refine ⟨{ a with securityGroups := p.1, subnets := p.2 }, rfl, rfl, fun hcopies => ?_⟩
    obtain ⟨hgroups, hsubnets⟩ := hcopies
    have hgroups : a.securityGroups.map (List.map (groupColumns reading)) =
        p.1.map (List.map (groupColumns reading)) := hgroups
    have hsubnets : a.subnets = p.2 := by simpa [Elements.Copies, subnetIds] using hsubnets
    simp only [serviceColumns, hgroups, hsubnets]

theorem ServiceMapper.lawful_iff (reading : Reading) (a : Service) :
    Lawful (fun a b => ServiceMapper.equals a b = true)
        (fun a b => serviceColumns reading a = serviceColumns reading b) ServiceMapper.Same a ↔
      DistinctBy (·.groupId) (fun _ => True) a.securityGroups ∧
        DistinctBy (fun subnet => subnet) (· ≠ "") a.subnets := by
  refine ((ServiceMapper.parted reading).lawful_iff a).trans ((lawful_both ?_ ?_).trans ?_)
  · exact rfl
  · exact rfl
  · exact and_congr (lawful_groups a.securityGroups) (lawful_subnetIds a.subnets)

end Services

section Containers

variable {repositories : Repositories} {reading : Reading}

theorem objectIs_iff {value other : JsVal} :
    objectIs value other = true ↔ objectIs value value = true ∧ value = other := by
  cases value <;> cases other <;> simp [objectIs]

def environment (c : ContainerDefinition) (name : String) : Option JsVal := (c.envVariables.getD ∅).get? name

-- no variable has an empty name, or a list or an object for its value
def Findable (valueOf : String → Option JsVal) : Prop :=
  ∀ name value, valueOf name = some value → name ≠ "" ∧ objectIs value value = true

theorem entries_perm_iff {d e : Dict String JsVal} : d.entries.Perm e.entries ↔ d.get? = e.get? := by
  have hmem : ∀ {p : String × JsVal} {d : Dict String JsVal}, p ∈ d.entries ↔ d.get? p.1 = some p.2 :=
    fun {p d} => (Dict.get?_eq_some (k := p.1) (v := p.2)).symm
  rw [List.perm_ext_iff_of_nodup d.nodup.of_map e.nodup.of_map]
  constructor
  · intro h
    refine funext fun name => Option.ext fun value => ?_
    exact hmem.symm.trans ((h (name, value)).trans hmem)
  · intro h p
    rw [hmem, hmem, h]

theorem variable_found_iff {d : Dict String JsVal} {name : String} {value : JsVal} :
    ((d.entries.find? fun bv => name == bv.1 && objectIs value bv.2).map (·.1)).any (· != "") = true ↔
      name ≠ "" ∧ objectIs value value = true ∧ (name, value) ∈ d.entries := by
  rw [Option.any_map, Option.any_eq_true]
  constructor
  · rintro ⟨⟨other, found⟩, hfound, hne⟩
    have hsame := List.find?_some hfound
    rw [Bool.and_eq_true, beq_iff_eq, objectIs_iff] at hsame
    obtain ⟨rfl, hself, rfl⟩ := hsame
    exact ⟨bne_iff_ne.mp hne, hself, List.mem_of_find?_eq_some hfound⟩
  · rintro ⟨hne, hself, hmem⟩
    have hsome : (d.entries.find? fun bv => name == bv.1 && objectIs value bv.2).isSome = true := by
      refine List.find?_isSome.mpr ⟨(name, value), hmem, ?_⟩
      rw [Bool.and_eq_true, beq_iff_eq]
      exact ⟨rfl, hself⟩
    obtain ⟨⟨other, found⟩, hfound⟩ := Option.isSome_iff_exists.mp hsome
    have hsame := List.find?_some hfound
    rw [Bool.and_eq_true, beq_iff_eq] at hsame
    exact ⟨(other, found), hfound, bne_iff_ne.mpr (hsame.1 ▸ hne)⟩

theorem environments_iff {d e : Dict String JsVal} :
    envVariablesEq d e = true ↔ Findable d.get? ∧ d.get? = e.get? := by
  have hlength : ∀ d : Dict String JsVal, d.keys.length = d.entries.length := fun d => List.length_map _
  rw [envVariablesEq, Bool.and_eq_true, beq_iff_eq, List.all_eq_true, hlength, hlength, ← entries_perm_iff]
  simp only [variable_found_iff]
  constructor
  · rintro ⟨hequal, hall⟩
    have hsubset : d.entries ⊆ e.entries := fun p hp => (hall p hp).2.2
    refine ⟨fun name value h => ?_,
      (List.subperm_of_subset d.nodup.of_map hsubset).perm_of_length_le hequal.ge⟩
    obtain ⟨hne, hself, -⟩ := hall (name, value) (Dict.get?_eq_some.mp h)
    exact ⟨hne, hself⟩
  · rintro ⟨hfindable, hperm⟩
    refine ⟨hperm.length_eq, fun p hp => ?_⟩
    obtain ⟨hne, hself⟩ := hfindable p.1 p.2 (Dict.get?_eq_some.mpr hp)
    exact ⟨hne, hself, hperm.subset hp⟩

-- what is compared of a container besides its environment and its repository
def plainColumns (c : ContainerDefinition) :=
  (c.name, c.cpu, c.essential, c.logGroup.bind (·.logGroupArn), c.memory, c.memoryReservation,
    c.containerPort, c.hostPort, c.protocol, c.publicRepository.bind (·.repositoryName), c.image,
    c.digest, c.tag)

def comparedAs (c : ContainerDefinition) := (plainColumns c, environment c, c.repository.bind (·.id))

-- what a container defines: its repository is the one of its name and region
def defined (c : ContainerDefinition) :=
  (plainColumns c, environment c, c.repository.map fun repository => (repository.repositoryName, repository.region))

theorem containersEq_iff_compared {a b : ContainerDefinition} :
    containersEq a b = true ↔ Findable (environment a) ∧ comparedAs a = comparedAs b := by
  have hvariables : ∀ c : ContainerDefinition, (c.envVariables.getD ∅).get? = environment c := fun _ => rfl
  simp only [containersEq, Bool.and_eq_true, beq_iff_eq, environments_iff, hvariables, comparedAs,
    plainColumns, Prod.mk.injEq]
  tauto

def containers (repositories : Repositories) (reading : Reading) :=
  ({ key := fun c => comparedAs c.1
     columns := fun c => containerColumns reading c.1
     value := fun c => defined c.1
     skipped := fun _ => False
     findable := fun k => Findable k.2.1 } :
    Elements (Container repositories) _ ContainerDefinition _)

-- a container is told apart where its variables can be found and its repository has a key that counts
structure ToldApart (reading : Reading) (c : ContainerDefinition) : Prop where
  environment : Findable (environment c)
  repository : ∃ repository ∈ c.repository, repository.id.isSome = true
  reading : reading = .withKeys

theorem containerColumns_idem (c : ContainerDefinition) :
    containerColumns reading (containerColumns reading c) = containerColumns reading c := by
  cases hrepository : c.repository <;> cases hlogs : c.logGroup <;>
    simp [containerColumns, repositoryColumns, hrepository, hlogs]

theorem comparedAs_columns (c : ContainerDefinition) : comparedAs (containerColumns reading c) =
    (plainColumns c, environment c, c.repository.bind fun repository => reading.key repository.id) := by
  have hplain : plainColumns (containerColumns reading c) = plainColumns c := by
    cases hlogs : c.logGroup <;> simp [plainColumns, containerColumns, hlogs]
  have hkey : (containerColumns reading c).repository.bind (·.id) =
      c.repository.bind fun repository => reading.key repository.id := by
    cases hrepository : c.repository <;> simp [containerColumns, repositoryColumns, hrepository]
  rw [comparedAs, hplain, hkey]
  rfl

def unnamed : Repository where
  repositoryName := ""
  located := by
    intro uri h
    cases h
  region := ""

theorem told_containers (c : Container repositories) :
    (containers repositories reading).Told c ↔ ToldApart reading c.1 := by
  constructor
  · intro h
    have hrepository : ∃ repository ∈ c.1.repository, repository.id.isSome = true := by
      by_contra hno
      have hnone : c.1.repository.bind (·.id) = none := by
        cases hrepository : c.1.repository with
        | none => rfl
        | some repository =>
          refine Option.not_isSome_iff_eq_none.mp fun hkey => hno ⟨repository, hrepository, hkey⟩
      -- whether there is a repository, without a key, is not compared
      have hother : ∀ repository : Option Repository, (∀ r ∈ repository, r.id = none) →
          defined c.1 = defined { c.1 with repository := repository } := by
        intro repository hkeys
        refine h.value ⟨{ c.1 with repository := repository }, fun r hr => holds_of_none (hkeys r hr)⟩ ?_
        have hcompared : repository.bind (·.id) = none := Option.bind_eq_none_iff.mpr hkeys
        simp only [containers, comparedAs, hnone, hcompared]
        rfl
      have habsent := hother none fun r hr => absurd hr (Option.not_mem_none r)
      have hpresent := hother (some unnamed) fun r hr => by
        obtain rfl := Option.some.inj hr
        rfl
      have hrepositories := (Prod.mk.inj (Prod.mk.inj (habsent.symm.trans hpresent)).2).2
      cases hrepositories
    refine ⟨h.findable, hrepository, ?_⟩
    cases reading with
    | withKeys => rfl
    | withoutKeys =>
      obtain ⟨repository, hmem, hkey⟩ := hrepository
      have hholds : ∀ r ∈ (containerColumns .withoutKeys c.1).repository, repositories.Holds r := by
        intro r hr
        obtain ⟨original, -, rfl⟩ := Option.mem_map.mp hr
        exact holds_of_none rfl
      have hcopy := h.columns ⟨containerColumns .withoutKeys c.1, hholds⟩ (containerColumns_idem c.1).symm
      have hcompared : comparedAs c.1 = comparedAs (containerColumns .withoutKeys c.1) := hcopy
      rw [comparedAs_columns] at hcompared
      have hkeys := (Prod.mk.inj (Prod.mk.inj hcompared).2).2
      rw [Option.mem_def.mp hmem] at hkeys
      have hnone : repository.id = none := hkeys
      rw [hnone] at hkey
      cases hkey
  · rintro ⟨hfindable, ⟨repository, hmem, hkey⟩, rfl⟩
    obtain ⟨i, hi⟩ := Option.isSome_iff_exists.mp hkey
    refine ⟨not_false, hfindable, fun other hother => ?_, fun other hother => ?_⟩
    · obtain ⟨hplain, hrest⟩ := Prod.mk.inj (hother : comparedAs c.1 = comparedAs other.1)
      obtain ⟨hvariables, hkeys⟩ := Prod.mk.inj hrest
      rw [Option.mem_def.mp hmem, Option.bind_some, hi] at hkeys
      obtain ⟨found, hfound, hid⟩ := Option.bind_eq_some_iff.mp hkeys.symm
      have hrow : repository = found := (c.2 repository hmem i hi).trans (other.2 found hfound i hid).symm
      show defined c.1 = defined other.1
      rw [defined, defined, hplain, hvariables, Option.mem_def.mp hmem, hfound, hrow]
    · have hsame : containerColumns .withKeys c.1 = containerColumns .withKeys other.1 := hother
      have hcolumns := congrArg comparedAs hsame
      rw [comparedAs_columns, comparedAs_columns] at hcolumns
      exact hcolumns

theorem fresh_containers (ks : List _) : ∃ y, (containers repositories reading).key y ∉ ks ∧
    ¬ (containers repositories reading).skipped ((containers repositories reading).key y) := by
  obtain ⟨name, hname⟩ := Infinite.exists_notMem_finset (ks.map fun k => k.1.1).toFinset
  refine ⟨⟨{ name := name, region := "" }, fun r hr => absurd hr (Option.not_mem_none r)⟩, fun h => ?_,
    not_false⟩
  exact hname (List.mem_toFinset.mpr (List.mem_map.mpr ⟨_, h, rfl⟩))

end Containers

section TaskDefinitions

variable {repositories : Repositories} {reading : Reading}

def TaskDefinitionMapper.rest {C : Type} (a : TaskDefinition C) :=
  (a.cpuMemory, a.executionRole.bind (·.arn), a.family, a.revision, a.status, a.taskDefinitionArn,
    a.taskRole.bind (·.arn))

theorem TaskDefinitionMapper.equals_iff {a b : TaskDefinition (Container repositories)} :
    TaskDefinitionMapper.equals a b = .ok true ↔
      TaskDefinitionMapper.rest a = TaskDefinitionMapper.rest b ∧
        (containers repositories reading).Matches a.containerDefinitions b.containerDefinitions := by
  have hfound : ∀ (c : Container repositories) (cs : List (Container repositories)),
      (cs.find? fun bc => containersEq c.1 bc.1).isSome = true ↔
        (containers repositories reading).skipped ((containers repositories reading).key c) ∨
          (containers repositories reading).findable ((containers repositories reading).key c) ∧
            (containers repositories reading).key c ∈ cs.map (containers repositories reading).key := by
    intro c cs
    rw [List.find?_isSome]
    simp only [containersEq_iff_compared, containers, false_or, List.mem_map]
    constructor
    · rintro ⟨other, hmem, hfindable, hsame⟩
      exact ⟨hfindable, other, hmem, hsame.symm⟩
    · rintro ⟨hfindable, other, hmem, hsame⟩
      exact ⟨other, hmem, hfindable, hsame.symm⟩
  rw [← listed_iff hfound, TaskDefinitionMapper.equals]
  have hrest : (a.cpuMemory == b.cpuMemory && a.executionRole.bind (·.arn) == b.executionRole.bind (·.arn) &&
      a.family == b.family && a.revision == b.revision && a.status == b.status &&
      a.taskDefinitionArn == b.taskDefinitionArn &&
      a.taskRole.bind (·.arn) == b.taskRole.bind (·.arn)) = true ↔
        TaskDefinitionMapper.rest a = TaskDefinitionMapper.rest b := by
    simp only [Bool.and_eq_true, beq_iff_eq, TaskDefinitionMapper.rest, Prod.mk.injEq, and_assoc]
  by_cases h : TaskDefinitionMapper.rest a = TaskDefinitionMapper.rest b
  · rw [if_pos (hrest.mpr h), and_iff_right h]
    cases a.containerDefinitions <;> cases b.containerDefinitions <;> simp [listed]
  · rw [if_neg (mt hrest.mp h)]
    exact iff_of_false (fun hfalse => by cases hfalse) fun hboth => h hboth.1

theorem TaskDefinitionMapper.parted (repositories : Repositories) (reading : Reading) :
    Parted (fun a b => TaskDefinitionMapper.equals a b = .ok true)
      (fun a b : TaskDefinition (Container repositories) =>
        taskColumns reading Subtype.val a = taskColumns reading Subtype.val b)
      (fun a b => SameBy (fun c => defined c.1) a.containerDefinitions b.containerDefinitions)
      (fun a b => TaskDefinitionMapper.rest a = TaskDefinitionMapper.rest b)
      (fun a => a.containerDefinitions) (containers repositories reading).Matches
      (containers repositories reading).Copies (SameBy fun c => defined c.1) where
  equivalence := ⟨fun _ => rfl, Eq.symm, Eq.trans⟩
  eq_iff a b := TaskDefinitionMapper.equals_iff
  same_iff a b := Iff.rfl
  of_alike a b h := by
    have hrest := congrArg TaskDefinitionMapper.rest h
    exact ⟨hrest, congrArg TaskDefinition.containerDefinitions h⟩
  replaced a p := by
    refine ⟨{ a with containerDefinitions := p }, rfl, rfl, fun hcopies => ?_⟩
    have hcopies : a.containerDefinitions.map (List.map fun c => containerColumns reading c.1) =
      p.map (List.map fun c => containerColumns reading c.1) := hcopies
    simp only [taskColumns, hcopies]

theorem TaskDefinitionMapper.lawful_iff (reading : Reading) (a : TaskDefinition (Container repositories)) :
    Lawful (fun a b => TaskDefinitionMapper.equals a b = .ok true)
        (fun a b => taskColumns reading Subtype.val a = taskColumns reading Subtype.val b)
        (fun a b => SameBy (fun c => defined c.1) a.containerDefinitions b.containerDefinitions) a ↔
      DistinctBy (fun c => comparedAs c.1) (fun c => ToldApart reading c.1) a.containerDefinitions :=
  ((TaskDefinitionMapper.parted repositories reading).lawful_iff a).trans
    ((OneSided.lawful_iff fresh_containers).trans (distinctBy_congr told_containers))

end TaskDefinitions

end Iasql.Fargate
