import Mathlib.Data.List.Basic
import Mathlib.Tactic.Common

namespace Iasql.EcsSimplified

section Enums

inductive CpuMemory where
  | vCPU0p25x0p5GB | vCPU0p25x1GB | vCPU0p25x2GB | vCPU0p5x1GB | vCPU0p5x2GB | vCPU0p5x3GB
  | vCPU0p5x4GB | vCPU1x2GB | vCPU1x3GB | vCPU1x4GB | vCPU1x5GB | vCPU1x6GB | vCPU1x7GB
  | vCPU1x8GB | vCPU2x4GB | vCPU2x5GB | vCPU2x6GB | vCPU2x7GB | vCPU2x8GB | vCPU2x9GB | vCPU2x10GB
  | vCPU2x11GB | vCPU2x12GB | vCPU2x13GB | vCPU2x14GB | vCPU2x15GB | vCPU2x16GB | vCPU4x8GB
  | vCPU4x9GB | vCPU4x10GB | vCPU4x11GB | vCPU4x12GB | vCPU4x13GB | vCPU4x14GB | vCPU4x15GB
  | vCPU4x16GB | vCPU4x17GB | vCPU4x18GB | vCPU4x19GB | vCPU4x20GB | vCPU4x21GB | vCPU4x22GB
  | vCPU4x23GB | vCPU4x24GB | vCPU4x25GB | vCPU4x26GB | vCPU4x27GB | vCPU4x28GB | vCPU4x29GB
  | vCPU4x30GB
deriving DecidableEq

def CpuMemory.label : CpuMemory → String
  | .vCPU0p25x0p5GB => "vCPU0.25-0.5GB"
  | .vCPU0p25x1GB => "vCPU0.25-1GB"
  | .vCPU0p25x2GB => "vCPU0.25-2GB"
  | .vCPU0p5x1GB => "vCPU0.5-1GB"
  | .vCPU0p5x2GB => "vCPU0.5-2GB"
  | .vCPU0p5x3GB => "vCPU0.5-3GB"
  | .vCPU0p5x4GB => "vCPU0.5-4GB"
  | .vCPU1x2GB => "vCPU1-2GB"
  | .vCPU1x3GB => "vCPU1-3GB"
  | .vCPU1x4GB => "vCPU1-4GB"
  | .vCPU1x5GB => "vCPU1-5GB"
  | .vCPU1x6GB => "vCPU1-6GB"
  | .vCPU1x7GB => "vCPU1-7GB"
  | .vCPU1x8GB => "vCPU1-8GB"
  | .vCPU2x4GB => "vCPU2-4GB"
  | .vCPU2x5GB => "vCPU2-5GB"
  | .vCPU2x6GB => "vCPU2-6GB"
  | .vCPU2x7GB => "vCPU2-7GB"
  | .vCPU2x8GB => "vCPU2-8GB"
  | .vCPU2x9GB => "vCPU2-9GB"
  | .vCPU2x10GB => "vCPU2-10GB"
  | .vCPU2x11GB => "vCPU2-11GB"
  | .vCPU2x12GB => "vCPU2-12GB"
  | .vCPU2x13GB => "vCPU2-13GB"
  | .vCPU2x14GB => "vCPU2-14GB"
  | .vCPU2x15GB => "vCPU2-15GB"
  | .vCPU2x16GB => "vCPU2-16GB"
  | .vCPU4x8GB => "vCPU4-8GB"
  | .vCPU4x9GB => "vCPU4-9GB"
  | .vCPU4x10GB => "vCPU4-10GB"
  | .vCPU4x11GB => "vCPU4-11GB"
  | .vCPU4x12GB => "vCPU4-12GB"
  | .vCPU4x13GB => "vCPU4-13GB"
  | .vCPU4x14GB => "vCPU4-14GB"
  | .vCPU4x15GB => "vCPU4-15GB"
  | .vCPU4x16GB => "vCPU4-16GB"
  | .vCPU4x17GB => "vCPU4-17GB"
  | .vCPU4x18GB => "vCPU4-18GB"
  | .vCPU4x19GB => "vCPU4-19GB"
  | .vCPU4x20GB => "vCPU4-20GB"
  | .vCPU4x21GB => "vCPU4-21GB"
  | .vCPU4x22GB => "vCPU4-22GB"
  | .vCPU4x23GB => "vCPU4-23GB"
  | .vCPU4x24GB => "vCPU4-24GB"
  | .vCPU4x25GB => "vCPU4-25GB"
  | .vCPU4x26GB => "vCPU4-26GB"
  | .vCPU4x27GB => "vCPU4-27GB"
  | .vCPU4x28GB => "vCPU4-28GB"
  | .vCPU4x29GB => "vCPU4-29GB"
  | .vCPU4x30GB => "vCPU4-30GB"

def CpuMemory.all : List CpuMemory :=
  [.vCPU0p25x0p5GB, .vCPU0p25x1GB, .vCPU0p25x2GB, .vCPU0p5x1GB, .vCPU0p5x2GB, .vCPU0p5x3GB,
    .vCPU0p5x4GB, .vCPU1x2GB, .vCPU1x3GB, .vCPU1x4GB, .vCPU1x5GB, .vCPU1x6GB, .vCPU1x7GB,
    .vCPU1x8GB, .vCPU2x4GB, .vCPU2x5GB, .vCPU2x6GB, .vCPU2x7GB, .vCPU2x8GB, .vCPU2x9GB,
    .vCPU2x10GB, .vCPU2x11GB, .vCPU2x12GB, .vCPU2x13GB, .vCPU2x14GB, .vCPU2x15GB, .vCPU2x16GB,
    .vCPU4x8GB, .vCPU4x9GB, .vCPU4x10GB, .vCPU4x11GB, .vCPU4x12GB, .vCPU4x13GB, .vCPU4x14GB,
    .vCPU4x15GB, .vCPU4x16GB, .vCPU4x17GB, .vCPU4x18GB, .vCPU4x19GB, .vCPU4x20GB, .vCPU4x21GB,
    .vCPU4x22GB, .vCPU4x23GB, .vCPU4x24GB, .vCPU4x25GB, .vCPU4x26GB, .vCPU4x27GB, .vCPU4x28GB,
    .vCPU4x29GB, .vCPU4x30GB]

-- the cast of a text to the enum
def CpuMemory.ofLabel (label : String) : Option CpuMemory :=
  CpuMemory.all.find? fun c => c.label = label

inductive AssignPublicIp where
  | disabled | enabled
deriving DecidableEq

inductive TaskDefinitionStatus where
  | active | inactive
deriving DecidableEq

inductive TargetType where
  | alb | ec2Instance | ip | lambda
deriving DecidableEq

inductive Protocol where
  | geneve | http | https | tcp | tcpUdp | tls | udp
deriving DecidableEq

inductive Scheme where
  | internal | internetFacing
deriving DecidableEq

inductive LoadBalancerType where
  | application | gateway | network
deriving DecidableEq

inductive IpAddressType where
  | dualstack | ipv4
deriving DecidableEq

inductive ActionType where
  | forward
deriving DecidableEq

end Enums

section Rows

structure EcsSimplified where
  appName : String
  desiredCount : Int
  appPort : Int
  cpuMem : CpuMemory
  repositoryUri : Option String
  imageTag : Option String
  imageDigest : Option String
  publicIp : Bool
  loadBalancerDns : Option String
  envVariables : Option String
  region : String
  appName_length : appName.length ≤ 18
  validImageFields : imageTag = none ∨ imageDigest = none
deriving DecidableEq

structure SecurityGroup where
  id : Nat
  groupName : String
  region : String
deriving DecidableEq

structure SecurityGroupRule where
  id : Nat
  isEgress : Bool
  ipProtocol : Option String
  fromPort : Option Int
  toPort : Option Int
  cidrIpv4 : Option String
  securityGroupId : Option Nat
  region : String
deriving DecidableEq

structure TargetGroup where
  id : Nat
  targetGroupName : String
  targetType : TargetType
  protocol : Option Protocol
  port : Option Int
  healthCheckPath : Option String
  region : String
deriving DecidableEq

structure LoadBalancer where
  id : Nat
  loadBalancerName : String
  dnsName : Option String
  scheme : Scheme
  loadBalancerType : LoadBalancerType
  ipAddressType : IpAddressType
  region : String
deriving DecidableEq

structure LoadBalancerSecurityGroup where
  loadBalancerId : Nat
  securityGroupId : Nat
deriving DecidableEq

structure Listener where
  id : Nat
  loadBalancerId : Nat
  port : Int
  protocol : Protocol
  actionType : ActionType
  targetGroupId : Nat
deriving DecidableEq

structure LogGroup where
  id : Nat
  logGroupName : String
  region : String
deriving DecidableEq

structure Cluster where
  id : Nat
  clusterName : String
  region : String
deriving DecidableEq

structure IamRole where
  roleName : String
deriving DecidableEq

structure TaskDefinition where
  id : Nat
  family : String
  revision : Option Int
  status : Option TaskDefinitionStatus
  cpuMemory : Option CpuMemory
  region : String
  taskRoleName : Option String
  executionRoleName : Option String
deriving DecidableEq

structure Repository where
  id : Nat
  repositoryName : String
  repositoryUri : Option String
  region : String
deriving DecidableEq

structure ContainerDefinition where
  id : Nat
  name : String
  essential : Bool
  image : Option String
  tag : Option String
  digest : Option String
  cpu : Option Int
  memory : Option Int
  hostPort : Option Int
  containerPort : Option Int
  envVariables : Option String
  region : String
  taskDefinitionId : Option Nat
  repositoryId : Option Nat
  publicRepositoryName : Option String
  logGroupId : Option Nat
deriving DecidableEq

structure Service where
  id : Nat
  name : String
  desiredCount : Int
  assignPublicIp : AssignPublicIp
  region : String
  clusterId : Option Nat
  taskDefinitionId : Option Nat
  targetGroupId : Option Nat
deriving DecidableEq

structure ServiceSecurityGroup where
  serviceId : Nat
  securityGroupId : Nat
deriving DecidableEq

-- regions are those of aws_regions; seq is the next value of every id sequence
@[ext]
structure Db where
  regions : List String
  seq : Nat
  securityGroups : List SecurityGroup
  securityGroupRules : List SecurityGroupRule
  targetGroups : List TargetGroup
  loadBalancers : List LoadBalancer
  loadBalancerSecurityGroups : List LoadBalancerSecurityGroup
  listeners : List Listener
  logGroups : List LogGroup
  clusters : List Cluster
  iamRoles : List IamRole
  taskDefinitions : List TaskDefinition
  repositories : List Repository
  containerDefinitions : List ContainerDefinition
  services : List Service
  serviceSecurityGroups : List ServiceSecurityGroup
deriving DecidableEq

end Rows

section Queries

variable {α : Type}

-- a comparison with NULL is not true
def sqlEq [DecidableEq α] : Option α → Option α → Bool
  | some a, some b => a = b
  | _, _ => false

-- a sub-select used as a value raises when it has several rows
def scalar : List α → Option (Option α)
  | [] => some none
  | [a] => some (some a)
  | _ => none

def exactlyOne (p : α → Bool) (rows : List α) : Bool := rows.countP p = 1

-- INSERT under a unique constraint
def insertUnique (clash : α → Bool) (row : α) (rows : List α) : Option (List α) :=
  if rows.any clash then none else some (rows ++ [row])

-- SPLIT_PART(text, '-', 1)
def splitPart (text : String) : String := String.ofList (text.toList.takeWhile (· ≠ '-'))

-- a value for a column of at most 18 characters: only spaces may be cut off
def varchar18 (text : String) : Option String :=
  if text.length ≤ 18 then some text
  else if (text.toList.drop 18).all (· = ' ') then some (String.ofList (text.toList.take 18))
  else none

theorem insertUnique_eq {clash : α → Bool} {row : α} {rows : List α}
    (h : ∀ r ∈ rows, clash r = false) : insertUnique clash row rows = some (rows ++ [row]) := by
  refine if_neg fun hany => ?_
  obtain ⟨r, hr, hclash⟩ := List.any_eq_true.mp hany
  rw [h r hr] at hclash
  cases hclash

theorem insertUnique_eq_some_iff {clash : α → Bool} {row : α} {l rows : List α} :
    insertUnique clash row l = some rows ↔ rows = l ++ [row] ∧ ∀ r ∈ l, clash r = false := by
  constructor
  · intro h
    unfold insertUnique at h
    split at h
    · cases h
    · next hany =>
      cases h
      refine ⟨rfl, fun r hr => eq_false_of_ne_true fun hclash => hany ?_⟩
      exact List.any_eq_true.mpr ⟨r, hr, hclash⟩
  · rintro ⟨rfl, h⟩
    exact insertUnique_eq h

theorem filter_snoc {p : α → Bool} {l : List α} {a : α} (h : ∀ b ∈ l, p b = false)
    (ha : p a = true) : (l ++ [a]).filter p = [a] := by
  have hnone : l.filter p = [] := List.filter_eq_nil_iff.mpr fun b hb => by simp [h b hb]
  rw [List.filter_append, hnone, List.nil_append, List.filter_singleton, ha]
  rfl

theorem scalar_snoc {p : α → Bool} {l : List α} {a : α} (h : ∀ b ∈ l, p b = false)
    (ha : p a = true) : scalar ((l ++ [a]).filter p) = some (some a) := by
  rw [filter_snoc h ha]
  rfl

theorem find?_snoc {p : α → Bool} {l : List α} {a : α} (h : ∀ b ∈ l, p b = false)
    (ha : p a = true) : (l ++ [a]).find? p = some a := by
  rw [List.find?_append, List.find?_eq_none.mpr fun b hb => by simp [h b hb]]
  simp [ha]

theorem sqlEq_some_iff [DecidableEq α] {a b : Option α} :
    sqlEq a b = true ↔ ∃ x, a = some x ∧ b = some x := by
  cases a with
  | none => simp [sqlEq]
  | some x =>
    cases b with
    | none => simp [sqlEq]
    | some y => simp [sqlEq, eq_comm]

theorem varchar18_length {text name : String} (h : varchar18 text = some name) :
    name.length ≤ 18 := by
  unfold varchar18 at h
  split at h
  · next hshort =>
    cases h
    exact hshort
  · split at h
    · cases h
      rw [String.length_ofList, List.length_take]
      omega
    · cases h

theorem varchar18_eq_self {text : String} (h : text.length ≤ 18) : varchar18 text = some text :=
  if_pos h

theorem scalar_isSome_iff {l : List α} : (scalar l).isSome = true ↔ l.length ≤ 1 := by
  match l with
  | [] => simp [scalar]
  | [a] => simp [scalar]
  | a :: b :: l => simp [scalar]

theorem filter_length_le_one {p : α → Bool} {l : List α}
    (h : l.Pairwise fun a b => ¬(p a = true ∧ p b = true)) : (l.filter p).length ≤ 1 := by
  match hfilter : l.filter p with
  | [] => simp
  | [a] => simp
  | a :: b :: rest =>
    have hpair := h.filter p
    rw [hfilter, List.pairwise_cons] at hpair
    have ha : p a = true := List.of_mem_filter (p := p) (l := l) (by simp [hfilter])
    have hb : p b = true := List.of_mem_filter (p := p) (l := l) (by simp [hfilter])
    exact absurd ⟨ha, hb⟩ (hpair.1 b List.mem_cons_self)

theorem sqlEq_none [DecidableEq α] (a : Option α) : sqlEq a none = false := by
  cases a <;> rfl

theorem sqlEq_self [DecidableEq α] (a : α) : sqlEq (some a) (some a) = true :=
  decide_eq_true rfl

theorem not_sqlEq_below {a : Option Nat} {n k : Nat} (ha : ∀ x, a = some x → x < n)
    (hk : n ≤ k) : ¬sqlEq (some k) a = true := by
  intro h
  obtain ⟨x, hx, rfl⟩ := sqlEq_some_iff.mp h
  obtain rfl := Option.some.inj hx
  exact absurd (ha k rfl) (Nat.not_lt.mpr hk)

theorem not_sqlEq_above {a : Option Nat} {n k : Nat} (ha : ∀ x, a = some x → x < n)
    (hk : n ≤ k) : ¬sqlEq a (some k) = true := by
  intro h
  obtain ⟨x, rfl, hx⟩ := sqlEq_some_iff.mp h
  obtain rfl := Option.some.inj hx
  exact absurd (ha k rfl) (Nat.not_lt.mpr hk)

theorem mem_of_scalar {a : α} {l : List α} (h : scalar l = some (some a)) : a ∈ l := by
  match l with
  | [] => cases h
  | [b] =>
    obtain rfl := Option.some.inj (Option.some.inj h)
    exact List.mem_cons_self
  | _ :: _ :: _ => cases h

theorem not_sqlEq_ne {a k : Nat} (h : a ≠ k) : ¬sqlEq (some a) (some k) = true :=
  fun heq => h (of_decide_eq_true heq)

end Queries

end Iasql.EcsSimplified
