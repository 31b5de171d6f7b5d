import Iasql.Commit
import Iasql.ModSort

namespace Iasql

open Program Prog

section Order

variable {W E : Type} {imported mods : List (Module W E)} {names tables : List String}
  {versionString : String}

-- no module of the list depends on one that comes after it
def DependencyOrdered (mods : List (Module W E)) : Prop :=
  mods.Pairwise fun m m' => m'.fullName ∉ m.dependencies

def DependencyClosed (mods : List (Module W E)) (names : List String) : Prop :=
  ∀ m ∈ mods, m.fullName ∈ names → ∀ d ∈ m.dependencies, d ∈ names

instance (mods : List (Module W E)) : Decidable (DependencyOrdered mods) :=
  inferInstanceAs (Decidable (mods.Pairwise _))

instance (mods : List (Module W E)) (names : List String) :
    Decidable (DependencyClosed mods names) :=
  inferInstanceAs (Decidable (∀ m ∈ mods, m.fullName ∈ names → ∀ d ∈ m.dependencies, d ∈ names))

theorem sortLoop_still {fuel : Nat} (hfuel : mods.length ≤ fuel)
    (h : ∀ m ∈ mods, ∀ d ∈ m.dependencies, d ∈ names) :
    sortLoop fuel (mods.map some) names = some mods := by
  induction mods generalizing fuel names with
  | nil => cases fuel <;> rfl
  | cons m mods ih =>
    cases fuel with
    | zero => simp at hfuel
    | succ fuel =>
      have hready : m.dependencies.all names.contains = true :=
        List.all_eq_true.mpr fun d hd => by simpa using h m (by simp) d hd
      have hrest := @ih (m.fullName :: names) fuel (by simpa using hfuel)
        fun m' hm' d hd => List.mem_cons_of_mem _ (h m' (by simp [hm']) d hd)
      rw [List.map_cons, sortLoop, if_pos hready, hrest]
      rfl

theorem sortModules_still (h : ∀ m ∈ mods, ∀ d ∈ m.dependencies, d ∈ names) :
    sortModules (mods.map some) names = some mods := by
  refine sortLoop_still ?_ h
  rw [List.length_map]
  have hsquare : mods.length + 1 ≤ (mods.length + 1) * (mods.length + 1) := Nat.le_mul_self _
  omega

theorem installed_dependencies (h : DependencyClosed imported names) :
    ∀ m ∈ imported.filter fun mod => names.contains mod.fullName, ∀ d ∈ m.dependencies, d ∈ names := by
  intro m hm d hd
  obtain ⟨himported, hname⟩ := List.mem_filter.mp hm
  exact h m himported (by simpa using hname) d hd

theorem getModulesWithChanges_closed (h : ∀ m ∈ mods, ∀ d ∈ m.dependencies, d ∈ names) :
    getModulesWithChanges imported mods names tables versionString =
      (mods.filter fun mod => mod.tables.any fun t => tables.contains t).map some := by
  have hnone : ((mods.filter fun mod => mod.tables.any fun t => tables.contains t).flatMap fun m =>
      m.dependencies.filter fun d => !names.contains d) = [] := by
    rw [List.flatMap_eq_nil_iff]
    intro m hm
    rw [List.filter_eq_nil_iff]
    intro d hd
    simpa using h m (List.mem_of_mem_filter hm) d hd
  simp only [getModulesWithChanges, hnone]
  simp [dedup]

-- the modules of commit and rollback are in the order of their export
theorem commit_order_iff (h : DependencyClosed imported names) :
    (∃ installedModulesSorted, sortModules ((imported.filter fun mod =>
          names.contains mod.fullName).map some) names = some installedModulesSorted ∧
        DependencyOrdered installedModulesSorted ∧
          ∀ tablesWithChanges versionString, ∃ modulesWithChangesSorted,
            sortModules (getModulesWithChanges imported (imported.filter fun mod =>
              names.contains mod.fullName) names tablesWithChanges versionString) names =
                some modulesWithChangesSorted ∧ DependencyOrdered modulesWithChangesSorted) ↔
      DependencyOrdered (imported.filter fun mod => names.contains mod.fullName) := by
  have hdependencies := installed_dependencies h
  have hstill := sortModules_still hdependencies
  constructor
  · rintro ⟨out, hout, hordered, -⟩
    rw [hstill] at hout
    exact Option.some.inj hout ▸ hordered
  · intro hordered
    refine ⟨_, hstill, hordered, fun tablesWithChanges versionString => ?_⟩
    rw [getModulesWithChanges_closed hdependencies]
    refine ⟨_, sortModules_still fun m hm => hdependencies m (List.mem_of_mem_filter hm), ?_⟩
    exact hordered.filter _

def awsSecurityGroup : Module Unit Unit where
  name := "aws_security_group"
  version := "0.0.1"
  dependencies := ["iasql_platform@0.0.1", "aws_account@0.0.1", "aws_vpc@0.0.1"]
  tables := ["security_group", "security_group_rule"]
  mappers := []

def awsNames : List String :=
  ["iasql_platform@0.0.1", "aws_account@0.0.1", "aws_vpc@0.0.1", "aws_security_group@0.0.1"]

theorem commit_order_of_dependencies :
    ∃ installedModulesSorted, sortModules (([iasqlPlatform, awsAccount, awsVpc,
        awsSecurityGroup].filter fun mod => awsNames.contains mod.fullName).map some) awsNames =
          some installedModulesSorted ∧ DependencyOrdered installedModulesSorted := by
  obtain ⟨out, hout, hordered, -⟩ := (@commit_order_iff Unit Unit
    [iasqlPlatform, awsAccount, awsVpc, awsSecurityGroup] awsNames (by decide +kernel)).mpr (by decide +kernel)
  exact ⟨out, hout, hordered⟩

-- in the order of the export, a security group comes before the vpc it is in
theorem commit_order_of_export :
    let imported := [awsAccount, awsSecurityGroup, awsVpc, iasqlPlatform]
    DependencyClosed imported awsNames ∧
      (∀ m, ¬ Relation.TransGen (DependsOn imported) m m) ∧
      sortModules ((imported.filter fun mod => awsNames.contains mod.fullName).map some) awsNames =
        some imported ∧
      sortModules (getModulesWithChanges imported (imported.filter fun mod =>
        awsNames.contains mod.fullName) awsNames ["security_group", "vpc"] "0.0.1") awsNames =
          some [awsSecurityGroup, awsVpc] ∧
      ¬ DependencyOrdered imported ∧ ¬ DependencyOrdered [awsSecurityGroup, awsVpc] := by
  refine ⟨by decide +kernel, Acyclic.of_rank (fun m => m.dependencies.length) ?_, rfl, rfl,
    by decide +kernel, by decide +kernel⟩
  rintro m m' ⟨hm, hm', hd⟩
  simp only [List.mem_cons, List.not_mem_nil, or_false] at hm hm'
  rcases hm with rfl | rfl | rfl | rfl <;> rcases hm' with rfl | rfl | rfl | rfl <;>
    revert hd <;> decide

end Order

end Iasql
