import Iasql.Calculus.Acyclic
import Iasql.Changes

namespace Iasql

open Relation

section Sorting

variable {W E : Type}

def DependsOn (mods : List (Module W E)) (m m' : Module W E) : Prop :=
  m ∈ mods ∧ m' ∈ mods ∧ m'.fullName ∈ m.dependencies

structure Sortable (mods : List (Module W E)) (existing : List String) : Prop where
  closed : ∀ m ∈ mods, ∀ d ∈ m.dependencies, d ∈ existing ∨ ∃ m' ∈ mods, m'.fullName = d
  acyclic : ∀ m, ¬ TransGen (DependsOn mods) m m

-- every dependency of a module is in names or comes before the module
def Respects (names : List String) : List (Module W E) → Prop
  | [] => True
  | m :: ms => (∀ d ∈ m.dependencies, d ∈ names) ∧ Respects (m.fullName :: names) ms

variable {mods queue pre post : List (Module W E)} {names existing : List String} {m : Module W E}

theorem sortLoop_rotates {fuel : Nat} (hpre : ∀ p ∈ pre, p.dependencies.all names.contains = false)
    (hm : m.dependencies.all names.contains = true) :
    sortLoop (fuel + 1 + pre.length) ((pre ++ m :: post).map some) names =
      (sortLoop fuel ((post ++ pre).map some) (m.fullName :: names)).map (m :: ·) := by
  induction pre generalizing post with
  | nil => simp [sortLoop, hm]
  | cons p pre ih =>
    have hp := hpre p (by simp)
    have hrest := @ih (post ++ [p]) fun q hq => hpre q (by simp [hq])
    have hstep : sortLoop (fuel + 1 + (p :: pre).length) ((p :: pre ++ m :: post).map some) names =
        sortLoop (fuel + 1 + pre.length) ((pre ++ m :: (post ++ [p])).map some) names := by
      rw [List.length_cons, ← Nat.add_assoc, List.cons_append, List.map_cons, sortLoop, hp]
      simp
    rw [hstep, hrest]
    simp

theorem exists_first {q : Module W E → Bool} {l : List (Module W E)} (h : ∃ m ∈ l, q m = true) :
    ∃ pre m post, l = pre ++ m :: post ∧ (∀ p ∈ pre, q p = false) ∧ q m = true := by
  induction l with
  | nil => simp at h
  | cons a l ih =>
    cases ha : q a with
    | true => exact ⟨[], a, l, rfl, by simp, ha⟩
    | false =>
      have hrest : ∃ m ∈ l, q m = true := by simpa [ha] using h
      obtain ⟨pre, m, post, rfl, hpre, hm⟩ := ih hrest
      refine ⟨a :: pre, m, post, rfl, fun p hp => ?_, hm⟩
      rcases List.mem_cons.mp hp with rfl | hp
      · exact ha
      · exact hpre p hp

-- what is left in the queue depends on the queue and on names only
structure Pending (mods queue : List (Module W E)) (names : List String) : Prop where
  subset : ∀ m ∈ queue, m ∈ mods
  closed : ∀ m ∈ queue, ∀ d ∈ m.dependencies, d ∈ names ∨ ∃ m' ∈ queue, m'.fullName = d

theorem Pending.exists_ready (h : Pending mods queue names)
    (hacyclic : ∀ m, ¬ TransGen (DependsOn mods) m m) (hne : queue ≠ []) :
    ∃ m ∈ queue, m.dependencies.all names.contains = true := by
  obtain ⟨m, hm, hsink⟩ := Acyclic.exists_sink hacyclic _ queue rfl hne
  refine ⟨m, hm, List.all_eq_true.mpr fun d hd => ?_⟩
  rcases h.closed m hm d hd with hnames | ⟨m', hm', rfl⟩
  · simpa using hnames
  · exact absurd ⟨h.subset m hm, h.subset m' hm', hd⟩ (hsink m' hm')

theorem Pending.next (h : Pending mods (pre ++ m :: post) names) :
    Pending mods (post ++ pre) (m.fullName :: names) where
  subset q hq := h.subset q (by
    rcases List.mem_append.mp hq with hq | hq <;> simp [hq])
  closed q hq d hd := by
    have hq' : q ∈ pre ++ m :: post := by
      rcases List.mem_append.mp hq with hq | hq <;> simp [hq]
    rcases h.closed q hq' d hd with hnames | ⟨m', hm', rfl⟩
    · exact .inl (List.mem_cons_of_mem _ hnames)
    · rcases List.mem_append.mp hm' with hm' | hm'
      · exact .inr ⟨m', by simp [hm'], rfl⟩
      · rcases List.mem_cons.mp hm' with rfl | hm'
        · exact .inl (by simp)
        · exact .inr ⟨m', by simp [hm'], rfl⟩

theorem sortLoop_sorts (hacyclic : ∀ m, ¬ TransGen (DependsOn mods) m m) :
    ∀ (n : Nat) {fuel : Nat} {queue : List (Module W E)} {names : List String},
      queue.length = n → n * n ≤ fuel → Pending mods queue names →
        ∃ out, sortLoop fuel (queue.map some) names = some out ∧ out.Perm queue ∧
          Respects names out := by
  intro n
  induction n with
  | zero =>
    intro fuel queue names hn _ _
    obtain rfl := List.length_eq_zero_iff.mp hn
    exact ⟨[], by cases fuel <;> rfl, List.Perm.refl _, trivial⟩
  | succ n ih =>
    intro fuel queue names hn hfuel hpending
    have hne : queue ≠ [] := by
      rintro rfl
      simp at hn
    obtain ⟨pre, m, post, rfl, hpre, hm⟩ := exists_first (hpending.exists_ready hacyclic hne)
    have hlength : pre.length + post.length = n := by
      simp only [List.length_append, List.length_cons] at hn
      omega
    obtain ⟨rest, rfl⟩ : ∃ rest, fuel = rest + 1 + pre.length := by
      refine ⟨fuel - 1 - pre.length, ?_⟩
      have hsquare : n + 1 ≤ (n + 1) * (n + 1) := Nat.le_mul_self _
      omega
    have henough : n * n ≤ rest := by
      have hexpand : (n + 1) * (n + 1) = n * n + n + n + 1 := by
        rw [Nat.add_mul, Nat.mul_add]
        omega
      omega
    obtain ⟨out, hout, hperm, hrespects⟩ :=
      ih (by rw [List.length_append]; omega) henough hpending.next
    refine ⟨m :: out, ?_, ?_, ?_, hrespects⟩
    · rw [sortLoop_rotates hpre hm, hout]
      rfl
    · have hrotated : (post ++ pre).Perm (pre ++ post) := List.perm_append_comm
      exact ((hperm.trans hrotated).cons m).trans List.perm_middle.symm
    · simpa using hm

theorem sortLoop_some {fuel : Nat} {queue out : List (Module W E)} {names : List String}
    (h : sortLoop fuel (queue.map some) names = some out) :
    out.Perm queue ∧ Respects names out := by
  induction fuel generalizing queue names out with
  | zero =>
    cases queue with
    | nil =>
      cases h
      exact ⟨List.Perm.refl _, trivial⟩
    | cons m queue => cases h
  | succ fuel ih =>
    cases queue with
    | nil =>
      cases h
      exact ⟨List.Perm.refl _, trivial⟩
    | cons m queue =>
      rw [List.map_cons, sortLoop] at h
      split at h
      · next hready =>
        obtain ⟨rest, hrest, rfl⟩ := Option.map_eq_some_iff.mp h
        obtain ⟨hperm, hrespects⟩ := ih hrest
        exact ⟨hperm.cons m, by simpa using hready, hrespects⟩
      · have hrotated : sortLoop fuel ((queue ++ [m]).map some) names = some out := by
          rw [← h, List.map_append, List.map_singleton]
        obtain ⟨hperm, hrespects⟩ := ih hrotated
        exact ⟨hperm.trans List.perm_append_comm, hrespects⟩

theorem Respects.split {out : List (Module W E)} {l₁ l₂ : List (Module W E)}
    (h : Respects names out) (hout : out = l₁ ++ m :: l₂) :
    ∀ d ∈ m.dependencies, d ∈ names ∨ ∃ m' ∈ l₁, m'.fullName = d := by
  induction l₁ generalizing out names with
  | nil =>
    subst hout
    exact fun d hd => .inl (h.1 d hd)
  | cons p l₁ ih =>
    subst hout
    intro d hd
    rcases ih h.2 rfl d hd with hnames | ⟨m', hm', rfl⟩
    · rcases List.mem_cons.mp hnames with rfl | hnames
      · exact .inr ⟨p, by simp, rfl⟩
      · exact .inl hnames
    · exact .inr ⟨m', by simp [hm'], rfl⟩

theorem sortModules_sorts (h : Sortable mods existing) :
    ∃ out, sortModules (mods.map some) existing = some out ∧ out.Perm mods ∧
      ∀ l₁ m l₂, out = l₁ ++ m :: l₂ →
        ∀ d ∈ m.dependencies, d ∉ existing → ∃ m' ∈ l₁, m'.fullName = d := by
  have hfuel : mods.length * mods.length ≤
      ((mods.map some).length + 1) * ((mods.map some).length + 1) := by
    rw [List.length_map]
    exact Nat.mul_le_mul (Nat.le_succ _) (Nat.le_succ _)
  obtain ⟨out, hout, hperm, hrespects⟩ :=
    sortLoop_sorts h.acyclic mods.length rfl hfuel ⟨fun _ hm => hm, h.closed⟩
  refine ⟨out, hout, hperm, fun l₁ m l₂ hsplit d hd hnew => ?_⟩
  exact (hrespects.split hsplit d hd).resolve_left hnew

def iasqlPlatform : Module Unit Unit where
  name := "iasql_platform"
  version := "0.0.1"
  dependencies := []
  tables := ["iasql_module", "iasql_tables"]
  mappers := []

def iasqlFunctions : Module Unit Unit where
  name := "iasql_functions"
  version := "0.0.1"
  dependencies := ["iasql_platform@0.0.1"]
  tables := []
  mappers := []

def awsAccount : Module Unit Unit where
  name := "aws_account"
  version := "0.0.1"
  dependencies := ["iasql_platform@0.0.1"]
  tables := ["aws_credentials"]
  mappers := []

def awsVpc : Module Unit Unit where
  name := "aws_vpc"
  version := "0.0.1"
  dependencies := ["aws_account@0.0.1", "iasql_platform@0.0.1"]
  tables := ["vpc"]
  mappers := []

theorem sortModules_sorts_vpc :
    ∃ out, sortModules ([awsVpc, awsAccount].map some) ["iasql_platform@0.0.1"] = some out ∧
      out.Perm [awsVpc, awsAccount] ∧ ∀ l₁ m l₂, out = l₁ ++ m :: l₂ →
        ∀ d ∈ m.dependencies, d ∉ ["iasql_platform@0.0.1"] → ∃ m' ∈ l₁, m'.fullName = d := by
  refine sortModules_sorts ⟨?_, Acyclic.of_rank (fun m => m.dependencies.length) ?_⟩
  · decide
  · rintro m m' ⟨hm, hm', hd⟩
    simp only [List.mem_cons, List.not_mem_nil, or_false] at hm hm'
    rcases hm with rfl | rfl <;> rcases hm' with rfl | rfl <;> revert hd <;> decide

end Sorting

end Iasql
