import Iasql.Calculus.Dict
import Mathlib.Algebra.Order.Group.Nat
import Mathlib.Order.Nat
import Mathlib.Data.Nat.Find

namespace Iasql.BuildDeletion

open OrderedMap

section Source

inductive BuildStatus where
  | failed
  | fault
  | inProgress
  | stopped
  | succeeded
  | timedOut
deriving DecidableEq

structure CodebuildBuildList where
  awsId : String
  region : String
  buildStatus : BuildStatus

def idsByRegion (bds : List CodebuildBuildList) : Dict String (List String) :=
  bds.foldl (fun ids bd => ids.set bd.region ((ids.get? bd.region).getD [] ++ [bd.awsId])) ∅

def idsToStop (bds : List CodebuildBuildList) : Dict String (List String) :=
  idsByRegion (bds.filter fun bd => bd.buildStatus == .inProgress)

def idsToDel (bds : List CodebuildBuildList) : Dict String (List String) := idsByRegion bds

-- the ids of buildsNotDeleted, or no list
abbrev Answer := Option (List String)

-- where the loop of a region is: i counts the sleeps
inductive Loop where
  | running (i : Nat)
  | done (i : Nat)
deriving DecidableEq

def round (answer : Answer) (i : Nat) : Loop :=
  if answer = some [] then .done i
  else
    let idsToRetry := answer.getD []
    if i + 1 < 60 ∨ 0 < idsToRetry.length then .running (i + 1) else .done (i + 1)

-- after n answers
def after (answers : Nat → Answer) : Nat → Loop
  | 0 => .running 0
  | n + 1 =>
    match after answers n with
    | .running i => round (answers n) i
    | .done i => .done i

end Source

section Verdict

variable (answers : Nat → Answer)

-- request n is sent, counted from 0
def Requested (n : Nat) : Prop := ∃ i, after answers n = .running i

def Returned : Prop := ∃ n i, after answers n = .done i ∧ i ≠ 59

def Threw : Prop := ∃ n, after answers n = .done 59

def ReportedDeleted (awsId : String) : Prop :=
  ∃ n notDeleted, Requested answers n ∧ answers n = some notDeleted ∧ awsId ∉ notDeleted

variable (bds : List CodebuildBuildList) (regional : String → Nat → Answer)

-- Promise.all over the regions
def Resolves : Prop := ∀ region ∈ (idsToDel bds).keys, Returned (regional region)

def Rejects : Prop := ∃ region ∈ (idsToDel bds).keys, Threw (regional region)

structure Truthful : Prop where
  atMostSixty : ∀ region ∈ (idsToDel bds).keys, ∀ n, Requested (regional region) n → n < 60
  settles : Resolves bds regional ∨ Rejects bds regional
  verdict : Resolves bds regional ↔ ∀ bd ∈ bds, ReportedDeleted (regional bd.region) bd.awsId

-- one of the first sixty answers leaves nothing, or the sixtieth has no list
def Within : Prop := (∃ n < 60, answers n = some []) ∨ answers 59 = none

def Late : Prop := answers 59 = some [] ∧ ∀ n < 59, answers n ≠ some []

def LeftOver (awsId : String) : Prop :=
  ∀ n < 60, ∀ notDeleted, answers n = some notDeleted → awsId ∈ notDeleted

end Verdict

section Regions

theorem mem_keys_set {ids : Dict String (List String)} {region key : String} {v : List String} :
    region ∈ (ids.set key v).keys ↔ region ∈ ids.keys ∨ key = region := by
  rw [Dict.mem_keys, Dict.mem_keys]
  simp only [Dict.mem_set]
  constructor
  · rintro ⟨w, ⟨rfl, -⟩ | ⟨-, hw⟩⟩
    · exact .inr rfl
    · exact .inl ⟨w, hw⟩
  · intro h
    by_cases heq : region = key
    · exact ⟨v, .inl ⟨heq, rfl⟩⟩
    · obtain ⟨w, hw⟩ := h.resolve_right (Ne.symm heq)
      exact ⟨w, .inr ⟨heq, hw⟩⟩

theorem mem_keys_idsToDel {bds : List CodebuildBuildList} {region : String} :
    region ∈ (idsToDel bds).keys ↔ ∃ bd ∈ bds, bd.region = region := by
  induction bds using List.reverseRecOn with
  | nil => simp [idsToDel, idsByRegion, Dict.keys, keys]
  | append_singleton bds bd ih =>
    have hset : idsToDel (bds ++ [bd]) = (idsToDel bds).set bd.region
        (((idsToDel bds).get? bd.region).getD [] ++ [bd.awsId]) := by
      simp [idsToDel, idsByRegion]
    rw [hset, mem_keys_set, ih]
    simp only [List.mem_append, List.mem_singleton, or_and_right, exists_or, exists_eq_left]

end Regions

section Rounds

variable {answers : Nat → Answer} {n m i : Nat}

-- the answers after which the loop ends
def Ends (answers : Nat → Answer) (n : Nat) : Prop := answers n = some [] ∨ 59 ≤ n ∧ answers n = none

theorem round_running {answer : Answer} {j : Nat} : round answer i = .running j ↔
    j = i + 1 ∧ ¬ (answer = some [] ∨ 59 ≤ i ∧ answer = none) := by
  rw [round]
  rcases answer with _ | _ | ⟨x, xs⟩
  · by_cases h : i + 1 < 60
    · simp [h, eq_comm]
      omega
    · simp [h]
      omega
  · simp
  · simp [eq_comm]

theorem round_done {answer : Answer} {j : Nat} : round answer i = .done j ↔
    answer = some [] ∧ j = i ∨ (59 ≤ i ∧ answer = none) ∧ j = i + 1 := by
  rw [round]
  rcases answer with _ | _ | ⟨x, xs⟩
  · by_cases h : i + 1 < 60
    · simp [h]
      omega
    · simp [h, eq_comm]
      omega
  · simp [eq_comm]
  · simp

theorem after_running : after answers n = .running i ↔ i = n ∧ ∀ m < n, ¬ Ends answers m := by
  induction n generalizing i with
  | zero => simp [after, eq_comm]
  | succ n ih =>
    rw [Nat.forall_lt_succ_right, after]
    split
    · next j hj =>
      obtain ⟨rfl, hrunning⟩ := ih.mp hj
      rw [round_running, and_iff_right hrunning, Ends]
    · next j hj =>
      refine iff_of_false (fun h => by cases h) fun h => ?_
      have hrunning := ih.mpr ⟨rfl, h.2.1⟩
      rw [hj] at hrunning
      cases hrunning

-- the loop ends at the first answer that ends it
theorem after_done : after answers n = .done i ↔ ∃ m < n, (∀ k < m, ¬ Ends answers k) ∧
    (answers m = some [] ∧ i = m ∨ (59 ≤ m ∧ answers m = none) ∧ i = m + 1) := by
  induction n generalizing i with
  | zero => simp [after]
  | succ n ih =>
    rw [after]
    split
    · next j hj =>
      obtain ⟨rfl, hrunning⟩ := after_running.mp hj
      rw [round_done]
      constructor
      · intro h
        exact ⟨j, j.lt_succ_self, hrunning, h⟩
      · rintro ⟨m, hm, -, h⟩
        obtain hlt | rfl := Nat.lt_succ_iff_lt_or_eq.mp hm
        · exact absurd (h.imp And.left And.left) (hrunning m hlt)
        · exact h
    · next j hj =>
      obtain ⟨m, hm, hfirst, h⟩ := ih.mp hj
      constructor
      · intro heq
        cases heq
        exact ⟨m, hm.trans n.lt_succ_self, hfirst, h⟩
      · rintro ⟨m', -, hfirst', h'⟩
        have hends : Ends answers m := h.imp And.left And.left
        have hends' : Ends answers m' := h'.imp And.left And.left
        obtain rfl : m = m' := by
          rcases lt_trichotomy m m' with hlt | heq | hlt
          · exact absurd hends (hfirst' m hlt)
          · exact heq
          · exact absurd hends' (hfirst m' hlt)
        congr 1
        rcases h with ⟨h₁, rfl⟩ | ⟨⟨-, h₁⟩, rfl⟩ <;> rcases h' with ⟨h₂, rfl⟩ | ⟨⟨-, h₂⟩, rfl⟩
        · rfl
        · rw [h₁] at h₂
          cases h₂
        · rw [h₁] at h₂
          cases h₂
        · rfl

theorem requested_iff : Requested answers n ↔ ∀ m < n, ¬ Ends answers m := by
  constructor
  · rintro ⟨i, hi⟩
    exact (after_running.mp hi).2
  · intro h
    exact ⟨n, after_running.mpr ⟨rfl, h⟩⟩

theorem within_of_atMostSixty (h : ∀ n, Requested answers n → n < 60) : Within answers := by
  by_contra hwithin
  rw [Within, not_or, not_exists] at hwithin
  refine absurd (h 60 (requested_iff.mpr fun m hm => ?_)) (Nat.lt_irrefl 60)
  rintro (hempty | ⟨hlate, hnone⟩)
  · exact hwithin.1 m ⟨hm, hempty⟩
  · obtain rfl : m = 59 := by omega
    exact hwithin.2 hnone

-- the first answer that ends the loop is among the first sixty
theorem Within.first (h : Within answers) :
    ∃ m < 60, Ends answers m ∧ ∀ k < m, ¬ Ends answers k := by
  have hends : ∃ m < 60, Ends answers m := by
    rcases h with ⟨m, hm, hempty⟩ | hnone
    · exact ⟨m, hm, .inl hempty⟩
    · exact ⟨59, by decide, .inr ⟨Nat.le_refl _, hnone⟩⟩
  classical
  obtain ⟨m, hm, hmends⟩ := hends
  have hex : ∃ m, Ends answers m := ⟨m, hmends⟩
  exact ⟨Nat.find hex, (Nat.find_min' hex hmends).trans_lt hm, Nat.find_spec hex, fun k hk => Nat.find_min hex hk⟩

theorem Within.lt_of_requested (h : Within answers) (hn : Requested answers n) : n < 60 := by
  obtain ⟨m, hm, hends, -⟩ := h.first
  by_contra hge
  exact requested_iff.mp hn m (by omega) hends

theorem threw_iff : Threw answers ↔ Late answers := by
  constructor
  · rintro ⟨n, hn⟩
    obtain ⟨m, -, hfirst, ⟨hempty, rfl⟩ | ⟨⟨hlate, -⟩, heq⟩⟩ := after_done.mp hn
    · exact ⟨hempty, fun k hk hk' => hfirst k hk (.inl hk')⟩
    · omega
  · rintro ⟨hempty, hfirst⟩
    refine ⟨60, after_done.mpr ⟨59, by decide, fun k hk => ?_, .inl ⟨hempty, rfl⟩⟩⟩
    rintro (h | ⟨h, -⟩)
    · exact hfirst k hk h
    · omega

theorem Within.returned_iff (h : Within answers) : Returned answers ↔ ¬ Late answers := by
  rw [← threw_iff]
  constructor
  · rintro ⟨n, i, hn, hi⟩ ⟨n', hn'⟩
    obtain ⟨m, -, hfirst, hm⟩ := after_done.mp hn
    obtain ⟨m', -, hfirst', hm'⟩ := after_done.mp hn'
    have hlast : after answers (m + m' + 1) = .done i := after_done.mpr ⟨m, by omega, hfirst, hm⟩
    have hlast' : after answers (m + m' + 1) = .done 59 := after_done.mpr ⟨m', by omega, hfirst', hm'⟩
    rw [hlast] at hlast'
    cases hlast'
    exact hi rfl
  · intro hthrew
    obtain ⟨m, hm, hends, hfirst⟩ := h.first
    rcases hends with hempty | hnone
    · have hdone : after answers (m + 1) = .done m :=
        after_done.mpr ⟨m, m.lt_succ_self, hfirst, .inl ⟨hempty, rfl⟩⟩
      exact ⟨m + 1, m, hdone, fun heq => hthrew ⟨m + 1, heq ▸ hdone⟩⟩
    · exact ⟨m + 1, m + 1, after_done.mpr ⟨m, m.lt_succ_self, hfirst, .inr ⟨hnone, rfl⟩⟩, by omega⟩

theorem Within.reported_iff (h : Within answers) (awsId : String) :
    ReportedDeleted answers awsId ↔ ¬ LeftOver answers awsId := by
  constructor
  · rintro ⟨n, notDeleted, hrequested, hanswer, hmem⟩ hleft
    exact hmem (hleft n (h.lt_of_requested hrequested) notDeleted hanswer)
  · intro hleft
    simp only [LeftOver, not_forall] at hleft
    obtain ⟨n, hn, notDeleted, hanswer, hmem⟩ := hleft
    obtain ⟨m, hm, hends, hfirst⟩ := h.first
    by_cases hle : n ≤ m
    · exact ⟨n, notDeleted, requested_iff.mpr fun k hk => hfirst k (hk.trans_le hle), hanswer, hmem⟩
    · -- the loop has ended before, so its last answer leaves nothing
      rcases hends with hempty | ⟨hlate, -⟩
      · exact ⟨m, [], requested_iff.mpr hfirst, hempty, List.not_mem_nil⟩
      · omega

end Rounds

section Claim

variable {bds : List CodebuildBuildList} {regional : String → Nat → Answer}

theorem forall_regions {P : String → Prop} :
    (∀ region ∈ (idsToDel bds).keys, P region) ↔ ∀ bd ∈ bds, P bd.region := by
  simp only [mem_keys_idsToDel, forall_exists_index, and_imp]
  constructor
  · intro h bd hbd
    exact h bd.region bd hbd rfl
  · rintro h region bd hbd rfl
    exact h bd hbd

theorem resolves_iff (hwithin : ∀ bd ∈ bds, Within (regional bd.region)) :
    Resolves bds regional ↔ ¬ ∃ bd ∈ bds, Late (regional bd.region) := by
  rw [Resolves, forall_regions]
  simp only [not_exists, not_and]
  exact forall₂_congr fun bd hbd => (hwithin bd hbd).returned_iff

theorem rejects_iff : Rejects bds regional ↔ ∃ bd ∈ bds, Late (regional bd.region) := by
  rw [Rejects]
  simp only [mem_keys_idsToDel, threw_iff]
  constructor
  · rintro ⟨region, ⟨bd, hbd, rfl⟩, hlate⟩
    exact ⟨bd, hbd, hlate⟩
  · rintro ⟨bd, hbd, hlate⟩
    exact ⟨bd.region, ⟨bd, hbd, rfl⟩, hlate⟩

theorem allReported_iff (hwithin : ∀ bd ∈ bds, Within (regional bd.region)) :
    (∀ bd ∈ bds, ReportedDeleted (regional bd.region) bd.awsId) ↔
      ¬ ∃ bd ∈ bds, LeftOver (regional bd.region) bd.awsId := by
  simp only [not_exists, not_and]
  exact forall₂_congr fun bd hbd => (hwithin bd hbd).reported_iff bd.awsId

theorem delete_truthful (bds : List CodebuildBuildList) (regional : String → Nat → Answer) :
    Truthful bds regional ↔ (∀ bd ∈ bds, Within (regional bd.region)) ∧
      ((∃ bd ∈ bds, Late (regional bd.region)) ↔ ∃ bd ∈ bds, LeftOver (regional bd.region) bd.awsId) := by
  constructor
  · intro h
    have hwithin : ∀ bd ∈ bds, Within (regional bd.region) := fun bd hbd =>
      within_of_atMostSixty (forall_regions.mp h.atMostSixty bd hbd)
    have hverdict := h.verdict
    rw [resolves_iff hwithin, allReported_iff hwithin] at hverdict
    exact ⟨hwithin, not_iff_not.mp hverdict⟩
  · rintro ⟨hwithin, hlate⟩
    refine ⟨?_, ?_, ?_⟩
    · exact forall_regions.mpr fun bd hbd n hn => (hwithin bd hbd).lt_of_requested hn
    · rw [resolves_iff hwithin, rejects_iff]
      exact (em _).symm
    · rw [resolves_iff hwithin, allReported_iff hwithin, hlate]

def build : CodebuildBuildList := ⟨"b:1", "us-east-1", .succeeded⟩

-- a build that is never deleted is asked for without end
theorem asks_forever : (∀ n, Requested (fun _ => some ["b:1"]) n) ∧
    ¬ Truthful [build] fun _ _ => some ["b:1"] := by
  have hforever : ∀ n, Requested (fun _ => some ["b:1"]) n := by
    intro n
    refine requested_iff.mpr fun m _ => ?_
    rintro (h | ⟨-, h⟩)
    · cases h
    · cases h
  refine ⟨hforever, fun h => ?_⟩
  exact absurd (h.atMostSixty "us-east-1" (mem_keys_idsToDel.mpr ⟨build, by simp, rfl⟩) 60 (hforever 60))
    (Nat.lt_irrefl 60)

end Claim

end Iasql.BuildDeletion
