import Mathlib.Data.Fintype.Basic
import Mathlib.Logic.Relation
import Iasql.Calculus.Saturation
import Iasql.LazyDep

namespace Iasql

open Program Saturation

-- the calls made so far, each with what its promise rejected with
abbrev History (ι : Type) := List (ι × Option Thrown)

section Histories

variable {ι : Type}

def rejected (h : History ι) : List ι := (h.filter fun c => c.2.isSome).map Prod.fst

def rejections (h : History ι) : List Thrown := h.filterMap Prod.snd

@[simp] theorem rejected_nil : rejected ([] : History ι) = [] := rfl

@[simp] theorem rejected_cons_none (x : ι) (h : History ι) :
    rejected ((x, none) :: h) = rejected h := rfl

@[simp] theorem rejected_cons_some (x : ι) (e : Thrown) (h : History ι) :
    rejected ((x, some e) :: h) = x :: rejected h := rfl

@[simp] theorem rejections_nil : rejections ([] : History ι) = [] := rfl

@[simp] theorem rejections_cons_none (x : ι) (h : History ι) :
    rejections ((x, none) :: h) = rejections h := rfl

@[simp] theorem rejections_cons_some (x : ι) (e : Thrown) (h : History ι) :
    rejections ((x, some e) :: h) = e :: rejections h := rfl

theorem rejected_sublist (h : History ι) : (rejected h).Sublist (h.map Prod.fst) :=
  List.Sublist.map Prod.fst List.filter_sublist

variable [DecidableEq ι]

def succeeded : History ι → Finset ι
  | [] => ∅
  | (x, none) :: h => insert x (succeeded h)
  | (_, some _) :: h => succeeded h

@[simp] theorem succeeded_nil : succeeded ([] : History ι) = ∅ := rfl

@[simp] theorem succeeded_cons_none (x : ι) (h : History ι) :
    succeeded ((x, none) :: h) = insert x (succeeded h) := rfl

@[simp] theorem succeeded_cons_some (x : ι) (e : Thrown) (h : History ι) :
    succeeded ((x, some e) :: h) = succeeded h := rfl

@[simp] theorem succeeded_append (h k : History ι) :
    succeeded (h ++ k) = succeeded h ∪ succeeded k := by
  induction h with
  | nil => simp
  | cons c h ih =>
    obtain ⟨x, _ | e⟩ := c
    · simp [ih]
    · simp [ih]

theorem mem_succeeded {h : History ι} {x : ι} : x ∈ succeeded h ↔ (x, none) ∈ h := by
  induction h with
  | nil => simp
  | cons c h ih =>
    obtain ⟨y, _ | e⟩ := c
    · simp [ih]
    · simp [ih]

theorem called_of_succeeded {h : History ι} {x : ι} (hx : x ∈ succeeded h) :
    x ∈ h.map Prod.fst := List.mem_map.mpr ⟨_, mem_succeeded.mp hx, rfl⟩

def remaining (xs : List ι) (h : History ι) : List ι :=
  xs.filter fun x => !decide (x ∈ succeeded h)

theorem rejected_eq_remaining {h : History ι} (hn : (h.map Prod.fst).Nodup) :
    rejected h = remaining (h.map Prod.fst) h := by
  induction h with
  | nil => rfl
  | cons c h ih =>
    obtain ⟨hx, hn⟩ := List.nodup_cons.mp hn
    have hrest := ih hn
    obtain ⟨x, _ | e⟩ := c
    · have hne : ∀ y ∈ h.map Prod.fst, y ≠ x := by
        rintro y hy rfl
        exact hx hy
      simp only [rejected_cons_none, hrest, remaining, List.map_cons, succeeded_cons_none]
      rw [List.filter_cons_of_neg (by simp)]
      refine List.filter_congr fun y hy => ?_
      simp [hne y hy]
    · have hmem : x ∉ succeeded h := fun hs => hx (called_of_succeeded hs)
      simp only [rejected_cons_some, hrest, remaining, List.map_cons, succeeded_cons_some]
      exact (List.filter_cons_of_pos (by simp [hmem])).symm

-- no call of a generator that had succeeded before
def NoRerun (h : History ι) : Prop := h.Pairwise fun a b => a.2 = none → a.1 ≠ b.1

-- every pass calls all it has, whatever comes back, and leaves what was rejected to the next
inductive WholePasses : List ι → History ι → Prop
  | last (h : History ι) : rejected h = h.map Prod.fst → WholePasses (h.map Prod.fst) h
  | further (h : History ι) {k : History ι} :
      WholePasses (rejected h) k → WholePasses (h.map Prod.fst) (h ++ k)

end Histories

section Environment

variable {ι : Type}

-- what a call answers may depend on every call before it
def generator (answer : ι → History ι → Option Thrown) (x : ι) : Prog (History ι) Thrown Unit :=
  fun h =>
    match answer x h with
    | none => (.returned (), h ++ [(x, none)])
    | some e => (.thrown e, h ++ [(x, some e)])

variable (answer : ι → History ι → Option Thrown)

def pass : List ι → History ι → History ι
  | [], _ => []
  | x :: xs, h => (x, answer x h) :: pass xs (h ++ [(x, answer x h)])

def Again (p q : List ι × History ι) : Prop :=
  (rejected (pass answer p.1 p.2)).length ≠ p.1.length ∧
    q = (rejected (pass answer p.1 p.2), p.2 ++ pass answer p.1 p.2)

def Carried (p : List ι × History ι) : Prop :=
  ∀ e ∈ rejections (pass answer p.1 p.2), e.carriesStack = true

-- in every pass of the run, no promise rejects with null, undefined or a primitive
def StacksCarried (xs : List ι) : Prop :=
  ∀ p, Relation.ReflTransGen (Again answer) (xs, []) p → Carried answer p

variable {answer}

theorem attempt_generator (x : ι) (h : History ι) :
    (generator answer x).attempt h =
      (.returned (match answer x h with | none => .ok () | some e => .error e),
        h ++ [(x, answer x h)]) := by
  unfold Prog.attempt generator
  cases answer x h with
  | none => rfl
  | some e => rfl

theorem pass_called (xs : List ι) (h : History ι) : (pass answer xs h).map Prod.fst = xs := by
  induction xs generalizing h with
  | nil => rfl
  | cons x xs ih => rw [pass, List.map_cons, ih]

theorem rejected_pass_sublist (xs : List ι) (h : History ι) :
    (rejected (pass answer xs h)).Sublist xs := by
  have hsub := rejected_sublist (pass answer xs h)
  rwa [pass_called] at hsub

section Passes

variable (place : ι → Nat)

def placed (answer : ι → History ι → Option Thrown) (x : ι) : Generator (History ι) :=
  (place x, generator answer x)

theorem carried_rest {x : ι} {xs : List ι} {h : History ι} (hc : Carried answer (x :: xs, h)) :
    Carried answer (xs, h ++ [(x, answer x h)]) := by
  intro e he
  refine hc e ?_
  simp only [pass, rejections, List.filterMap_cons]
  split
  · exact he
  · exact List.mem_cons_of_mem _ he

theorem onePass_cons (x : ι) (xs : List ι) (h : History ι) :
    onePass ((x :: xs).map (placed place answer)) h =
      collect (placed place answer x) (onePass (xs.map (placed place answer)))
        (match answer x h with | none => .ok () | some e => .error e)
        (h ++ [(x, answer x h)]) :=
  Prog.bind_of_returned (attempt_generator x h)

theorem onePass_carried {xs : List ι} {h : History ι} (hc : Carried answer (xs, h)) :
    onePass (xs.map (placed place answer)) h =
      (.returned ((rejected (pass answer xs h)).map (placed place answer),
        rejections (pass answer xs h)), h ++ pass answer xs h) := by
  induction xs generalizing h with
  | nil => simp [onePass, pass]
  | cons x xs ih =>
    have hih := ih (carried_rest hc)
    rw [onePass_cons]
    cases hx : answer x h with
    | none =>
      rw [hx] at hih
      simp only [collect, pass, hx, rejected_cons_none, rejections_cons_none]
      rw [hih, List.append_assoc]
      rfl
    | some e =>
      rw [hx] at hih
      have hcarries : e.carriesStack = true := hc e (by simp [pass, hx])
      simp only [collect, pass, hx, rejected_cons_some, rejections_cons_some, hcarries, if_true]
      rw [Prog.bind_of_returned hih, List.append_assoc]
      rfl

theorem onePass_escapes {xs : List ι} {h : History ι} (hc : ¬ Carried answer (xs, h)) :
    ∃ t, onePass (xs.map (placed place answer)) h = (.thrown (.error "TypeError"), t) := by
  induction xs generalizing h with
  | nil => exact absurd (by simp [Carried, pass]) hc
  | cons x xs ih =>
    rw [onePass_cons]
    cases hx : answer x h with
    | none =>
      have hrest : ¬ Carried answer (xs, h ++ [(x, answer x h)]) := by
        intro hcarried
        refine hc fun e he => hcarried e ?_
        simpa [pass, hx] using he
      obtain ⟨t, ht⟩ := ih hrest
      rw [hx] at ht
      exact ⟨t, ht⟩
    | some e =>
      by_cases hcarries : e.carriesStack = true
      · have hrest : ¬ Carried answer (xs, h ++ [(x, answer x h)]) := by
          intro hcarried
          refine hc fun e' he' => ?_
          simp only [pass, hx, rejections_cons_some, List.mem_cons] at he'
          rcases he' with rfl | he'
          · exact hcarries
          · exact hcarried e' (by rwa [hx])
        obtain ⟨t, ht⟩ := ih hrest
        rw [hx] at ht
        simp only [collect, hcarries, if_true]
        exact ⟨t, Prog.bind_of_thrown ht⟩
      · simp only [collect, hcarries]
        exact ⟨_, rfl⟩

theorem passes_carried {n : Nat} {xs : List ι} {h : History ι} (hn : xs.length ≤ n)
    (hc : ∀ p, Relation.ReflTransGen (Again answer) (xs, h) p → Carried answer p)
    (failures : List Thrown) :
    ∃ zs k new, Relation.ReflTransGen (Again answer) (xs, h) (zs, k) ∧
      rejected (pass answer zs k) = zs ∧
      passes n (xs.map (placed place answer)) failures h =
        (.returned (zs.map (placed place answer), failures ++ new), k ++ pass answer zs k) := by
  induction n generalizing xs h failures with
  | zero =>
    obtain rfl := List.length_eq_zero_iff.mp (Nat.le_zero.mp hn)
    exact ⟨[], h, [], .refl, rfl, by simp [passes, pass]⟩
  | succ n ih =>
    have hpass := onePass_carried place (hc (xs, h) .refl)
    rw [passes, Prog.bind_of_returned hpass]
    simp only [List.length_map]
    by_cases hlen : (rejected (pass answer xs h)).length = xs.length
    · have heq := (rejected_pass_sublist xs h).eq_of_length hlen
      rw [if_pos hlen]
      exact ⟨xs, h, _, .refl, heq, rfl⟩
    · have hagain : Again answer (xs, h) (rejected (pass answer xs h), h ++ pass answer xs h) :=
        ⟨hlen, rfl⟩
      have hle := (@rejected_pass_sublist _ answer xs h).length_le
      rw [if_neg hlen]
      obtain ⟨zs, k, new, hreach, hstop, hrun⟩ := ih (by omega)
        (fun p hp => hc p (.head hagain hp)) (failures ++ rejections (pass answer xs h))
      exact ⟨zs, k, _, .head hagain hreach, hstop, by rw [hrun, List.append_assoc]⟩

theorem passes_escape {n : Nat} {xs : List ι} {h : History ι} (hn : xs.length ≤ n)
    (hc : ¬ ∀ p, Relation.ReflTransGen (Again answer) (xs, h) p → Carried answer p)
    (failures : List Thrown) :
    ∃ t, passes n (xs.map (placed place answer)) failures h =
      (.thrown (.error "TypeError"), t) := by
  induction n generalizing xs h failures with
  | zero =>
    obtain rfl := List.length_eq_zero_iff.mp (Nat.le_zero.mp hn)
    refine absurd (fun p hp => ?_) hc
    rcases Relation.ReflTransGen.cases_head hp with rfl | ⟨q, hq, -⟩
    · simp [Carried, pass]
    · exact absurd rfl hq.1
  | succ n ih =>
    by_cases hfirst : Carried answer (xs, h)
    · have hpass := onePass_carried place hfirst
      rw [passes, Prog.bind_of_returned hpass]
      have hnext : ∃ q, Again answer (xs, h) q ∧
          ¬ ∀ p, Relation.ReflTransGen (Again answer) q p → Carried answer p := by
        by_contra hno
        refine hc fun p hp => ?_
        rcases Relation.ReflTransGen.cases_head hp with rfl | ⟨q, hq, hqp⟩
        · exact hfirst
        · by_contra hbad
          exact hno ⟨q, hq, fun hall => hbad (hall p hqp)⟩
      obtain ⟨_, ⟨hlen, rfl⟩, hescape⟩ := hnext
      change (rejected (pass answer xs h)).length ≠ xs.length at hlen
      have hle := (@rejected_pass_sublist _ answer xs h).length_le
      simp only [List.length_map, if_neg hlen]
      refine ih ?_ hescape _
      change (rejected (pass answer xs h)).length ≤ n
      omega
    · obtain ⟨t, ht⟩ := onePass_escapes place hfirst
      exact ⟨t, by rw [passes, Prog.bind_of_thrown ht]⟩

end Passes

theorem wholePasses_of_reached {p q : List ι × History ι}
    (hpq : Relation.ReflTransGen (Again answer) p q)
    (hstop : rejected (pass answer q.1 q.2) = q.1) :
    ∃ new, q.2 ++ pass answer q.1 q.2 = p.2 ++ new ∧ WholePasses p.1 new := by
  induction hpq using Relation.ReflTransGen.head_induction_on with
  | refl =>
    refine ⟨_, rfl, ?_⟩
    have hlast := WholePasses.last (pass answer q.1 q.2) (by rw [pass_called, hstop])
    rwa [pass_called] at hlast
  | @head a c hagain _ ih =>
    obtain ⟨-, rfl⟩ := hagain
    obtain ⟨new, heq, hwhole⟩ := ih
    refine ⟨pass answer a.1 a.2 ++ new, by rw [heq, List.append_assoc], ?_⟩
    have hfurther := WholePasses.further (pass answer a.1 a.2) hwhole
    rwa [pass_called] at hfurther

variable [DecidableEq ι] {xs : List ι}

theorem zip_places (hn : xs.Nodup) :
    (List.range xs.length).zip (xs.map (generator answer)) =
      xs.map (placed (fun x => xs.idxOf x) answer) := by
  refine List.ext_getElem (by simp) fun i hi hi' => ?_
  have hlt : i < xs.length := by simpa using hi'
  simp [placed, hn.idxOf_getElem i hlt]

-- a run of the loader that has ended: who is left, and every call made
structure Ended (answer : ι → History ι → Option Thrown) (xs rest : List ι) (h : History ι) :
    Prop where
  reached : ∃ k, Relation.ReflTransGen (Again answer) (xs, []) (rest, k) ∧
    rejected (pass answer rest k) = rest ∧ h = k ++ pass answer rest k

theorem lazyLoader_carried (hn : xs.Nodup) (hc : StacksCarried answer xs) :
    ∃ rest h failures, Ended answer xs rest h ∧
      lazyLoader (xs.map (generator answer)) [] =
        if rest = [] then (.returned (), h)
        else (.thrown (.depError "Forward progress halted. Some promises never resolved"
          (some (rest.map xs.idxOf)) (some failures)), h) := by
  obtain ⟨rest, k, new, hreach, hstop, hrun⟩ :=
    passes_carried (fun x => xs.idxOf x) xs.length.le_refl hc []
  refine ⟨rest, _, new.map fun f => f.message.getD "", ⟨k, hreach, hstop, rfl⟩, ?_⟩
  simp only [lazyLoader, List.length_map, zip_places hn, List.length_map]
  rw [Prog.bind_of_returned hrun]
  cases rest with
  | nil => rfl
  | cons x rest => simp [placed, Function.comp_def]

theorem lazyLoader_escapes (hn : xs.Nodup) (hc : ¬ StacksCarried answer xs) :
    ∃ t, lazyLoader (xs.map (generator answer)) [] = (.thrown (.error "TypeError"), t) := by
  obtain ⟨t, ht⟩ := passes_escape (fun x => xs.idxOf x) xs.length.le_refl hc []
  refine ⟨t, ?_⟩
  simp only [lazyLoader, List.length_map, zip_places hn]
  rw [Prog.bind_of_thrown ht]

theorem remaining_append (h k : History ι) :
    remaining xs (h ++ k) = remaining (remaining xs h) k := by
  simp only [remaining, List.filter_filter, succeeded_append]
  refine List.filter_congr fun x _ => ?_
  simp [Bool.and_comm]

theorem rejected_pass {ys : List ι} (hn : ys.Nodup) (h : History ι) :
    rejected (pass answer ys h) = remaining ys (pass answer ys h) := by
  have hcalled := @pass_called _ answer ys h
  have heq := rejected_eq_remaining (h := pass answer ys h) (by rwa [hcalled])
  rwa [hcalled] at heq

structure Underway (xs ys : List ι) (h : History ι) : Prop where
  left : ys = remaining xs h
  once : NoRerun h

theorem noRerun_pass {ys : List ι} {h : History ι} (hn : ys.Nodup) (hh : NoRerun h)
    (hfresh : ∀ y ∈ ys, y ∉ succeeded h) : NoRerun (h ++ pass answer ys h) := by
  refine List.pairwise_append.mpr ⟨hh, ?_, ?_⟩
  · have hcalled : ((pass answer ys h).map Prod.fst).Nodup := by rwa [pass_called]
    refine List.Pairwise.imp ?_ (List.pairwise_map.mp hcalled)
    intro a b hne _
    exact hne
  · rintro ⟨x, r⟩ ha b hb hnone heq
    have hcall : b.1 ∈ (pass answer ys h).map Prod.fst := List.mem_map.mpr ⟨b, hb, rfl⟩
    rw [pass_called] at hcall
    obtain rfl : r = none := hnone
    exact hfresh b.1 hcall (heq ▸ mem_succeeded.mpr ha)

theorem Underway.pass (hn : xs.Nodup) {ys : List ι} {h : History ι} (hu : Underway xs ys h) :
    Underway xs (rejected (pass answer ys h)) (h ++ pass answer ys h) := by
  obtain ⟨rfl, hh⟩ := hu
  have hys : (remaining xs h).Nodup := hn.filter _
  constructor
  · rw [rejected_pass hys, remaining_append]
  · refine noRerun_pass hys hh fun y hy => ?_
    simpa using (List.mem_filter.mp hy).2

theorem underway_reached (hn : xs.Nodup) {p : List ι × History ι}
    (hp : Relation.ReflTransGen (Again answer) (xs, []) p) : Underway xs p.1 p.2 := by
  induction hp with
  | refl => exact ⟨by simp [remaining], List.Pairwise.nil⟩
  | tail _ hagain ih =>
    obtain ⟨-, rfl⟩ := hagain
    exact ih.pass hn

namespace Ended

variable {rest : List ι} {h : History ι}

theorem underway (hn : xs.Nodup) (he : Ended answer xs rest h) : Underway xs rest h := by
  obtain ⟨k, hreach, hstop, rfl⟩ := he.reached
  have hu : Underway xs (rejected (pass answer _ _)) _ := (underway_reached hn hreach).pass hn
  rwa [hstop] at hu

omit [DecidableEq ι] in
theorem wholePasses (he : Ended answer xs rest h) : WholePasses xs h := by
  obtain ⟨k, hreach, hstop, rfl⟩ := he.reached
  obtain ⟨new, heq, hwhole⟩ := wholePasses_of_reached hreach hstop
  rwa [heq]

end Ended

end Environment

section AnyRejection

variable {n : Nat}

def loadAll (answer : Fin n → History (Fin n) → Option Thrown) :
    Outcome Thrown Unit × History (Fin n) :=
  lazyLoader ((List.finRange n).map (generator answer)) []

-- all succeeded, or a DepError carries those that did not; every pass called all it had
def Accounted (answer : Fin n → History (Fin n) → Option Thrown) : Prop :=
  ∃ h, WholePasses (List.finRange n) h ∧
    ((loadAll answer = (.returned (), h) ∧ ∀ i, i ∈ succeeded h) ∨
      ∃ message failures, remaining (List.finRange n) h ≠ [] ∧
        loadAll answer = (.thrown (.depError message
          (some ((remaining (List.finRange n) h).map Fin.val)) failures), h))

theorem accounted_iff (answer : Fin n → History (Fin n) → Option Thrown) :
    Accounted answer ↔ StacksCarried answer (List.finRange n) := by
  constructor
  · rintro ⟨h, -, hrun⟩
    by_contra hc
    obtain ⟨t, ht⟩ := lazyLoader_escapes (List.nodup_finRange n) hc
    rcases hrun with ⟨heq, -⟩ | ⟨_, _, -, heq⟩
    · cases heq.symm.trans ht
    · cases heq.symm.trans ht
  · intro hc
    obtain ⟨rest, h, failures, he, hrun⟩ := lazyLoader_carried (List.nodup_finRange n) hc
    obtain ⟨rfl, -⟩ := he.underway (List.nodup_finRange n)
    refine ⟨h, he.wholePasses, ?_⟩
    by_cases hrest : remaining (List.finRange n) h = []
    · rw [if_pos hrest] at hrun
      refine .inl ⟨hrun, fun i => ?_⟩
      by_contra hi
      have hmem : i ∈ remaining (List.finRange n) h :=
        List.mem_filter.mpr ⟨List.mem_finRange i, by simpa using hi⟩
      rw [hrest] at hmem
      cases hmem
    · have hplaces : (remaining (List.finRange n) h).map (fun i => (List.finRange n).idxOf i) =
          (remaining (List.finRange n) h).map Fin.val :=
        List.map_congr_left fun i _ => List.idxOf_finRange i
      rw [if_neg hrest, hplaces] at hrun
      exact .inr ⟨_, _, hrest, hrun⟩

-- the second promise rejects with null: the third is never called
theorem null_rejection_escapes :
    ¬ Accounted (fun (i : Fin 3) _ => if i = 1 then some .nullish else none) ∧
      loadAll (fun (i : Fin 3) _ => if i = 1 then some .nullish else none) =
        (.thrown (.error "TypeError"), [(0, none), (1, some .nullish)]) := by
  have hrun : loadAll (fun (i : Fin 3) _ => if i = 1 then some .nullish else none) =
      (.thrown (.error "TypeError"), [(0, none), (1, some .nullish)]) := by rfl
  refine ⟨?_, hrun⟩
  rintro ⟨h, -, ⟨heq, -⟩ | ⟨_, _, -, heq⟩⟩
  · cases heq.symm.trans hrun
  · cases heq.symm.trans hrun

end AnyRejection

end Iasql
