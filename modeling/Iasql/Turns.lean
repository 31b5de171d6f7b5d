import Iasql.Outstanding
import Iasql.Rounds

namespace Iasql

open Program Prog OrderedMap

section Comparing

variable {W E : Type} [JsRecord E] (A : Realm W E) (d : Direction W E) (ms : List (Mapper W E))

-- what is memoised for the target is what it holds
def Realm.Beheld (c : Context W E) : Prop :=
  ∀ m ∈ ms, ∀ i, withId m.entityId (c.entities d.target m.entityName) i =
    (A.cell d m (c.view d) i).target

-- no entity has been prepared for its update yet
def Realm.Plain (v : Realm.View W E) : Prop :=
  ∀ m ∈ ms, ∀ ec, (A.cell d m v (m.entityId (d.truth.pick ec))).Calls d m (.update ec) →
    (A.cell d m v (m.entityId (d.truth.pick ec))).noted = [d.truth.pick ec]

def planned (c : Context W E) : List (DiffRecord W E) := recordsOf ms (.except fun _ => []) c

def diffOf (m : Mapper W E) (c : Context W E) : EntityDiff E :=
  findDiff (c.entities .db m.entityName) (c.entities .cloud m.entityName) m.entityId m.equals

variable {A : Realm W E} {d ms} {c : Context W E} {m : Mapper W E} {e : E} {ec : E × E} {i : String}

omit [JsRecord E] in
theorem planned_eq : planned ms c = ms.map fun m => ⟨m, diffOf m c⟩ := by
  unfold planned recordsOf diffOf
  have hall (m : Mapper W E) : Filter.passes (.except fun _ => []) m = fun _ => true := rfl
  simp [Filter.restrict, hall]

omit [JsRecord E] in
theorem mem_only (a b : Dest) (h : a ≠ b) : e ∈ (diffOf m c).only a ↔
    (withId m.entityId (c.entities a m.entityName) (m.entityId e)).getLast? = some e ∧
      withId m.entityId (c.entities b m.entityName) (m.entityId e) = [] := by
  have hlast : ∀ (es : List E) i, lastWith m.entityId es i = (withId m.entityId es i).getLast? :=
    fun _ _ => rfl
  have hiff : ∀ es es' : List E, (∃ i, lastWith m.entityId es i = some e ∧
      lastWith m.entityId es' i = none) ↔
      (withId m.entityId es (m.entityId e)).getLast? = some e ∧
        withId m.entityId es' (m.entityId e) = [] := by
    intro es es'
    constructor
    · rintro ⟨i, hi, hn⟩
      obtain rfl := (lastWith_key hi).1
      exact ⟨hi, List.getLast?_eq_none_iff.mp hn⟩
    · rintro ⟨hi, hn⟩
      exact ⟨_, hi, by rw [hlast, hn]; rfl⟩
  cases a <;> cases b
  · exact absurd rfl h
  · exact mem_entitiesInDbOnly.trans (hiff _ _)
  · exact mem_entitiesInAwsOnly.trans (hiff _ _)
  · exact absurd rfl h

omit [JsRecord E] in
theorem pick_injective {ec ec' : E × E} (hd : d.truth ≠ d.target)
    (ht : d.truth.pick ec = d.truth.pick ec') (hr : d.target.pick ec = d.target.pick ec') :
    ec = ec' := by
  refine Prod.ext ?_ ?_ <;> revert hd ht hr <;> cases d.truth <;> cases d.target <;>
    simp_all [Dest.pick]

omit [JsRecord E] in
theorem mem_changed (hd : d.truth ≠ d.target) : ec ∈ (diffOf m c).entitiesChanged ↔
    ∃ i, (withId m.entityId (c.entities d.truth m.entityName) i).getLast? = some (d.truth.pick ec) ∧
      (withId m.entityId (c.entities d.target m.entityName) i).getLast? = some (d.target.pick ec) ∧
      d.same m (d.truth.pick ec) (d.target.pick ec) = false := by
  obtain ⟨x, y⟩ := ec
  refine mem_entitiesChanged.trans (exists_congr fun i => ?_)
  unfold Direction.same
  cases ht : d.truth <;> cases hr : d.target <;> rw [ht, hr] at hd
  · exact absurd rfl hd
  · exact Iff.rfl
  · exact and_left_comm
  · exact absurd rfl hd

omit [JsRecord E] in
theorem mem_tasksOf {x : Task W E} : x ∈ tasksOf d (planned ms c) ↔ x.mapper ∈ ms ∧
    match x.operation with
    | .create e => e ∈ (diffOf x.mapper c).only d.truth
    | .update ec => ec ∈ (diffOf x.mapper c).entitiesChanged
    | .delete e => e ∈ (diffOf x.mapper c).only d.target := by
  obtain ⟨m, op⟩ := x
  rw [planned_eq]
  unfold tasksOf
  cases op <;> simp

omit [JsRecord E] in
theorem called_of_task (hd : d.truth ≠ d.target) (hb : A.Beheld d ms c)
    (hin : A.InStep d ms (c.view d)) (hplain : A.Plain d ms (c.view d)) {x : Task W E}
    (hx : x ∈ tasksOf d (planned ms c)) :
    x.mapper ∈ ms ∧ x.Called A d (c.view d) := by
  obtain ⟨hm, hmem⟩ := mem_tasksOf.mp hx
  refine ⟨hm, ?_⟩
  obtain ⟨m, op⟩ := x
  cases op with
  | create e =>
    obtain ⟨hnoted, htarget⟩ := (mem_only _ _ hd).mp hmem
    rw [hb m hm] at htarget
    change (A.cell d m (c.view d) (m.entityId e)).noted.getLast? = some e at hnoted
    rcases hin m hm (m.entityId e) with (⟨hn, -⟩ | ⟨t, r, -, hr, -⟩) | ⟨op', hid, hcalls⟩
    · rw [hn] at hnoted
      cases hnoted
    · rw [hr] at htarget
      cases htarget
    · cases op' with
      | create e' =>
        rw [hcalls.1] at hnoted
        cases hnoted
        exact hcalls
      | update ec => exact absurd (hcalls.2.2.1.symm.trans htarget) (by simp)
      | delete e' => exact absurd (hcalls.2.2.symm.trans htarget) (by simp)
  | delete e =>
    obtain ⟨htarget, hnoted⟩ := (mem_only _ _ hd.symm).mp hmem
    rw [hb m hm] at htarget
    change (A.cell d m (c.view d) (m.entityId e)).noted = [] at hnoted
    rcases hin m hm (m.entityId e) with (⟨-, -, hr⟩ | ⟨t, r, -, -, -, hne, -⟩) | ⟨op', hid, hcalls⟩
    · rw [hr] at htarget
      cases htarget
    · exact absurd hnoted hne
    · cases op' with
      | create e' => exact absurd (hcalls.1.symm.trans hnoted) (by simp)
      | update ec => rcases hcalls.1 with h | h <;> exact absurd (h.symm.trans hnoted) (by simp)
      | delete e' =>
        rw [hcalls.2.2] at htarget
        cases htarget
        exact hcalls
  | update ec =>
    obtain ⟨i, hnoted, htarget, hdiff⟩ := (mem_changed hd).mp hmem
    have hi := (lastWith_key hnoted).1
    rw [hb m hm] at htarget
    change (A.cell d m (c.view d) i).noted.getLast? = some (d.truth.pick ec) at hnoted
    change (A.cell d m (c.view d) (m.entityId (d.truth.pick ec))).Calls d m (.update ec)
    rw [hi]
    rcases hin m hm i with (⟨hn, -⟩ | ⟨t, r, -, hr, -, -, hall⟩) | ⟨op', hid, hcalls⟩
    · rw [hn] at hnoted
      cases hnoted
    · rw [hr] at htarget
      have hsame := hall _ (List.mem_of_getLast? hnoted)
      have hrow : r = d.target.pick ec := Option.some.inj htarget
      rw [hrow] at hsame
      exact absurd (hdiff.symm.trans hsame) (by simp)
    · cases op' with
      | create e => exact absurd (congrArg List.getLast? hcalls.2.2) (by rw [htarget]; simp)
      | delete e => exact absurd (congrArg List.getLast? hcalls.1) (by rw [hnoted]; simp)
      | update ec' =>
        have hid' : m.entityId (d.truth.pick ec') = i := hid
        have hsole := hplain m hm ec' (hid' ▸ hcalls)
        rw [hid'] at hsole
        rw [hsole] at hnoted
        rw [hcalls.2.2.1] at htarget
        obtain rfl : ec' = ec :=
          pick_injective hd (Option.some.inj hnoted) (Option.some.inj htarget)
        exact hcalls

omit [JsRecord E] in
theorem task_of_called (hd : d.truth ≠ d.target) (hb : A.Beheld d ms c)
    (hplain : A.Plain d ms (c.view d)) (hm : m ∈ ms) {op : Operation E}
    (hcalls : (A.cell d m (c.view d) (op.id d m)).Calls d m op) :
    (⟨m, op⟩ : Task W E) ∈ tasksOf d (planned ms c) := by
  have hnotes : ∀ i, withId m.entityId (c.entities d.truth m.entityName) i =
    (A.cell d m (c.view d) i).noted := fun _ => rfl
  refine mem_tasksOf.mpr ⟨hm, ?_⟩
  cases op with
  | create e =>
    refine (mem_only _ _ hd).mpr ⟨?_, (hb m hm _).trans hcalls.2.2⟩
    rw [hnotes, show (A.cell d m (c.view d) (m.entityId e)).noted = [e] from hcalls.1]
    rfl
  | update ec =>
    refine (mem_changed hd).mpr ⟨m.entityId (d.truth.pick ec), ?_, ?_, hcalls.2.2.2⟩
    · rw [hnotes, hplain m hm ec hcalls]
      rfl
    · rw [hb m hm, show (A.cell d m (c.view d) (m.entityId (d.truth.pick ec))).target =
        [d.target.pick ec] from hcalls.2.2.1]
      rfl
  | delete e =>
    refine (mem_only _ _ hd.symm).mpr ⟨?_, (hnotes _).trans hcalls.1⟩
    rw [hb m hm, show (A.cell d m (c.view d) (m.entityId e)).target = [e] from hcalls.2.2]
    rfl

omit [JsRecord E] in
theorem nodup_only (a : Dest) : ((diffOf m c).only a).Nodup := by
  cases a
  · exact (nodup_ids_dbOnly).of_map _
  · exact (nodup_ids_awsOnly).of_map _

omit [JsRecord E] in
theorem nodup_tasksOf (hms : ms.Nodup) : (tasksOf d (planned ms c)).Nodup := by
  have hapart : ∀ f : Mapper W E → List (Task W E), (∀ m, ∀ x ∈ f m, x.mapper = m) →
      (∀ m, (f m).Nodup) → ∀ l : List (Mapper W E), l.Nodup → (l.flatMap f).Nodup := by
    intro f hf hnodup l hl
    refine List.nodup_flatMap.mpr ⟨fun m _ => hnodup m, hl.imp fun hne => ?_⟩
    exact fun x hx hx' => hne ((hf _ x hx).symm.trans (hf _ x hx'))
  rw [planned_eq]
  unfold tasksOf
  rw [← List.map_reverse, List.flatMap_map, List.flatMap_map]
  refine List.nodup_append.mpr ⟨hapart _ ?_ (fun m => ?_) _ hms, hapart _ ?_ (fun m => ?_) _
    (List.nodup_reverse.mpr hms), ?_⟩
  · intro m x hx
    rcases List.mem_append.mp hx with hx | hx <;> obtain ⟨_, -, rfl⟩ := List.mem_map.mp hx <;> rfl
  · refine List.nodup_append.mpr ⟨(nodup_only _).map fun _ _ h => ?_,
      (nodup_ids_changed.of_map _).map fun _ _ h => ?_, ?_⟩
    · cases h; rfl
    · cases h; rfl
    · rintro x hx _ hx' rfl
      obtain ⟨e, -, rfl⟩ := List.mem_map.mp hx
      obtain ⟨ec, -, heq⟩ := List.mem_map.mp hx'
      cases heq
  · intro m x hx
    obtain ⟨_, -, rfl⟩ := List.mem_map.mp hx
    rfl
  · exact (nodup_only _).map fun _ _ h => by cases h; rfl
  · rintro x hx _ hx' rfl
    obtain ⟨m, -, hx⟩ := List.mem_flatMap.mp hx
    obtain ⟨m', -, hx'⟩ := List.mem_flatMap.mp hx'
    obtain ⟨e, -, rfl⟩ := List.mem_map.mp hx'
    rcases List.mem_append.mp hx with hx | hx <;> obtain ⟨_, -, heq⟩ := List.mem_map.mp hx <;>
      cases heq

theorem outstanding_of_comparison (hlaw : A.Lawful d ms) (hsound : A.Sound c.store)
    (hb : A.Beheld d ms c) (hin : A.InStep d ms (c.view d)) (hplain : A.Plain d ms (c.view d))
    {left : Prop} (hleft : left ∨ ∀ x ∈ tasksOf d (planned ms c), x.operation.Deletes) :
    Outstanding A d ms (c.view d) left {x | x ∈ tasksOf d (planned ms c)} (c.view d) where
  sound := hsound
  started := rfl
  called _ hx := called_of_task hlaw.sides hb hin hplain hx
  covered m hm i := by
    refine (hin m hm i).imp_right fun ⟨op, hid, hcalls⟩ => .inl ⟨⟨m, op⟩, ?_, rfl, hid⟩
    exact task_of_called hlaw.sides hb hplain hm (hid.symm ▸ hcalls)
  deletes := hleft
  follows := Realm.Follows.refl _

end Comparing

section Turning

variable {W E : Type} [JsRecord E] (A : Realm W E) (d : Direction W E) (ms : List (Mapper W E))

def Realm.Settled (v : Realm.View W E) : Prop := ∀ m ∈ ms, ∀ i, (A.cell d m v i).Agrees d m

-- only deletions are called for
def Realm.Trailing (v : Realm.View W E) : Prop :=
  ∀ m ∈ ms, ∀ i, (A.cell d m v i).Agrees d m ∨
    ∃ e, m.entityId e = i ∧ (A.cell d m v i).Calls d m (.delete e)

variable {A d ms} {s : Engine W E} {l : Loop} {left : Prop} {v : Realm.View W E}

omit [JsRecord E] in
theorem inStep_of_trailing (h : A.Trailing d ms v) : A.InStep d ms v := fun m hm i =>
  (h m hm i).imp_right fun ⟨e, hid, hcalls⟩ => ⟨.delete e, hid, hcalls⟩

omit [JsRecord E] in
theorem plain_of_trailing (hd : d.truth ≠ d.target) (h : A.Trailing d ms v) : A.Plain d ms v := by
  intro m hm ec hcalls
  rcases h m hm _ with hagrees | ⟨e, -, hdelete⟩
  · exact absurd hcalls (Cell.not_calls_of_agrees hagrees)
  · cases Cell.calls_unique hd hcalls hdelete

omit [JsRecord E] in
theorem Realm.Settled.trailing (h : A.Settled d ms v) : A.Trailing d ms v :=
  fun m hm i => .inl (h m hm i)

omit [JsRecord E] in
theorem spin_failureCount (l : Loop) (records : List (DiffRecord W E)) :
    (spin l records).failureCount = l.failureCount := by
  unfold spin
  split
  split <;> rfl

theorem generators_run (hlaw : A.Lawful d ms) (hsound : A.Sound s.ctx.store)
    (hb : A.Beheld d ms s.ctx) (hin : A.InStep d ms (s.ctx.view d))
    (hplain : A.Plain d ms (s.ctx.view d))
    (hleft : left ∨ ∀ x ∈ tasksOf d (planned ms s.ctx), x.operation.Deletes) :
    ∃ ys t, Outstanding A d ms (s.ctx.view d) left {x | x ∈ ys} (t.ctx.view d) ∧
      (∀ x ∈ ys, left ∧ x.operation.Deletes) ∧
      (ys = [] ∧ lazyLoader (generators d (planned ms s.ctx)) s = (.returned (), t) ∨ ys ≠ [] ∧
        ∃ n e, lazyLoader (generators d (planned ms s.ctx)) s = (.thrown e, t) ∧
          e.generatorsToRunLength = some (n + 1 : Nat)) := by
  have hlate : ∀ x y : Task W E, left ∧ x.operation.Deletes → x.rank A ≤ y.rank A →
      left ∧ y.operation.Deletes := by
    rintro x y ⟨hl, hx⟩ hle
    refine ⟨hl, ?_⟩
    by_contra hy
    exact absurd (hlaw.deletesLast x.mapper.entityName y.mapper.entityName _ _ hx hy)
      (Nat.not_lt.mpr hle)
  obtain ⟨ys, t, -, hI, hys, hrun⟩ := lazyLoader_resolves
    (perform_resolves hlaw (s.ctx.view d) left) hlate (nodup_tasksOf (hlaw.names.of_map _))
    (outstanding_of_comparison hlaw hsound hb hin hplain hleft)
  rw [← generators_eq] at hrun
  exact ⟨ys, t, hI, hys, hrun⟩

theorem act_settled (hd : d.truth ≠ d.target) (hb : A.Beheld d ms s.ctx)
    (hs : A.Settled d ms (s.ctx.view d)) (hspin : (spin l (planned ms s.ctx)).spinCount ≠ 4) :
    act d l (planned ms s.ctx) s = (.returned (.leave (spin l (planned ms s.ctx))), s) := by
  have hnone : tasksOf d (planned ms s.ctx) = [] := by
    refine List.eq_nil_iff_forall_not_mem.mpr fun x hx => ?_
    obtain ⟨hm, hcalled⟩ := called_of_task hd hb (inStep_of_trailing hs.trailing)
      (plain_of_trailing hd hs.trailing) hx
    exact Cell.not_calls_of_agrees (hs _ hm _) hcalled
  have hempty : (generators d (planned ms s.ctx)).isEmpty = true := by
    rw [generators_eq, hnone]
    rfl
  unfold act
  simp only [if_neg hspin, if_pos hempty]
  rfl

-- one turn does all that it finds, but deletions that wait for what an update has replaced
theorem act_turn (hlaw : A.Lawful d ms) (hsound : A.Sound s.ctx.store) (hb : A.Beheld d ms s.ctx)
    (hin : A.InStep d ms (s.ctx.view d)) (hplain : A.Plain d ms (s.ctx.view d))
    (hspin : (spin l (planned ms s.ctx)).spinCount ≠ 4)
    (hfail : A.Trailing d ms (s.ctx.view d) ∨ l.failureCount = some (-1)) :
    ∃ turn t, act d l (planned ms s.ctx) s = (.returned turn, t) ∧ A.Sound t.ctx.store ∧
      (t.ctx.view d).started = (s.ctx.view d).started ∧
      A.Follows d ms (s.ctx.view d) (t.ctx.view d) ∧
      (turn = .leave (spin l (planned ms s.ctx)) ∧ A.Settled d ms (t.ctx.view d) ∨
        turn = .again { spin l (planned ms s.ctx) with ranFullUpdate := true } ∧
          A.Trailing d ms (t.ctx.view d) ∧
          (A.Trailing d ms (s.ctx.view d) → A.Settled d ms (t.ctx.view d)) ∨
        ∃ n, turn = .leave { spin l (planned ms s.ctx) with
            failureCount := n, ranFullUpdate := true } ∧
          A.Trailing d ms (t.ctx.view d) ∧ ¬ A.Trailing d ms (s.ctx.view d)) := by
  by_cases hnone : tasksOf d (planned ms s.ctx) = []
  · have hempty : (generators d (planned ms s.ctx)).isEmpty = true := by
      rw [generators_eq, hnone]
      rfl
    refine ⟨_, s, ?_, hsound, rfl, Realm.Follows.refl _, .inl ⟨rfl, fun m hm i => ?_⟩⟩
    · unfold act
      simp only [if_neg hspin, if_pos hempty]
      rfl
    · refine (hin m hm i).resolve_right ?_
      rintro ⟨op, rfl, hcalls⟩
      have hmem := task_of_called hlaw.sides hb hplain hm hcalls
      rw [hnone] at hmem
      cases hmem
  · have hne : ¬ (generators d (planned ms s.ctx)).isEmpty = true := by
      rw [generators_eq, List.isEmpty_iff, List.map_eq_nil_iff]
      exact hnone
    have hleft : ¬ A.Trailing d ms (s.ctx.view d) ∨
        ∀ x ∈ tasksOf d (planned ms s.ctx), x.operation.Deletes := by
      refine or_iff_not_imp_left.mpr fun htrail x hx => ?_
      obtain ⟨hm, hcalled⟩ := called_of_task hlaw.sides hb hin hplain hx
      rcases not_not.mp htrail x.mapper hm (x.id d) with hagrees | ⟨e, -, hcalls⟩
      · exact absurd hcalled (Cell.not_calls_of_agrees hagrees)
      · rw [Cell.calls_unique hlaw.sides hcalled hcalls]
        trivial
    obtain ⟨ys, t, hI, hys, hrun⟩ := generators_run hlaw hsound hb hin hplain hleft
    have htrailing : A.Trailing d ms (t.ctx.view d) := by
      intro m hm i
      rcases hI.covered m hm i with hagrees | ⟨x, hx, rfl, rfl⟩ | ⟨-, hdelete⟩
      · exact .inl hagrees
      · obtain ⟨m, op⟩ := x
        obtain ⟨-, hdeletes⟩ := hys _ hx
        cases op with
        | create e => exact hdeletes.elim
        | update ec => exact hdeletes.elim
        | delete e => exact .inr ⟨e, rfl, (hI.called _ hx).2⟩
      · exact .inr hdelete
    rcases hrun with ⟨rfl, hdone⟩ | ⟨hys', n, e, hput, hlength⟩
    · refine ⟨_, t, ?_, hI.sound, hI.started, hI.follows,
        .inr (.inl ⟨rfl, htrailing, ?_⟩)⟩
      · unfold act
        simp only [if_neg hspin, if_neg hne]
        rw [bind_of_returned (attempt_ok.mpr hdone)]
        rfl
      · intro hstart m hm i
        rcases hI.covered m hm i with hagrees | ⟨x, hx, -⟩ | ⟨hnot, -⟩
        · exact hagrees
        · cases hx
        · exact absurd hstart hnot
    · obtain ⟨x, hx⟩ := List.exists_mem_of_ne_nil ys hys'
      have hstart := (hys x hx).1
      have hcount : (spin l (planned ms s.ctx)).failureCount ≠ e.generatorsToRunLength := by
        rw [spin_failureCount, hfail.resolve_left hstart, hlength]
        intro h
        have := Option.some.inj h
        omega
      refine ⟨_, t, ?_, hI.sound, hI.started, hI.follows,
        .inr (.inr ⟨e.generatorsToRunLength, rfl, htrailing, hstart⟩)⟩
      unfold act
      simp only [if_neg hspin, if_neg hne]
      rw [bind_of_returned (attempt_error.mpr hput)]
      simp only [if_neg hcount]
      rfl

end Turning

end Iasql
