import Iasql.Networks
import Iasql.SideReads

namespace Iasql

open Program Prog

section Rounds

variable {W E : Type} [JsRecord E] {A : Realm W E} {d : Direction W E} {env : Env W E}
  {mods : List (Module W E)} {l : Loop} {s t u : Engine W E}

-- what every part of a run keeps
structure Realm.Advances (A : Realm W E) (d : Direction W E) (ms : List (Mapper W E))
    (s t : Engine W E) : Prop where
  sound : A.Sound t.ctx.store
  started : startedAt t.ctx = startedAt s.ctx
  follows : A.Follows d ms (s.ctx.view d) (t.ctx.view d)

omit [JsRecord E] in
theorem Realm.Advances.trans {ms : List (Mapper W E)} (h : A.Advances d ms s t)
    (h' : A.Advances d ms t u) : A.Advances d ms s u :=
  ⟨h'.sound, h'.started.trans h.started, h.follows.trans h'.follows⟩

omit [JsRecord E] in
theorem advances_of_read {ms : List (Mapper W E)} {dest : Dest}
    (hsound : A.Sound s.ctx.store) (h : A.Reading dest ms s.ctx ∅ t.ctx) :
    A.Advances d ms s t := by
  have hstore : (t.ctx.view d).store = (s.ctx.view d).store := h.store
  refine ⟨h.store ▸ hsound, h.started, follows_of_cells (fun m _ i => ?_) fun name _ dest => ?_⟩
  · simp only [Realm.cell, Realm.held, hstore, and_self]
  · rw [hstore]

-- what every part of a run may rely on
structure Realm.Governs (A : Realm W E) (env : Env W E) (d : Direction W E)
    (mods : List (Module W E)) (s : Engine W E) : Prop where
  legible : A.Legible d (handled d mods)
  calm : A.Calm env (startedAt s.ctx)
  sound : A.Sound s.ctx.store

omit [JsRecord E] in
theorem Realm.Governs.advanced (h : A.Governs env d mods s)
    (hadv : A.Advances d (handled d mods) s t) : A.Governs env d mods t :=
  ⟨h.legible, hadv.started ▸ h.calm, hadv.sound⟩

-- a turn reads the target, compares the sides and acts on what it finds
theorem innerTurn_run (force : Bool) (oldOrm : Option Nat)
    (hgov : A.Governs env d mods s) (hne : handled d mods ≠ []) :
    ∃ u, innerTurn env force d mods false [] oldOrm (fun _ => []) l s =
        act d l (planned (handled d mods) u.ctx) u ∧ Quiet s u ∧ u.ctx.view d = s.ctx.view d ∧
      A.Sound u.ctx.store ∧ A.Beheld d (handled d mods) u.ctx := by
  obtain ⟨t, hrun, hread, hquiet⟩ := readSide_run force hgov.legible hgov.calm hgov.sound d.target
  obtain ⟨hview, hb⟩ := view_of_target hgov.legible.sides hread
  refine ⟨{ t with crupdes := (planned (handled d mods) t.ctx).foldl (planRecord d) t.crupdes }, ?_,
    hquiet, hview, (hread.store ▸ hgov.sound : A.Sound t.ctx.store), hb⟩
  have hsome : ¬ (handled d mods).isEmpty = true := by simpa using hne
  unfold innerTurn
  rw [bind_of_returned hrun]
  simp only [if_neg hsome]
  rfl

omit [JsRecord E] in
theorem spinCount_le (l : Loop) (records : List (DiffRecord W E)) :
    (spin l records).spinCount ≤ l.spinCount + 1 := by
  unfold spin
  simp only
  split
  · exact le_refl _
  · exact Nat.zero_le _

theorem doWhile_of_again {β ρ σ : Type} {body : β → Prog σ Thrown (Turn β ρ)} {n : Nat} {b b' : β}
    {s t : σ} (h : body b s = (.returned (.again b'), t)) :
    doWhile body (n + 1) b s = doWhile body n b' t := by
  rw [doWhile_succ, bind_of_returned h]

theorem doWhile_of_leave {β ρ σ : Type} {body : β → Prog σ Thrown (Turn β ρ)} {n : Nat} {b b' : β}
    {s t : σ} (h : body b s = (.returned (.leave b'), t)) :
    doWhile body (n + 1) b s = (.returned (.inl b'), t) := by
  rw [doWhile_succ, bind_of_returned h]
  rfl

theorem doWhile_of_quit {β ρ σ : Type} {body : β → Prog σ Thrown (Turn β ρ)} {n : Nat} {b : β}
    {r : ρ} {s t : σ} (h : body b s = (.returned (.quit r), t)) :
    doWhile body (n + 1) b s = (.returned (.inr r), t) := by
  rw [doWhile_succ, bind_of_returned h]
  rfl

omit [JsRecord E] in
theorem afterInner_again (h : l.ranFullUpdate = true) (s : Engine W E) :
    afterInner (.inl l) s = (.returned (.again l), s) := by
  change (Outcome.returned (if l.ranFullUpdate then Turn.again l else Turn.leave l), s) = _
  rw [if_pos h]

omit [JsRecord E] in
theorem afterInner_leave (h : ¬ l.ranFullUpdate = true) (s : Engine W E) :
    afterInner (.inl l) s = (.returned (.leave l), s) := by
  change (Outcome.returned (if l.ranFullUpdate then Turn.again l else Turn.leave l), s) = _
  rw [if_neg h]

theorem innerTurn_turn (force : Bool) (oldOrm : Option Nat)
    (hlaw : A.Lawful d (handled d mods)) (hgov : A.Governs env d mods s) (hne : handled d mods ≠ [])
    (hin : A.InStep d (handled d mods) (s.ctx.view d))
    (hplain : A.Plain d (handled d mods) (s.ctx.view d))
    (hspin : l.spinCount ≤ 2 ∨ l.dbCount < 0)
    (hfail : A.Trailing d (handled d mods) (s.ctx.view d) ∨ l.failureCount = some (-1)) :
    ∃ l' t, l'.ranFullUpdate = l.ranFullUpdate ∧ l'.spinCount ≤ l.spinCount + 1 ∧
      (l.dbCount < 0 → l'.spinCount = 0) ∧ A.Advances d (handled d mods) s t ∧
      (innerTurn env force d mods false [] oldOrm (fun _ => []) l s = (.returned (.leave l'), t) ∧
          A.Settled d (handled d mods) (t.ctx.view d) ∨
        innerTurn env force d mods false [] oldOrm (fun _ => []) l s =
            (.returned (.again { l' with ranFullUpdate := true }), t) ∧
          A.Trailing d (handled d mods) (t.ctx.view d) ∧
          (A.Trailing d (handled d mods) (s.ctx.view d) →
            A.Settled d (handled d mods) (t.ctx.view d)) ∨
        ∃ n, innerTurn env force d mods false [] oldOrm (fun _ => []) l s =
            (.returned (.leave { l' with failureCount := n, ranFullUpdate := true }), t) ∧
          A.Trailing d (handled d mods) (t.ctx.view d) ∧
          ¬ A.Trailing d (handled d mods) (s.ctx.view d)) := by
  obtain ⟨u, hrun, -, hview, hsoundu, hb⟩ := innerTurn_run force oldOrm (l := l) hgov hne
  have hcount : (spin l (planned (handled d mods) u.ctx)).spinCount ≠ 4 := by
    rcases hspin with hspin | hfresh
    · have := spinCount_le l (planned (handled d mods) u.ctx)
      omega
    · rw [spin_fresh hfresh]
      decide
  obtain ⟨turn, t, hact, hsoundt, hstarted, hfollows, hcases⟩ :=
    act_turn hlaw hsoundu hb (hview ▸ hin) (hview ▸ hplain) hcount (hview ▸ hfail)
  rw [hview] at hstarted hfollows hcases
  rw [hrun, hact]
  refine ⟨spin l (planned (handled d mods) u.ctx), t, spin_ranFullUpdate l _, spinCount_le l _,
    fun hfresh => spin_fresh hfresh, ⟨hsoundt, hstarted, hfollows⟩, ?_⟩
  rcases hcases with ⟨rfl, hs⟩ | ⟨rfl, hrest⟩ | ⟨n, rfl, hrest⟩
  · exact .inl ⟨rfl, hs⟩
  · exact .inr (.inl ⟨rfl, hrest⟩)
  · exact .inr (.inr ⟨n, rfl, hrest⟩)

theorem inner_settled (force : Bool) (oldOrm : Option Nat)
    (hgov : A.Governs env d mods s) (hne : handled d mods ≠ [])
    (hs : A.Settled d (handled d mods) (s.ctx.view d)) (hspin : l.spinCount ≤ 2) (n : Nat) :
    ∃ l' t, doWhile (innerTurn env force d mods false [] oldOrm fun _ => []) (n + 1) l s =
        (.returned (.inl l'), t) ∧ A.Advances d (handled d mods) s t ∧
      A.Settled d (handled d mods) (t.ctx.view d) ∧ Quiet s t ∧
      l'.ranFullUpdate = l.ranFullUpdate ∧ l'.spinCount ≤ l.spinCount + 1 := by
  obtain ⟨u, hrun, hquiet, hview, hsoundu, hb⟩ := innerTurn_run force oldOrm (l := l) hgov hne
  have hcount := spinCount_le l (planned (handled d mods) u.ctx)
  have hact := act_settled hgov.legible.sides hb (hview ▸ hs)
    (show (spin l (planned (handled d mods) u.ctx)).spinCount ≠ 4 by omega)
  refine ⟨_, u, doWhile_of_leave (hrun.trans hact),
    ⟨hsoundu, congrArg Realm.View.started hview, ?_⟩, hview ▸ hs, hquiet,
    spin_ranFullUpdate l _, hcount⟩
  rw [hview]
  exact Realm.Follows.refl _

theorem inner_trailing (force : Bool) (oldOrm : Option Nat)
    (hlaw : A.Lawful d (handled d mods)) (hgov : A.Governs env d mods s) (hne : handled d mods ≠ [])
    (hs : A.Trailing d (handled d mods) (s.ctx.view d)) (hspin : l.spinCount = 0) (n : Nat) :
    ∃ l' t, doWhile (innerTurn env force d mods false [] oldOrm fun _ => []) (n + 2) l s =
        (.returned (.inl l'), t) ∧ A.Advances d (handled d mods) s t ∧
      A.Settled d (handled d mods) (t.ctx.view d) ∧ l'.spinCount ≤ 2 := by
  obtain ⟨l', t, -, hcount, -, hadv, hcases⟩ := innerTurn_turn force oldOrm
    hlaw hgov hne (inStep_of_trailing hs)
    (plain_of_trailing hgov.legible.sides hs) (.inl (hspin.le.trans (Nat.zero_le 2))) (.inl hs)
  rcases hcases with ⟨hrun, hset⟩ | ⟨hrun, -, hset⟩ | ⟨_, -, -, hnot⟩
  · exact ⟨l', t, doWhile_of_leave hrun, hadv, hset, by omega⟩
  · obtain ⟨l'', u, hrest, hadv', hset', -, -, hcount'⟩ := inner_settled force oldOrm
      (l := { l' with ranFullUpdate := true }) (hgov.advanced hadv) hne (hset hs)
      (show l'.spinCount ≤ 2 by omega) n
    change l''.spinCount ≤ l'.spinCount + 1 at hcount'
    exact ⟨l'', u, (doWhile_of_again hrun).trans hrest, hadv.trans hadv', hset', by omega⟩
  · exact absurd hs hnot

theorem inner_first (force : Bool) (oldOrm : Option Nat)
    (hlaw : A.Lawful d (handled d mods)) (hgov : A.Governs env d mods s) (hne : handled d mods ≠ [])
    (hs : A.Noted d (handled d mods) (s.ctx.view d)) (hfresh : l.dbCount < 0)
    (hfail : l.failureCount = some (-1)) (n : Nat) :
    ∃ l' t, doWhile (innerTurn env force d mods false [] oldOrm fun _ => []) (n + 3) l s =
        (.returned (.inl l'), t) ∧ A.Advances d (handled d mods) s t ∧
      (A.Settled d (handled d mods) (t.ctx.view d) ∧ l'.spinCount ≤ 2 ∨
        A.Trailing d (handled d mods) (t.ctx.view d) ∧ l'.spinCount = 0 ∧
          l'.ranFullUpdate = true) := by
  obtain ⟨l', t, -, -, hcount, hadv, hcases⟩ := innerTurn_turn force oldOrm
    hlaw hgov hne (inStep_of_noted hgov.legible hgov.sound hs) (plain_of_noted hs)
    (.inr hfresh) (.inr hfail)
  have hzero := hcount hfresh
  rcases hcases with ⟨hrun, hset⟩ | ⟨hrun, htrail, -⟩ | ⟨k, hrun, htrail, -⟩
  · exact ⟨l', t, doWhile_of_leave hrun, hadv, .inl ⟨hset, by omega⟩⟩
  · obtain ⟨l'', u, hrest, hadv', hset', hcount'⟩ := inner_trailing force oldOrm
      (l := { l' with ranFullUpdate := true }) hlaw (hgov.advanced hadv) hne htrail hzero n
    exact ⟨l'', u, (doWhile_of_again hrun).trans hrest, hadv.trans hadv', .inl ⟨hset', hcount'⟩⟩
  · exact ⟨_, t, doWhile_of_leave hrun, hadv, .inr ⟨htrail, hzero, rfl⟩⟩

theorem outerTurn_run (force : Bool) (oldOrm : Option Nat) (hgov : A.Governs env d mods s) :
    ∃ u, A.Reading d.truth (handled d mods) s.ctx ∅ u.ctx ∧
      A.Advances d (handled d mods) s u ∧ Quiet s u ∧ ∀ fuel l,
        outerTurn env force d mods false [] oldOrm fuel l s =
          (doWhile (innerTurn env force d mods false [] oldOrm fun _ => []) fuel
            { l with ranFullUpdate := false } >>= afterInner) u := by
  obtain ⟨u, hrun, hread, hquiet⟩ := readSide_run force hgov.legible hgov.calm hgov.sound d.truth
  refine ⟨u, hread, advances_of_read hgov.sound hread, hquiet, fun fuel l => ?_⟩
  unfold outerTurn
  rw [bind_of_returned hrun]

theorem outer_settled (force : Bool) (oldOrm : Option Nat) (hgov : A.Governs env d mods s)
    (hne : handled d mods ≠ []) (hs : A.Alike d (handled d mods) (s.ctx.view d))
    (hspin : l.spinCount ≤ 2) (n k : Nat) :
    ∃ l' t, doWhile (outerTurn env force d mods false [] oldOrm (k + 3)) (n + 1) l s =
        (.returned (.inl l'), t) ∧ A.Advances d (handled d mods) s t ∧
      A.Settled d (handled d mods) (t.ctx.view d) ∧ Quiet s t := by
  obtain ⟨u, hread, hadv, hquiet, houter⟩ := outerTurn_run force oldOrm hgov
  obtain ⟨l', t, hinner, hadv', hset, hquiet', hran, -⟩ := inner_settled force oldOrm
    (hgov.advanced hadv) hne (settled_of_truth hread hs)
    (show ({ l with ranFullUpdate := false } : Loop).spinCount ≤ 2 from hspin) (k + 2)
  have hturn : outerTurn env force d mods false [] oldOrm (k + 3) l s =
      (.returned (.leave l'), t) := by
    rw [houter, bind_of_returned hinner]
    exact afterInner_leave (by rw [hran]; simp) t
  exact ⟨l', t, doWhile_of_leave hturn, hadv.trans hadv', hset,
    quietFrame.trans hquiet hquiet'⟩

-- a run of the inner loop that leaves both sides alike is followed by one more of them, or none
theorem outer_of_inner (force : Bool) (oldOrm : Option Nat) (hgov : A.Governs env d mods s)
    (hne : handled d mods ≠ []) {k : Nat} {l' : Loop}
    (hadv : A.Advances d (handled d mods) s t)
    (hturn : outerTurn env force d mods false [] oldOrm (k + 3) l s = (afterInner (.inl l') t))
    (hs : A.Settled d (handled d mods) (t.ctx.view d)) (hspin : l'.spinCount ≤ 2) (n : Nat) :
    ∃ l' t, doWhile (outerTurn env force d mods false [] oldOrm (k + 3)) (n + 2) l s =
        (.returned (.inl l'), t) ∧ A.Advances d (handled d mods) s t ∧
      A.Settled d (handled d mods) (t.ctx.view d) := by
  by_cases hran : l'.ranFullUpdate = true
  · obtain ⟨l'', u, hrest, hadv', hset, -⟩ :=
      outer_settled force oldOrm (hgov.advanced hadv) hne hs.alike hspin n k
    exact ⟨l'', u, (doWhile_of_again (hturn.trans (afterInner_again hran t))).trans hrest,
      hadv.trans hadv', hset⟩
  · exact ⟨l', t, doWhile_of_leave (hturn.trans (afterInner_leave hran t)), hadv, hs⟩

theorem outer_trailing (force : Bool) (oldOrm : Option Nat)
    (hlaw : A.Lawful d (handled d mods)) (hgov : A.Governs env d mods s)
    (hne : handled d mods ≠ []) (hs : A.Trailing d (handled d mods) (s.ctx.view d))
    (hspin : l.spinCount = 0) (n k : Nat) :
    ∃ l' t, doWhile (outerTurn env force d mods false [] oldOrm (k + 3)) (n + 2) l s =
        (.returned (.inl l'), t) ∧ A.Advances d (handled d mods) s t ∧
      A.Settled d (handled d mods) (t.ctx.view d) := by
  obtain ⟨u, hread, hadv, -, houter⟩ := outerTurn_run force oldOrm hgov
  obtain ⟨l', t, hinner, hadv', hset, hcount⟩ := inner_trailing force oldOrm
    hlaw (hgov.advanced hadv) hne (trailing_of_truth hread hs)
    (show ({ l with ranFullUpdate := false } : Loop).spinCount = 0 from hspin) (k + 1)
  refine outer_of_inner force oldOrm hgov hne (hadv.trans hadv') ?_ hset hcount n
  rw [houter, bind_of_returned hinner]

theorem outer_first (force : Bool) (oldOrm : Option Nat)
    (hlaw : A.Lawful d (handled d mods)) (hgov : A.Governs env d mods s)
    (hne : handled d mods ≠ []) (n k : Nat) :
    ∃ l' t, doWhile (outerTurn env force d mods false [] oldOrm (k + 3)) (n + 3) {} s =
        (.returned (.inl l'), t) ∧ A.Advances d (handled d mods) s t ∧
      A.Settled d (handled d mods) (t.ctx.view d) := by
  obtain ⟨u, hread, hadv, -, houter⟩ := outerTurn_run force oldOrm hgov
  obtain ⟨l', t, hinner, hadv', hcases⟩ := inner_first force oldOrm
    hlaw (hgov.advanced hadv) hne (noted_of_truth hread)
    (show ({} : Loop).dbCount < 0 by decide) rfl k
  have hturn : outerTurn env force d mods false [] oldOrm (k + 3) {} s =
      afterInner (.inl l') t := by
    rw [houter]
    exact bind_of_returned hinner
  rcases hcases with ⟨hset, hcount⟩ | ⟨htrail, hcount, hran⟩
  · exact outer_of_inner force oldOrm hgov hne (hadv.trans hadv') hturn hset hcount (n + 1)
  · obtain ⟨l'', v, hrest, hadv'', hset⟩ := outer_trailing force oldOrm
      hlaw (hgov.advanced (hadv.trans hadv')) hne htrail hcount n k
    exact ⟨l'', v, (doWhile_of_again (hturn.trans (afterInner_again hran t))).trans hrest,
      (hadv.trans hadv').trans hadv'', hset⟩

omit [JsRecord E] in
theorem finish_run (hcalm : A.Calm env (startedAt s.ctx)) (hsound : A.Sound s.ctx.store)
    (oldOrm : Option Nat) :
    finish env oldOrm s = (.returned (), { s with ctx := { s.ctx with orm := oldOrm } }) := by
  unfold finish
  rw [bind_of_returned (rfl : Prog.reads _ s = (.returned _, s)),
    bind_of_returned (onStore_returned (hcalm.dropConn _ _ hsound))]
  rfl

end Rounds

section Realizing

variable {W E : Type} [JsRecord E] {A : Realm W E} {d : Direction W E} {env : Env W E}
  {force : Bool} {mods : List (Module W E)} {s : Engine W E}

theorem outer_nothing (force : Bool) (oldOrm : Option Nat) (hgov : A.Governs env d mods s)
    (hnone : handled d mods = []) (n k : Nat) :
    ∃ plan t, doWhile (outerTurn env force d mods false [] oldOrm (k + 1)) (n + 1) {} s =
        (.returned (.inr plan), t) ∧ A.Advances d (handled d mods) s t ∧ Quiet s t := by
  obtain ⟨u, -, hadv, hquiet, houter⟩ := outerTurn_run force oldOrm hgov
  obtain ⟨t, hrun, hread, hquiet'⟩ :=
    readSide_run force hgov.legible (hgov.advanced hadv).calm hadv.sound d.target
  have hadv' := hadv.trans (advances_of_read hadv.sound hread)
  have hinner (l : Loop) : innerTurn env force d mods false [] oldOrm (fun _ => []) l u =
      (.returned (.quit { rows := [] }), { t with ctx := { t.ctx with orm := oldOrm } }) := by
    unfold innerTurn
    rw [bind_of_returned hrun]
    simp only [hnone, List.isEmpty_nil, if_true]
    rw [bind_of_returned (finish_run (hgov.advanced hadv').calm hadv'.sound oldOrm)]
    rfl
  refine ⟨{ rows := [] }, { t with ctx := { t.ctx with orm := oldOrm } }, doWhile_of_quit ?_,
    ⟨hadv'.sound, hadv'.started, hadv'.follows⟩, quietFrame.trans hquiet hquiet'⟩
  rw [houter, bind_of_returned (doWhile_of_quit (hinner _))]
  rfl

theorem reconcile_opened (d : Direction W E) (mods : List (Module W E)) (force : Bool) (fuel : Nat)
    (hcalm : A.Calm env (startedAt s.ctx)) (hsound : A.Sound s.ctx.store) :
    ∃ orm, reconcile env force d mods false [] fuel s =
      (doWhile (outerTurn env force d mods false [] s.ctx.orm fuel) fuel {} >>=
        afterOuter env s.ctx.orm) { s with ctx := { s.ctx with orm := some orm } } := by
  obtain ⟨orm, hconn⟩ := hcalm.createConn _ hsound
  refine ⟨orm, ?_⟩
  unfold reconcile
  rw [bind_of_returned (rfl : Prog.reads _ s = (.returned _, s)),
    bind_of_returned (onStore_returned hconn)]
  rfl

omit [JsRecord E] in
theorem afterOuter_run {l : Loop} (hcalm : A.Calm env (startedAt s.ctx))
    (hsound : A.Sound s.ctx.store) (oldOrm : Option Nat) :
    ∃ plan, afterOuter env oldOrm (.inl l) s =
      (.returned plan, { s with ctx := { s.ctx with orm := oldOrm } }) := by
  refine ⟨{ rows := iasqlPlanV3 env.snakeCase s.crupdes }, ?_⟩
  unfold afterOuter
  simp only
  rw [bind_of_returned (rfl : currentPlan env s = (.returned _, s)),
    bind_of_returned (finish_run hcalm hsound _)]
  rfl

theorem reconcile_run (force : Bool) (hlaw : A.Lawful d (handled d mods))
    (hgov : A.Governs env d mods s) {fuel : Nat}
    (hfuel : 3 ≤ fuel) :
    ∃ plan t, reconcile env force d mods false [] fuel s = (.returned plan, t) ∧
      A.Advances d (handled d mods) s t ∧ A.Settled d (handled d mods) (t.ctx.view d) := by
  obtain ⟨k, rfl⟩ := Nat.exists_eq_add_of_le' hfuel
  obtain ⟨orm, hstart⟩ := reconcile_opened d mods force (k + 3) hgov.calm hgov.sound
  let u : Engine W E := { s with ctx := { s.ctx with orm := some orm } }
  have hu : A.Governs env d mods u := ⟨hgov.legible, hgov.calm, hgov.sound⟩
  rw [hstart]
  by_cases hnone : handled d mods = []
  · obtain ⟨plan, t, hrun, hadv, -⟩ :=
      outer_nothing (s := u) force s.ctx.orm hu hnone (k + 2) (k + 2)
    refine ⟨plan, t, bind_of_returned hrun, ⟨hadv.sound, hadv.started, hadv.follows⟩,
      fun m hm => ?_⟩
    rw [hnone] at hm
    cases hm
  · obtain ⟨l, t, hrun, hadv, hset⟩ := outer_first (s := u) force s.ctx.orm hlaw hu hnone k k
    obtain ⟨plan, hplan⟩ := afterOuter_run (l := l) (hadv.started ▸ hgov.calm) hadv.sound s.ctx.orm
    exact ⟨plan, _, (bind_of_returned hrun).trans hplan,
      ⟨hadv.sound, hadv.started, hadv.follows⟩, hset⟩

-- where the two sides are the same, a run writes nothing
theorem reconcile_quiet (force : Bool) (hgov : A.Governs env d mods s)
    (hs : A.Alike d (handled d mods) (s.ctx.view d)) {fuel : Nat} (hfuel : 3 ≤ fuel) :
    ∃ plan t, reconcile env force d mods false [] fuel s = (.returned plan, t) ∧ Quiet s t ∧
      A.Settled d (handled d mods) (t.ctx.view d) := by
  obtain ⟨k, rfl⟩ := Nat.exists_eq_add_of_le' hfuel
  obtain ⟨orm, hstart⟩ := reconcile_opened d mods force (k + 3) hgov.calm hgov.sound
  let u : Engine W E := { s with ctx := { s.ctx with orm := some orm } }
  have hu : A.Governs env d mods u := ⟨hgov.legible, hgov.calm, hgov.sound⟩
  rw [hstart]
  by_cases hnone : handled d mods = []
  · obtain ⟨plan, t, hrun, hadv, hquiet⟩ :=
      outer_nothing (s := u) force s.ctx.orm hu hnone (k + 2) (k + 2)
    refine ⟨plan, t, bind_of_returned hrun, hquiet, fun m hm => ?_⟩
    rw [hnone] at hm
    cases hm
  · obtain ⟨l, t, hrun, hadv, hset, hquiet⟩ := outer_settled (s := u) (l := {}) force
      s.ctx.orm hu hnone hs (Nat.zero_le 2) (k + 2) k
    obtain ⟨plan, hplan⟩ := afterOuter_run (l := l) (hadv.started ▸ hgov.calm) hadv.sound s.ctx.orm
    exact ⟨plan, _, (bind_of_returned hrun).trans hplan, hquiet, hset⟩

-- and the next run, in either direction, has nothing to do
theorem reconcile_again {d' : Direction W E} {mods' : List (Module W E)} {force' : Bool}
    (hlaw : A.Lawful d (handled d mods)) (hlegible : A.Legible d' (handled d' mods'))
    (hsub : handled d' mods' ⊆ handled d mods) (hcalm : A.Calm env (startedAt s.ctx))
    (hsound : A.Sound s.ctx.store) {fuel fuel' : Nat} (hfuel : 3 ≤ fuel) (hfuel' : 3 ≤ fuel') :
    ∃ plan t, reconcile env force d mods false [] fuel s = (.returned plan, t) ∧
      ∃ plan' u, reconcile env force' d' mods' false [] fuel' t = (.returned plan', u) ∧
        Quiet t u ∧ A.Settled d' (handled d' mods') (u.ctx.view d') := by
  obtain ⟨plan, t, hrun, hadv, hset⟩ :=
    reconcile_run force hlaw ⟨hlaw.toLegible, hcalm, hsound⟩ hfuel
  have halike := alike_of_alike hlaw.sides hlegible.sides hset.alike
  exact ⟨plan, t, hrun, reconcile_quiet force' ⟨hlegible, hadv.started ▸ hcalm, hadv.sound⟩
    (fun m hm => halike m (hsub hm)) hfuel'⟩

theorem reconcile_again_net :
    ∃ plan t, apply netEnv 3 [netModule] false false [] netEngine = (.returned plan, t) ∧
      ∃ plan' u, sync netEnv 3 [netModule] true false t = (.returned plan', u) ∧ Quiet t u ∧
        netRealm.Settled syncDirection [netSubnet, netVpc] (u.ctx.view syncDirection) := by
  have hlaw : netRealm.Lawful applyDirection (handled applyDirection [netModule]) := net_lawful
  have hlegible : netRealm.Legible syncDirection (handled syncDirection [netModule]) :=
    net_legible (by decide)
  have hsub : handled syncDirection [netModule] ⊆ handled applyDirection [netModule] := fun _ h => h
  exact reconcile_again hlaw hlegible hsub net_calm netEngine_sound le_rfl le_rfl

end Realizing

end Iasql
