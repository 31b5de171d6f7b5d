import Iasql.Rounds

namespace Iasql

open Program Prog

section FirstRound

variable {W E : Type} [JsRecord E] (env : Env W E) (force : Bool) (d : Direction W E)
  (mods : List (Module W E))

-- what a phase without changes to commit compares before it acts for the first time
def look (known : ChangeSet E) : Prog (Engine W E) Thrown (List (DiffRecord W E)) := do
  let changes ← readSide env force (handled d mods) d.target known
  compareSides d (handled d mods) (.except changes)

def firstDiff : Prog (Engine W E) Thrown (List (DiffRecord W E)) := do
  let orm ← onStore env.createConn
  modifyCtx fun ctx => { ctx with orm := some orm }
  let known ← readSide env force (handled d mods) d.truth fun _ => []
  look env force d mods known

variable {env force d mods} {oldOrm : Option Nat} {known : ChangeSet E} {l : Loop}
  {fuel : Nat} {s t : Engine W E}

theorem innerTurn_nil (h : (handled d mods).isEmpty = true) :
    innerTurn env force d mods false [] oldOrm known l =
      (readSide env force (handled d mods) d.target known >>= fun _ =>
        finish env oldOrm >>= fun _ => pure (.quit { rows := [] })) := by
  unfold innerTurn
  simp only [h, if_true]

theorem innerTurn_cons (h : (handled d mods).isEmpty = false) :
    innerTurn env force d mods false [] oldOrm known l =
      (readSide env force (handled d mods) d.target known >>= fun changes =>
        compareSides d (handled d mods) (.except changes) >>= act d l) := by
  unfold innerTurn
  simp only [h, Bool.false_eq_true, if_false]
  rfl

theorem quiet_innerTurn_iff (hd : d.truth ≠ d.target) (hl : l.dbCount < 0) :
    Quiet s (innerTurn env force d mods false [] oldOrm known l s).2 ↔
      ∀ records u, look env force d mods known s = (.returned records, u) →
        ∀ r ∈ records, r.diff.IsEmpty := by
  cases h : (handled d mods).isEmpty with
  | true =>
    rw [innerTurn_nil h]
    have hfinish : quietFrame.Keeps (do
        finish env oldOrm
        (pure (.quit { rows := [] }) : Prog (Engine W E) Thrown (Turn Loop Plan))) :=
      Frame.keeps_bind (keeps_finish quietFrame env oldOrm) fun _ => Frame.keeps_pure _
    have hquiet := Frame.keeps_bind (keeps_readSide quietFrame env force (handled d mods) d.target
      known) fun _ => hfinish
    refine iff_of_true (hquiet s) ?_
    intro records u hlook r hr
    obtain ⟨changes, v, -, hcmp⟩ := bind_returned_inv hlook
    cases hcmp
    simp [recordsOf, List.isEmpty_iff.mp h] at hr
  | false =>
    rw [innerTurn_cons h, look, forall_bind_returned]
    refine (quiet_bind_left (keeps_readSide quietFrame env force _ _ _)
      (keeps_readSide growFrame env force _ _ _) fun _ =>
        Frame.keeps_bind (keeps_compareSides growFrame d _ _) (grows_act d l)).trans ?_
    refine forall_congr' fun changes => forall_congr' fun t => forall_congr' fun _ => ?_
    refine (quiet_bind_left (keeps_compareSides quietFrame d _ _)
      (keeps_compareSides growFrame d _ _) (grows_act d l)).trans ?_
    exact forall_congr' fun records => forall_congr' fun u => forall_congr' fun _ =>
      quiet_act_iff hd hl

theorem innerTurn_settles (hd : d.truth ≠ d.target) (hl : l.dbCount < 0)
    (hq : Quiet s (innerTurn env force d mods false [] oldOrm known l s).2)
    {turn : Turn Loop Plan}
    (h : innerTurn env force d mods false [] oldOrm known l s = (.returned turn, t)) :
    (∃ b : Loop, turn = .leave b ∧ b.ranFullUpdate = l.ranFullUpdate) ∨
      ∃ plan, turn = .quit plan := by
  cases hm : (handled d mods).isEmpty with
  | true =>
    rw [innerTurn_nil hm] at h
    obtain ⟨changes, u, -, hfin⟩ := bind_returned_inv h
    obtain ⟨_, v, -, hpure⟩ := bind_returned_inv hfin
    cases hpure
    exact .inr ⟨_, rfl⟩
  | false =>
    rw [innerTurn_cons hm] at h hq
    obtain ⟨changes, u, hread, hcmp⟩ := bind_returned_inv h
    obtain ⟨records, v, hrec, hact⟩ := bind_returned_inv hcmp
    have hq' := (quiet_bind_left (keeps_readSide quietFrame env force _ _ _)
      (keeps_readSide growFrame env force _ _ _) fun _ =>
        Frame.keeps_bind (keeps_compareSides growFrame d _ _) (grows_act d l)).mp hq _ _ hread
    have hq'' := (quiet_bind_left (keeps_compareSides quietFrame d _ _)
      (keeps_compareSides growFrame d _ _) (grows_act d l)).mp hq' _ _ hrec
    exact .inl (settled_of_quiet hl hd hq'' hact)

theorem grows_innerTurn (known : ChangeSet E) (b : Loop) :
    growFrame.Keeps (innerTurn env force d mods false [] oldOrm known b) :=
  keeps_innerTurn growFrame env force d mods [] (fun _ => grows_act d) oldOrm known b

theorem quiet_innerLoop_iff (hd : d.truth ≠ d.target) (hl : l.dbCount < 0) :
    Quiet s (doWhile (innerTurn env force d mods false [] oldOrm known) (fuel + 1) l s).2 ↔
      Quiet s (innerTurn env force d mods false [] oldOrm known l s).2 := by
  refine ⟨quiet_divides.doWhile_first (grows_innerTurn known), fun hq => ?_⟩
  rw [doWhile_once]
  · exact hq
  · intro turn u hturn
    rcases innerTurn_settles hd hl hq hturn with ⟨b, rfl, -⟩ | ⟨plan, rfl⟩ <;> exact not_false

theorem quiet_outerTurn_iff (hd : d.truth ≠ d.target) (hl : l.dbCount < 0) :
    Quiet s (outerTurn env force d mods false [] oldOrm (fuel + 1) l s).2 ↔
      ∀ known t, readSide env force (handled d mods) d.truth (fun _ => []) s = (.returned known, t) →
        ∀ records u, look env force d mods known t = (.returned records, u) →
          ∀ r ∈ records, r.diff.IsEmpty := by
  refine (quiet_bind_left (keeps_readSide quietFrame env force _ _ _)
    (keeps_readSide growFrame env force _ _ _) fun known =>
      Frame.keeps_bind (Frame.keeps_doWhile (grows_innerTurn known) _ _)
        (keeps_afterInner growFrame)).trans ?_
  refine forall_congr' fun known => forall_congr' fun t => forall_congr' fun _ => ?_
  refine (quiet_bind_right (Frame.keeps_doWhile (grows_innerTurn known) _ _)
    (keeps_afterInner growFrame) (keeps_afterInner quietFrame)).trans ?_
  have hl' : ({ l with ranFullUpdate := false } : Loop).dbCount < 0 := hl
  exact (quiet_innerLoop_iff hd hl').trans (quiet_innerTurn_iff hd hl')

theorem outerTurn_settles (hd : d.truth ≠ d.target) (hl : l.dbCount < 0)
    (hq : Quiet s (outerTurn env force d mods false [] oldOrm (fuel + 1) l s).2)
    {turn : Turn Loop Plan}
    (h : outerTurn env force d mods false [] oldOrm (fuel + 1) l s = (.returned turn, t)) :
    ¬ turn.IsAgain := by
  have hl' : ({ l with ranFullUpdate := false } : Loop).dbCount < 0 := hl
  obtain ⟨known, u, hread, hloop⟩ := bind_returned_inv h
  have hq1 := (quiet_bind_left (keeps_readSide quietFrame env force _ _ _)
    (keeps_readSide growFrame env force _ _ _) fun known =>
      Frame.keeps_bind (Frame.keeps_doWhile (grows_innerTurn known) _ _)
        (keeps_afterInner growFrame)).mp hq _ _ hread
  have hq2 := (quiet_innerLoop_iff hd hl').mp
    (quiet_divides.bind_first (Frame.keeps_doWhile (grows_innerTurn known) _ _)
      (keeps_afterInner growFrame) hq1)
  have hset : ∀ turn t, innerTurn env force d mods false [] oldOrm known
      { l with ranFullUpdate := false } u = (.returned turn, t) → _ :=
    fun turn t hturn => innerTurn_settles hd hl' hq2 hturn
  obtain ⟨r, v, hr, hafter⟩ := bind_returned_inv hloop
  have hnot : ∀ turn t, innerTurn env force d mods false [] oldOrm known
      { l with ranFullUpdate := false } u = (.returned turn, t) → ¬ turn.IsAgain := by
    intro turn t hturn
    rcases hset turn t hturn with ⟨b, rfl, -⟩ | ⟨plan, rfl⟩ <;> exact not_false
  rcases doWhile_once_returned hnot hr with ⟨b, hb, rfl⟩ | ⟨plan, hp, rfl⟩
  · rcases hset _ _ hb with ⟨b', hb', hran⟩ | ⟨plan, hplan⟩
    · cases hb'
      cases hafter
      rw [hran]
      exact not_false
    · cases hplan
  · cases hafter
    exact not_false

theorem grows_outerTurn (n : Nat) (b : Loop) :
    growFrame.Keeps (outerTurn env force d mods false [] oldOrm n b) :=
  keeps_outerTurn growFrame env force d mods [] (fun _ => grows_act d) _ _ b

theorem quiet_outerLoop_iff (hd : d.truth ≠ d.target) (hl : l.dbCount < 0) :
    Quiet s (doWhile (outerTurn env force d mods false [] oldOrm (fuel + 1)) (fuel + 1) l s).2 ↔
      Quiet s (outerTurn env force d mods false [] oldOrm (fuel + 1) l s).2 := by
  refine ⟨quiet_divides.doWhile_first (grows_outerTurn _), fun hq => ?_⟩
  rw [doWhile_once]
  · exact hq
  · exact fun turn u hturn => outerTurn_settles hd hl hq hturn

theorem quiet_reconcile_iff (hd : d.truth ≠ d.target) :
    Quiet s (reconcile env force d mods false [] (fuel + 1) s).2 ↔
      ∀ records u, firstDiff env force d mods s = (.returned records, u) →
        ∀ r ∈ records, r.diff.IsEmpty := by
  have hfresh : ({} : Loop).dbCount < 0 := by decide
  have hloop : growFrame.Keeps (doWhile (outerTurn env force d mods false [] s.ctx.orm (fuel + 1))
      (fuel + 1) {}) := Frame.keeps_doWhile (grows_outerTurn _) _ _
  unfold firstDiff
  rw [forall_bind_returned]
  refine (quiet_bind_left (keeps_onStore quietFrame env.createConn)
    (keeps_onStore growFrame _) fun _ => Frame.keeps_bind (keeps_modifyCtx growFrame _) fun _ =>
      Frame.keeps_bind hloop (keeps_afterOuter growFrame env _)).trans ?_
  refine forall_congr' fun orm => forall_congr' fun t => forall_congr' fun _ => ?_
  rw [forall_bind_returned]
  refine (quiet_bind_left (keeps_modifyCtx quietFrame _) (keeps_modifyCtx growFrame _) fun _ =>
      Frame.keeps_bind hloop (keeps_afterOuter growFrame env _)).trans ?_
  refine forall_congr' fun _ => forall_congr' fun u => forall_congr' fun _ => ?_
  rw [forall_bind_returned]
  refine (quiet_bind_right hloop (keeps_afterOuter growFrame env _)
    (keeps_afterOuter quietFrame env _)).trans ?_
  exact (quiet_outerLoop_iff hd hfresh).trans (quiet_outerTurn_iff hd hfresh)

end FirstRound

section Revert

variable {W E : Type} [JsRecord E] (env : Env W E) (mods : List (Module W E))

def revertQueries (tx : Option String) : Prog (Engine W E) Thrown (List Statement) := do
  let orm ← Prog.reads fun s => s.ctx.orm
  let _ ← insertLog env orm .startRevert tx none
  findInverseQueries env mods

-- revert has no query to run, and its apply sees the database and the cloud agree
def RevertFindsNothing (u : Engine W E) : Prop :=
  ∀ queries v, revertQueries env mods u.currentTransactionId u = (.returned queries, v) →
    queries = [] ∧ ∀ records w, firstDiff env true applyDirection mods v = (.returned records, w) →
      ∀ r ∈ records, r.diff.IsEmpty

variable {env mods} {fuel : Nat} {s : Engine W E}

theorem quiet_applyInverseQueries_iff (queries : List Statement) :
    Quiet s (applyInverseQueries env (fuel + 1) queries mods s).2 ↔
      queries = [] ∧ ∀ records w, firstDiff env true applyDirection mods s = (.returned records, w) →
        ∀ r ∈ records, r.diff.IsEmpty := by
  have hd : (applyDirection : Direction W E).truth ≠ (applyDirection : Direction W E).target := by
    simp [applyDirection]
  have happly : growFrame.Keeps (apply env (fuel + 1) mods true false [] >>= fun _ => pure ()) :=
    Frame.keeps_bind (grows_reconcile env _ _ _ _ _ _) fun _ => Frame.keeps_pure _
  cases queries with
  | nil =>
    refine (quiet_bind_right (p := apply env (fuel + 1) mods true false []) (k := fun _ => pure ())
      (grows_reconcile env _ _ _ _ _ _) (fun _ => Frame.keeps_pure _)
      fun _ => Frame.keeps_pure _).trans ?_
    exact (quiet_reconcile_iff hd).trans (by simp)
  | cons q queries =>
    refine iff_of_false ?_ (by simp)
    have hone : ∀ q, growFrame.Keeps (emit (.inverseQuery q) >>= fun _ =>
        (onStore (env.query q)).attempt >>= fun _ => pure () : Prog (Engine W E) Thrown Unit) :=
      fun q => Frame.keeps_bind (grows_emit _) fun _ =>
        Frame.keeps_bind (Frame.keeps_attempt (keeps_onStore growFrame _)) fun _ =>
          Frame.keeps_pure _
    intro hq
    have hrun := quiet_divides.bind_first (p := runInverseQueries env (q :: queries))
      (Frame.keeps_each fun q _ => hone q) (fun _ => happly) hq
    have hfirst := quiet_divides.bind_first (hone q)
      (fun _ => Frame.keeps_each fun q _ => hone q) hrun
    exact not_quiet_emit rfl s (quiet_divides.bind_first (grows_emit _) (fun _ =>
      Frame.keeps_bind (Frame.keeps_attempt (keeps_onStore growFrame _)) fun _ =>
        Frame.keeps_pure _) hfirst)

theorem quiet_revert_iff :
    Quiet s (revert env (fuel + 1) mods s.currentTransactionId s).2 ↔
      RevertFindsNothing env mods s := by
  have hwork : ∀ queries, growFrame.Keeps (applyInverseQueries env (fuel + 1) queries mods) :=
    grows_applyInverseQueries env mods (fuel + 1)
  have hbody := Frame.keeps_bind (keeps_findInverseQueries growFrame env mods) hwork
  have hclose : ∀ T : TraceFrame W E, T.Keeps (closeRevert env s.currentTransactionId) := fun T =>
    keeps_closeRevert T env _
  unfold RevertFindsNothing revertQueries
  rw [forall_bind_returned]
  refine (quiet_bind_left (Frame.keeps_reads _) (Frame.keeps_reads _) fun _ =>
    Frame.keeps_bind (keeps_insertLog growFrame env _ _ _ _) fun _ =>
      Frame.keeps_lastly hbody (hclose growFrame)).trans ?_
  refine forall_congr' fun orm => forall_congr' fun t => forall_congr' fun _ => ?_
  rw [forall_bind_returned]
  refine (quiet_bind_left (keeps_insertLog quietFrame env _ _ _ _)
    (keeps_insertLog growFrame env _ _ _ _) fun _ =>
      Frame.keeps_lastly hbody (hclose growFrame)).trans ?_
  refine forall_congr' fun row => forall_congr' fun u => forall_congr' fun _ => ?_
  refine (quiet_lastly hbody (hclose growFrame) (hclose quietFrame)).trans ?_
  refine (quiet_bind_left (keeps_findInverseQueries quietFrame env mods)
    (keeps_findInverseQueries growFrame env mods) hwork).trans ?_
  exact forall_congr' fun queries => forall_congr' fun v => forall_congr' fun _ =>
    quiet_applyInverseQueries_iff queries

end Revert

section Commit

variable {W E : Type} [JsRecord E] (env : Env W E) (fuel : Nat) (force : Bool)
  (ormOpt : Option Nat) (msg : Option String)

-- a preview from s throws in both of its dry applies and calls revert in u
def CallsRevert (s : Engine W E) (mods : List (Module W E)) (u : Engine W E) : Prop :=
  ∃ start st s₁ s₂ s₃ e₁ e₂,
    entry env force s = (.returned start, s₁) ∧
    startUp env true force ormOpt msg start.1 start.2
      { s₁ with orm := none, currentTransactionId := none } = (.returned st, s₂) ∧
    applyChanged env fuel st force true { s₂ with crupdes := {} } = (.thrown e₁, s₃) ∧
    e₁.truthy = true ∧
    apply env fuel st.installedModulesSorted force true [] s₃ = (.thrown e₂, u) ∧
    e₂.truthy = true ∧ st.installedModulesSorted = mods

variable {env fuel force ormOpt msg} {s : Engine W E}

theorem quiet_revertOn_iff (st : Setup W E) (applyErr : Option Thrown) :
    Quiet s (revertOn env (fuel + 1) st applyErr s).2 ↔
      (isErr applyErr = true → RevertFindsNothing env st.installedModulesSorted s) := by
  unfold revertOn
  cases isErr applyErr with
  | false => exact iff_of_true (quietFrame.refl s) (by simp)
  | true =>
    have hgrow : growFrame.Keeps (revert env (fuel + 1) st.installedModulesSorted
        s.currentTransactionId).attempt :=
      Frame.keeps_attempt (keeps_revert growFrame env _ (grows_applyInverseQueries env _ _) _)
    refine (quiet_bind_right (p := (revert env (fuel + 1) st.installedModulesSorted
      s.currentTransactionId).attempt) hgrow (fun r => ?_) (fun r => ?_)).trans ?_
    · cases r <;> exact Frame.keeps_pure _
    · cases r <;> exact Frame.keeps_pure _
    refine (quiet_attempt.trans quiet_revert_iff).trans ?_
    simp

theorem quiet_laterPhases_iff (st : Setup W E) (applyErr : Option Thrown) :
    Quiet s (laterPhases env (fuel + 1) st force true applyErr s).2 ↔
      ∀ err u, applyAll env (fuel + 1) st force true applyErr s = (.returned err, u) →
        isErr err = true → RevertFindsNothing env st.installedModulesSorted u := by
  have hsync : ∀ T : TraceFrame W E, T.Keeps (sync env (fuel + 1) st.installedModulesSorted force
      true).attempt := fun T => Frame.keeps_attempt (keeps_reconcile T env _ _ _ _ (by simp) _)
  have htail : ∀ (T : TraceFrame W E) (applyErr revertErr : Option Thrown),
      T.Keeps ((sync env (fuel + 1) st.installedModulesSorted force true).attempt >>= fun syncRes =>
        conclude syncRes revertErr applyErr) := fun T _ _ =>
    Frame.keeps_bind (hsync T) fun _ => keeps_conclude T _ _ _
  refine (quiet_bind_left
    (keeps_applyAll quietFrame env _ force true st (quiet_reconcile env _ _ _ _ _) _)
    (keeps_applyAll growFrame env _ force true st (grows_reconcile env _ _ _ _ _ _) _) fun _ =>
      Frame.keeps_bind (grows_revertOn env _ st _) (htail growFrame _)).trans ?_
  refine forall_congr' fun err => forall_congr' fun u => forall_congr' fun _ => ?_
  exact (quiet_bind_right (grows_revertOn env _ st err) (htail growFrame err)
    (htail quietFrame err)).trans (quiet_revertOn_iff st err)

theorem applyAll_thrown {st : Setup W E} {e₁ : Thrown} (he : e₁.truthy = true) {n : Nat}
    {err : Option Thrown} {u : Engine W E} :
    (applyAll env n st force true (some e₁) s = (.returned err, u) ∧ isErr err = true) ↔
      ∃ e₂, err = some e₂ ∧ e₂.truthy = true ∧
        apply env n st.installedModulesSorted force true [] s = (.thrown e₂, u) := by
  have herr : isErr (some e₁) = true := he
  rw [applyAll, if_pos herr]
  constructor
  · rintro ⟨hrun, herr⟩
    obtain ⟨o, v, ho, hret⟩ := bind_returned_inv hrun
    rcases o with e | plan
    · cases hret
      exact ⟨e, rfl, herr, attempt_error.mp ho⟩
    · cases hret
      cases herr
  · rintro ⟨e, rfl, herr, hrun⟩
    exact ⟨by rw [bind_of_returned (attempt_error.mpr hrun)]; rfl, herr⟩

theorem quiet_phases_iff (st : Setup W E) :
    Quiet s (phases env (fuel + 1) st force true s).2 ↔
      ∀ s₃ u e₁ e₂, applyChanged env (fuel + 1) st force true s = (.thrown e₁, s₃) →
        e₁.truthy = true →
        apply env (fuel + 1) st.installedModulesSorted force true [] s₃ = (.thrown e₂, u) →
        e₂.truthy = true → RevertFindsNothing env st.installedModulesSorted u := by
  have hchanged : ∀ T : TraceFrame W E, T.Keeps (applyChanged env (fuel + 1) st force true).attempt :=
    fun T => Frame.keeps_attempt (keeps_applyChanged T env _ force true st
      (keeps_reconcile T env _ _ _ _ (by simp) _))
  refine (quiet_bind_left (hchanged quietFrame) (hchanged growFrame)
    (keeps_afterFirst growFrame env _ force true st (grows_laterPhases env _ _ _ st))).trans ?_
  constructor
  · intro h s₃ u e₁ e₂ hfirst he₁ hall he₂
    have hlater := (quiet_laterPhases_iff st _).mp (h _ _ (attempt_error.mpr hfirst))
    have hthrown : ∃ e, some e₂ = some e ∧ e.truthy = true ∧
        apply env (fuel + 1) st.installedModulesSorted force true [] s₃ = (.thrown e, u) :=
      ⟨e₂, rfl, he₂, hall⟩
    obtain ⟨hrun, herr⟩ := (applyAll_thrown he₁).mpr hthrown
    exact hlater _ _ hrun herr
  · intro h first s₃ hfirst
    rcases first with e₁ | _ | plan
    · refine (quiet_laterPhases_iff st _).mpr fun err u hall herr => ?_
      by_cases he₁ : e₁.truthy = true
      · obtain ⟨e₂, rfl, he₂, hrun⟩ := (applyAll_thrown he₁).mp ⟨hall, herr⟩
        exact h s₃ u e₁ e₂ (attempt_error.mp hfirst) he₁ hrun he₂
      · have hskip : applyAll env (fuel + 1) st force true (some e₁) = pure (some e₁) := by
          unfold applyAll isErr
          simp [he₁]
        rw [hskip] at hall
        cases hall
        exact absurd herr he₁
    · refine (quiet_laterPhases_iff st _).mpr fun err u hall herr => ?_
      cases hall
      cases herr
    · exact quietFrame.refl s₃

theorem quiet_commitBody_iff (v : String) (mods : List (Module W E)) :
    Quiet s (commitBody env (fuel + 1) true force ormOpt msg v mods s).2 ↔
      ∀ st t, startUp env true force ormOpt msg v mods s = (.returned st, t) →
        Quiet { t with crupdes := {} }
          (phases env (fuel + 1) st force true { t with crupdes := {} }).2 := by
  have hphases : ∀ st, growFrame.Keeps
      ((writes fun s => { s with crupdes := {} } : Prog (Engine W E) Thrown Unit) >>= fun _ =>
        phases env (fuel + 1) st force true) :=
    fun st => Frame.keeps_bind (Frame.keeps_writes fun _ => growFrame.same rfl) fun _ =>
      grows_phases env force true _ st
  exact quiet_bind_left (keeps_startUp quietFrame env _ _ _ _ _ _)
    (keeps_startUp growFrame env _ _ _ _ _ _) hphases

omit [JsRecord E] in
theorem quiet_guarded_iff {α : Type} {body : Prog (Engine W E) Thrown α}
    (hbody : growFrame.Keeps body) (startType endType : AuditLogChangeType) :
    Quiet s (guarded env startType endType ormOpt body s).2 ↔
      Quiet { s with orm := none, currentTransactionId := none }
        (body { s with orm := none, currentTransactionId := none }).2 := by
  refine Iff.trans ?_ quiet_attempt
  refine Iff.trans ?_ (quiet_bind_right (Frame.keeps_attempt hbody)
    (keeps_rethrowLogged growFrame env) (keeps_rethrowLogged quietFrame env))
  exact quiet_lastly (q := closing env startType endType ormOpt s.ctx.orm)
    (s := { s with orm := none, currentTransactionId := none }) (keeps_caught growFrame env hbody)
    (keeps_closing growFrame env _ _ _ _) (keeps_closing quietFrame env _ _ _ _)

theorem commit_preview_quiet_iff :
    Quiet s (commit env (fuel + 1) true force ormOpt msg s).2 ↔
      ∀ mods u, CallsRevert env (fuel + 1) force ormOpt msg s mods u →
        RevertFindsNothing env mods u := by
  refine (quiet_bind_left (keeps_entry quietFrame env force) (keeps_entry growFrame env force)
    fun start => keeps_guarded growFrame env (grows_commitBody env force true _ _ _ _ _) _ _ _).trans ?_
  constructor
  · rintro h mods u ⟨start, st, s₁, s₂, s₃, e₁, e₂, hstart, hset, hfirst, he₁, hall, he₂, rfl⟩
    have hbody := (quiet_guarded_iff (grows_commitBody env force true _ _ _ _ _) _ _).mp
      (h start s₁ hstart)
    have hphases := (quiet_commitBody_iff _ _).mp hbody st s₂ hset
    exact (quiet_phases_iff st).mp hphases s₃ u e₁ e₂ hfirst he₁ hall he₂
  · intro h start s₁ hstart
    refine (quiet_guarded_iff (grows_commitBody env force true _ _ _ _ _) _ _).mpr ?_
    refine (quiet_commitBody_iff _ _).mpr fun st s₂ hset => ?_
    refine (quiet_phases_iff st).mpr fun s₃ u e₁ e₂ hfirst he₁ hall he₂ => ?_
    exact h _ u ⟨start, st, s₁, s₂, s₃, e₁, e₂, hstart, hset, hfirst, he₁, hall, he₂, rfl⟩

end Commit

section Denied

theorem quiet_iff_any {W E : Type} {s t : Engine W E} (hs : s.trace = []) :
    Quiet s t ↔ t.trace.any Event.isWrite = false := by
  rw [List.any_eq_false]
  constructor
  · rintro ⟨b, hb, hq⟩ ev hev
    rw [hb, hs, List.nil_append] at hev
    simp [hq ev hev]
  · intro h
    exact ⟨t.trace, by rw [hs, List.nil_append], fun ev hev => by simpa using h ev hev⟩

def deniedVpc : Mapper (List String × List String) String :=
  { vpcMapper with cloud := { vpcMapper.cloud with readFn := Prog.fail (.error "AccessDenied") } }

def insertedVpc : Engine (List String × List String) String :=
  vpcEngine ["main"] [] [
    { id := 1, ts := 1, user := "iasql", tableName := "iasql_audit_log",
      changeType := .openTransaction, transactionId := some "tx" },
    { id := 2, ts := 2, user := "owner", tableName := "vpc", changeType := .insert,
      change := { change := some [("name", .str "main")] } }]

-- the cloud denies its reads: the preview of a new row runs a DELETE against the module's table
theorem denied_preview_writes :
    ¬ Quiet insertedVpc (commit (vpcEnv deniedVpc) 2 true false none none insertedVpc).2 := by
  rw [quiet_iff_any rfl]
  decide +kernel

end Denied

end Iasql
