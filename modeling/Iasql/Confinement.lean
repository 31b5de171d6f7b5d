import Iasql.Convergence

namespace Iasql

open Program Prog

section Definitions

variable {W E : Type}

def Event.cloudWrite : Event W E → Option (Mapper W E × E)
  | .create .cloud m e | .update .cloud m e | .delete .cloud m e => some (m, e)
  | _ => none

-- a write in the cloud is for a record of a change set computed before it
def Confined (trace : List (Event W E)) : Prop :=
  ∀ before ev after m e, trace = before ++ ev :: after → ev.cloudWrite = some (m, e) →
    ∃ changes, .changesToCommit changes ∈ before ∧ Filter.touches changes m e = true

theorem cloudWrite_of_not_isWrite {ev : Event W E} (h : ev.isWrite = false) :
    ev.cloudWrite = none := by
  cases ev <;> simp_all [Event.isWrite, Event.cloudWrite]

theorem confined_nil : Confined ([] : List (Event W E)) := by
  intro before ev after m e h
  simp at h

theorem confined_append {trace : List (Event W E)} {ev : Event W E} (h : Confined trace)
    (hev : ∀ m e, ev.cloudWrite = some (m, e) →
      ∃ changes, .changesToCommit changes ∈ trace ∧ Filter.touches changes m e = true) :
    Confined (trace ++ [ev]) := by
  intro before x after m e heq hx
  rcases List.eq_nil_or_concat after with rfl | ⟨rest, last, rfl⟩
  · obtain ⟨rfl, hlast⟩ := List.append_inj' heq rfl
    cases hlast
    exact hev m e hx
  · rw [List.concat_eq_append, ← List.cons_append, ← List.append_assoc] at heq
    obtain ⟨rfl, -⟩ := List.append_inj' heq rfl
    exact h before x rest m e rfl hx

def confinedFrame : TraceFrame W E where
  rel s t := Confined s.trace → Confined t.trace
  refl _ := id
  trans h k := k ∘ h
  same h := h ▸ id
  observes s ev hev h := confined_append h fun m e he => by
    rw [cloudWrite_of_not_isWrite hev] at he
    cases he

-- the change set of the round is on the trace, which is confined
def roundFrame (changes : ChangeSet E) : TraceFrame W E where
  rel s t := .changesToCommit changes ∈ s.trace ∧ Confined s.trace →
    .changesToCommit changes ∈ t.trace ∧ Confined t.trace
  refl _ := id
  trans h k := k ∘ h
  same h := h ▸ id
  observes s ev hev h := ⟨List.mem_append_left _ h.1, confined_append h.2 fun m e he => by
    rw [cloudWrite_of_not_isWrite hev] at he
    cases he⟩

theorem round_emit {changes : ChangeSet E} {ev : Event W E}
    (h : ∀ m e, ev.cloudWrite = some (m, e) → Filter.touches changes m e = true) :
    (roundFrame changes).Keeps (emit ev) := fun _ hs =>
  ⟨List.mem_append_left _ hs.1, confined_append hs.2 fun m e he => ⟨changes, hs.1, h m e he⟩⟩

theorem confined_emit {ev : Event W E} (h : ev.cloudWrite = none) :
    confinedFrame.Keeps (emit ev) := fun _ hs =>
  confined_append hs fun m e he => by rw [h] at he; cases he

end Definitions

section Rounds

variable {W E : Type} [JsRecord E] (env : Env W E) (force : Bool) (mods : List (Module W E))

omit [JsRecord E] in
theorem mem_records {mappers : List (Mapper W E)} {flt : Filter E} {ctx : Context W E}
    {r : DiffRecord W E} (h : r ∈ recordsOf mappers flt ctx) :
    (∀ e ∈ r.diff.entitiesInDbOnly, flt.passes r.mapper e = true) ∧
    (∀ e ∈ r.diff.entitiesInAwsOnly, flt.passes r.mapper e = true) ∧
    ∀ p ∈ r.diff.entitiesChanged, flt.passes r.mapper p.1 = true := by
  obtain ⟨m, -, rfl⟩ := List.mem_map.mp h
  exact ⟨fun e he => (List.mem_filter.mp he).2, fun e he => (List.mem_filter.mp he).2,
    fun p hp => (List.mem_filter.mp hp).2⟩

theorem round_generators {mappers : List (Mapper W E)} {changes : ChangeSet E}
    {ctx : Context W E} {g : Prog (Engine W E) Thrown Unit}
    (hg : g ∈ generators applyDirection (recordsOf mappers (.only changes) ctx)) :
    (roundFrame changes).Keeps g := by
  have hemit : ∀ {ev : Event W E} {m : Mapper W E} {e : E}, ev.cloudWrite = some (m, e) →
      Filter.touches changes m e = true → (roundFrame changes).Keeps (emit ev) := by
    intro ev m e hev ht
    refine round_emit fun m' e' he' => ?_
    rw [hev] at he'
    cases he'
    exact ht
  rcases List.mem_append.mp hg with hg | hg
  · obtain ⟨r, hr, hg⟩ := List.mem_flatMap.mp hg
    obtain ⟨hdb, -, hchanged⟩ := mem_records hr
    rcases List.mem_append.mp hg with hg | hg
    · obtain ⟨e, he, rfl⟩ := List.mem_map.mp hg
      exact Frame.keeps_bind (hemit rfl (hdb e he)) fun _ =>
        Frame.keeps_bind (keeps_onCtx _ _) fun _ => keeps_modifyCtx _ _
    · obtain ⟨ec, hec, rfl⟩ := List.mem_map.mp hg
      exact Frame.keeps_bind (keeps_modifyCtx _ _) fun _ =>
        Frame.keeps_bind (hemit rfl (hchanged ec hec)) fun _ =>
          Frame.keeps_bind (keeps_onCtx _ _) fun _ => keeps_modifyCtx _ _
  · obtain ⟨r, hr, hg⟩ := List.mem_flatMap.mp hg
    obtain ⟨-, hcloud, -⟩ := mem_records (List.mem_reverse.mp hr)
    obtain ⟨e, he, rfl⟩ := List.mem_map.mp hg
    exact Frame.keeps_bind (hemit rfl (hcloud e he)) fun _ => keeps_onCtx _ _

theorem confined_syncGenerators {records : List (DiffRecord W E)}
    {g : Prog (Engine W E) Thrown Unit} (hg : g ∈ generators syncDirection records) :
    confinedFrame.Keeps g := by
  rcases List.mem_append.mp hg with hg | hg
  · obtain ⟨r, -, hg⟩ := List.mem_flatMap.mp hg
    rcases List.mem_append.mp hg with hg | hg
    · obtain ⟨e, -, rfl⟩ := List.mem_map.mp hg
      exact Frame.keeps_bind (confined_emit rfl) fun _ =>
        Frame.keeps_bind (keeps_onCtx _ _) fun _ => keeps_modifyCtx _ _
    · obtain ⟨ec, -, rfl⟩ := List.mem_map.mp hg
      exact Frame.keeps_bind (keeps_modifyCtx _ _) fun _ =>
        Frame.keeps_bind (confined_emit rfl) fun _ =>
          Frame.keeps_bind (keeps_onCtx _ _) fun _ => keeps_modifyCtx _ _
  · obtain ⟨r, -, hg⟩ := List.mem_flatMap.mp hg
    obtain ⟨e, -, rfl⟩ := List.mem_map.mp hg
    exact Frame.keeps_bind (confined_emit rfl) fun _ => keeps_onCtx _ _

theorem confined_sync (fuel : Nat) (dryRun : Bool) :
    confinedFrame.Keeps (sync env fuel mods force dryRun) :=
  keeps_reconcile confinedFrame env force _ mods [] (fun _ _ _ =>
    keeps_act confinedFrame _ fun _ => confined_syncGenerators) fuel

variable {env force mods} {changesToCommit : List IasqlAuditLog} {dryRun : Bool}

theorem confined_innerTurn (hne : changesToCommit ≠ []) (oldOrm : Option Nat)
    (known : ChangeSet E) (l : Loop) :
    confinedFrame.Keeps
      (innerTurn env force applyDirection mods dryRun changesToCommit oldOrm known l) := by
  refine Frame.keeps_bind (keeps_readSide _ env force _ _ _) fun ch => ?_
  refine Frame.keeps_ite ?_ ?_
  · exact Frame.keeps_bind (keeps_finish _ env _) fun _ => Frame.keeps_pure _
  · refine Frame.keeps_bind_of (keeps_chooseFilter _ _ _ _) fun s flt t hflt => ?_
    rcases chooseFilter_returned hflt with ⟨hnil, -, -⟩ | ⟨-, changes, rfl, htrace⟩
    · exact absurd hnil hne
    · have hmem : .changesToCommit changes ∈ t.trace := by simp [htrace]
      have hround : (roundFrame changes).Keeps (do
          let records ← compareSides applyDirection (handled applyDirection mods) (.only changes)
          if dryRun then do
            finish env oldOrm
            return .quit (← currentPlan env)
          else act applyDirection l records) := by
        refine Frame.keeps_bind_of (keeps_compareSides _ _ _ _) fun u records v hrec => ?_
        cases hrec
        cases dryRun with
        | true =>
          exact Frame.keeps_bind (keeps_finish (roundFrame changes) env _) (fun _ =>
            Frame.keeps_bind (Frame.keeps_reads _) fun _ => Frame.keeps_pure _) _
        | false => exact keeps_act (roundFrame changes) _ (fun _ => round_generators) _
      exact fun hconf => (hround t ⟨hmem, hconf⟩).2

theorem confined_apply (hne : changesToCommit ≠ []) (fuel : Nat) :
    confinedFrame.Keeps (apply env fuel mods force dryRun changesToCommit) := by
  refine Frame.keeps_bind (Frame.keeps_reads _) fun oldOrm => ?_
  refine Frame.keeps_bind (keeps_onStore _ _) fun _ => ?_
  refine Frame.keeps_bind (keeps_modifyCtx _ _) fun _ => ?_
  refine Frame.keeps_bind (Frame.keeps_doWhile (fun l => ?_) _ _) (keeps_afterOuter _ env _)
  refine Frame.keeps_bind (keeps_readSide _ env force _ _ _) fun known => ?_
  exact Frame.keeps_bind (Frame.keeps_doWhile (confined_innerTurn hne oldOrm known) _ _)
    (keeps_afterInner _)

end Rounds

section Commit

variable {W E : Type} [JsRecord E] (env : Env W E) (fuel : Nat) (dryRun force : Bool)
  (ormOpt : Option Nat) (msg : Option String)

-- how the apply over the modules with changes ends in a commit
def firstApply : Prog (Engine W E) Thrown (Except Thrown (Option Plan)) := do
  let start ← entry env force
  Prog.writes fun s => { s with orm := none, currentTransactionId := none }
  let st ← startUp env dryRun force ormOpt msg start.1 start.2
  Prog.writes fun s => { s with crupdes := {} }
  (applyChanged env fuel st force dryRun).attempt

def FirstApplyHolds (s : Engine W E) : Prop :=
  ∀ e t, firstApply env fuel dryRun force ormOpt msg s = (.returned (.error e), t) →
    e.truthy = false

variable {env fuel dryRun force ormOpt msg} {s t : Engine W E} {st : Setup W E}

omit [JsRecord E] in
theorem getModulesWithChanges_nil (imported installed : List (Module W E)) (names : List String)
    (v : String) : getModulesWithChanges imported installed names [] v = [] := by
  have hnone : (installed.filter fun mod =>
      mod.tables.any fun t => ([] : List String).contains t) = [] := by
    rw [List.filter_eq_nil_iff]
    simp
  simp only [getModulesWithChanges, hnone, List.flatMap_nil, List.filter_nil, dedup, List.foldl_nil,
    List.map_nil, List.append_nil]

omit [JsRecord E] in
theorem startUp_changes {v : String} {imported : List (Module W E)}
    (h : startUp env dryRun force ormOpt msg v imported s = (.returned st, t))
    (hst : st.hasChanges = true) : st.changesToCommit ≠ [] := by
  obtain ⟨_, u, -, hset⟩ := bind_returned_inv h
  obtain ⟨start, u₁, -, h₁⟩ := bind_returned_inv hset
  obtain ⟨changes, u₂, -, h₂⟩ := bind_returned_inv h₁
  obtain ⟨names, u₃, -, h₃⟩ := bind_returned_inv h₂
  obtain ⟨ms, u₄, -, h₄⟩ := bind_returned_inv h₃
  obtain ⟨all, u₅, -, h₅⟩ := bind_returned_inv h₄
  cases h₅
  rintro rfl
  simp [tablesOf, dedup, getModulesWithChanges_nil] at hst

theorem confined_applyChanged (hst : st.hasChanges = true → st.changesToCommit ≠ []) :
    confinedFrame.Keeps (applyChanged env fuel st force dryRun) := by
  unfold applyChanged
  split
  · next h => exact Frame.keeps_bind (confined_apply (hst h) fuel) fun _ => Frame.keeps_pure _
  · exact Frame.keeps_pure _

theorem confined_laterPhases {applyErr : Option Thrown} (h : isErr applyErr = false) :
    confinedFrame.Keeps (laterPhases env fuel st force dryRun applyErr) := by
  have hall : applyAll env fuel st force dryRun applyErr = pure applyErr := by
    unfold applyAll
    rw [h]
    rfl
  have hrevert : revertOn env fuel st applyErr = pure none := by
    unfold revertOn
    rw [h]
    rfl
  unfold laterPhases
  rw [hall]
  refine Frame.keeps_bind_of (Frame.keeps_pure _) fun s err t hpure => ?_
  cases hpure
  rw [hrevert]
  exact Frame.keeps_bind (Frame.keeps_pure _) (fun _ =>
    Frame.keeps_bind (Frame.keeps_attempt (confined_sync env force _ fuel dryRun)) fun _ =>
      keeps_conclude _ _ _ _) s

theorem confined_all {W E : Type} {trace : List (Event W E)} (h : Confined trace) :
    (trace.all fun ev => match ev.cloudWrite with
      | none => true
      | some (m, e) => trace.any fun c => match c with
        | .changesToCommit changes => Filter.touches changes m e
        | _ => false) = true := by
  rw [List.all_eq_true]
  intro ev hev
  obtain ⟨before, after, rfl⟩ := List.append_of_mem hev
  cases hw : ev.cloudWrite with
  | none => rfl
  | some p =>
    obtain ⟨changes, hc, ht⟩ := h before ev after p.1 p.2 rfl hw
    exact List.any_eq_true.mpr ⟨_, List.mem_append_left _ hc, ht⟩

def refusedVpc : Mapper (List String × List String) String :=
  { vpcMapper with
    cloud := { vpcMapper.cloud with createFn := fun _ => Prog.fail (.error "LimitExceeded") } }

def userInsert : IasqlAuditLog :=
  { id := 1, ts := 2, user := "owner", tableName := "vpc", changeType := .insert,
    change := { change := some [("name", .str "main")] } }

end Commit

end Iasql
