import Iasql.Rounds

namespace Iasql

open Program Prog OrderedMap

section Definitions

variable {W E : Type}

def Filter.Recorded (flt : Filter E) (changesToCommit : List IasqlAuditLog)
    (seen : List (Event W E)) : Prop :=
  match flt with
  | .only changes => changesToCommit ≠ [] ∧ .changesToCommit changes ∈ seen
  | .except changes => changesToCommit = [] ∧ .changesAfterCommit changes ∈ seen

-- every difference between the two sides is one the filter leaves out
structure Agree (flt : Filter E) (m : Mapper W E) (dbEntities cloudEntities : List E) : Prop where
  inDbOnly : ∀ i e, lastWith m.entityId dbEntities i = some e →
    lastWith m.entityId cloudEntities i = none → flt.passes m e = false
  inCloudOnly : ∀ i e, lastWith m.entityId cloudEntities i = some e →
    lastWith m.entityId dbEntities i = none → flt.passes m e = false
  changed : ∀ i e c, lastWith m.entityId dbEntities i = some e →
    lastWith m.entityId cloudEntities i = some c → m.equals e c = true ∨ flt.passes m e = false

-- the run ends with a read of each side after its flush and writes nothing from there on
def Converged (d : Direction W E) (mods : List (Module W E)) (changesToCommit : List IasqlAuditLog)
    (s : Engine W E) : Prop :=
  handled d mods = [] ∨ ∃ before truthReads targetReads flt,
    s.trace = before ++ .flush d.truth :: truthReads ++ .flush d.target :: targetReads ∧
    (∀ ev ∈ truthReads ++ targetReads, ev.isWrite = false) ∧
    (∀ m ∈ handled d mods, .read d.truth m ∈ truthReads ∧ .read d.target m ∈ targetReads) ∧
    flt.Recorded changesToCommit (truthReads ++ targetReads) ∧
    ∀ m ∈ handled d mods,
      Agree flt m (s.ctx.entities .db m.entityName) (s.ctx.entities .cloud m.entityName)

theorem agree_of_isEmpty {flt : Filter E} {m : Mapper W E} {dbEntities cloudEntities : List E}
    (h : (flt.restrict m (findDiff dbEntities cloudEntities m.entityId m.equals)).IsEmpty) :
    Agree flt m dbEntities cloudEntities := by
  obtain ⟨hdb, hcloud, hchanged⟩ := h
  simp only [Filter.restrict, List.filter_eq_nil_iff, Bool.not_eq_true] at hdb hcloud hchanged
  refine ⟨fun i e he hn => hdb e (mem_entitiesInDbOnly.mpr ⟨i, he, hn⟩),
    fun i e he hn => hcloud e (mem_entitiesInAwsOnly.mpr ⟨i, he, hn⟩), fun i e c he hc => ?_⟩
  cases heq : m.equals e c with
  | true => exact .inl rfl
  | false => exact .inr (hchanged (e, c) (mem_entitiesChanged.mpr ⟨i, he, hc, heq⟩))

end Definitions

section Reads

variable {W E : Type} [JsRecord E] {env : Env W E} {force : Bool} {d : Direction W E}
  {mappers : List (Mapper W E)} {known ch : ChangeSet E} {dest : Dest} {s t : Engine W E}

-- the mapper has been read since the trace was the given one
def ReadSince (trace : List (Event W E)) (dest : Dest) (m : Mapper W E) (s : Engine W E) : Prop :=
  ∃ b, s.trace = trace ++ b ∧ .read dest m ∈ b

omit [JsRecord E] in
theorem readSince_stable {trace : List (Event W E)} {m : Mapper W E} (h : Quiet s t)
    (hr : ReadSince trace dest m s) : ReadSince trace dest m t := by
  obtain ⟨b, hb, hm⟩ := hr
  obtain ⟨c, hc, -⟩ := h
  exact ⟨b ++ c, by rw [hc, hb, List.append_assoc], List.mem_append_left _ hm⟩

theorem readOne_reads (m : Mapper W E) :
    Returns (Quiet s) (readOne dest m) fun _ u => ReadSince s.trace dest m u := by
  rintro u _ v ⟨b, hb, -⟩ hrun
  obtain ⟨_, w, hread, hemit⟩ := bind_returned_inv hrun
  cases hemit
  have hw : w.trace = u.trace := by
    have := congrArg (fun r => r.2.trace) hread
    exact this.symm
  exact ⟨b ++ [.read dest m], by simp [hw, hb], by simp⟩

theorem readAll_reads :
    Returns (Quiet s) (lazyLoader (mappers.map (readOne dest))) fun _ u =>
      Quiet s u ∧ ∀ m ∈ mappers, ReadSince s.trace dest m u :=
  lazyLoader_done (F := quietFrame.toFrame) (D := fun m u => ReadSince s.trace dest m u)
    (fun _ _ _ => readSince_stable)
    (fun m _ => keeps_readOne quietFrame dest m) fun m _ => readOne_reads m

theorem readSide_reads (h : readSide env force mappers dest known s = (.returned ch, t)) :
    ∃ b, t.trace = s.trace ++ .flush dest :: b ∧ (∀ ev ∈ b, ev.isWrite = false) ∧
      (∀ m ∈ mappers, .read dest m ∈ b) ∧
      (match dest with | .db => .changesAfterCommit ch ∈ b | .cloud => ch = known) := by
  obtain ⟨_, u, hflush, hrest⟩ := bind_returned_inv h
  cases hflush
  obtain ⟨_, v, hread, hlast⟩ := bind_returned_inv hrest
  obtain ⟨⟨b, hb, hq⟩, hall⟩ := readAll_reads _ _ v (quietFrame.refl _) hread
  have htrace : v.trace = s.trace ++ .flush dest :: b := by rw [hb]; simp
  have hmem : ∀ m ∈ mappers, .read dest m ∈ b := by
    intro m hm
    obtain ⟨c, hc, hmc⟩ := hall m hm
    rwa [List.append_cancel_left (hb.symm.trans hc)]
  cases dest with
  | cloud =>
    cases hlast
    exact ⟨b, htrace, hq, hmem, rfl⟩
  | db =>
    obtain ⟨changes, w, hchanges, hemit⟩ := bind_returned_inv hlast
    cases hemit
    obtain ⟨c, hc, hcq⟩ := keeps_getChangesAfterCommitStartedByEntity quietFrame env force v
    rw [hchanges] at hc
    have hw : w.trace = v.trace ++ c := hc
    refine ⟨b ++ c ++ [.changesAfterCommit ch], ?_, ?_, ?_, by simp⟩
    · simp [hw, htrace]
    · intro ev hev
      simp only [List.mem_append, List.mem_singleton] at hev
      rcases hev with (hev | hev) | rfl
      · exact hq ev hev
      · exact hcq ev hev
      · rfl
    · intro m hm
      simp [hmem m hm]

end Reads

section Turns

variable {W E : Type} [JsRecord E] {env : Env W E} {force : Bool} {d : Direction W E}
  {mods : List (Module W E)} {changesToCommit : List IasqlAuditLog} {oldOrm : Option Nat}
  {known : ChangeSet E} {l : Loop} {s t : Engine W E}

-- what the last inner iteration leaves behind, known being what the outer loop read
def Compared (d : Direction W E) (mods : List (Module W E))
    (changesToCommit : List IasqlAuditLog) (known : ChangeSet E) (s t : Engine W E) : Prop :=
  ∃ b flt, t.trace = s.trace ++ .flush d.target :: b ∧ (∀ ev ∈ b, ev.isWrite = false) ∧
    (∀ m ∈ handled d mods, .read d.target m ∈ b) ∧
    (flt.Recorded changesToCommit b ∨
      d.target = .cloud ∧ changesToCommit = [] ∧ flt = .except known) ∧
    ∀ m ∈ handled d mods,
      Agree flt m (t.ctx.entities .db m.entityName) (t.ctx.entities .cloud m.entityName)

omit [JsRecord E] in
theorem chooseFilter_returned {index : String → Option (Module W E)} {ch : ChangeSet E}
    {flt : Filter E} (h : chooseFilter changesToCommit index ch s = (.returned flt, t)) :
    (changesToCommit = [] ∧ flt = .except ch ∧ t = s) ∨
      changesToCommit ≠ [] ∧ ∃ changes, flt = .only changes ∧
        t.trace = s.trace ++ [.changesToCommit changes] := by
  unfold chooseFilter at h
  split at h
  · next hnil => cases h; exact .inl ⟨List.isEmpty_iff.mp hnil, rfl, rfl⟩
  · next hne =>
    obtain ⟨changes, u, hchanges, hrest⟩ := bind_returned_inv h
    cases hrest
    have hu : u.trace = s.trace := by
      have := congrArg (fun r => r.2.trace) hchanges
      exact this.symm
    exact .inr ⟨fun hnil => hne (List.isEmpty_iff.mpr hnil), changes, rfl, by simp [hu]⟩

theorem compared_of_act {flt : Filter E} {turn : Turn Loop Plan} (hd : d.truth ≠ d.target)
    (h : act d l (recordsOf (handled d mods) flt s.ctx) s = (.returned turn, t)) :
    (∃ b : Loop, turn = .leave b ∧ b.ranFullUpdate = l.ranFullUpdate ∧ t = s ∧
      ∀ m ∈ handled d mods,
        Agree flt m (s.ctx.entities .db m.entityName) (s.ctx.entities .cloud m.entityName)) ∨
    ∃ b : Loop, b.ranFullUpdate = true ∧ (turn = .again b ∨ turn = .leave b) := by
  rcases act_returned h with ⟨hnil, rfl, rfl⟩ | ⟨-, hran⟩
  · refine .inl ⟨_, rfl, spin_ranFullUpdate _ _, rfl, fun m hm => ?_⟩
    exact agree_of_isEmpty ((generators_eq_nil hd).mp hnil _ (List.mem_map.mpr ⟨m, hm, rfl⟩))
  · exact .inr hran

theorem innerTurn_returned (hd : d.truth ≠ d.target) {turn : Turn Loop Plan}
    (h : innerTurn env force d mods false changesToCommit oldOrm known l s =
      (.returned turn, t)) :
    (∃ plan, turn = .quit plan ∧ handled d mods = []) ∨
    (∃ b : Loop, turn = .leave b ∧ b.ranFullUpdate = l.ranFullUpdate ∧
      Compared d mods changesToCommit known s t) ∨
    ∃ b : Loop, b.ranFullUpdate = true ∧ (turn = .again b ∨ turn = .leave b) := by
  obtain ⟨ch, u, hread, hrest⟩ := bind_returned_inv h
  obtain ⟨b, hb, hq, hmem, hch⟩ := readSide_reads hread
  change (if (handled d mods).isEmpty then _ else _ : Prog (Engine W E) Thrown _) u = _ at hrest
  split at hrest
  · next hnil =>
    obtain ⟨_, v, -, hquit⟩ := bind_returned_inv hrest
    cases hquit
    exact .inl ⟨_, rfl, List.isEmpty_iff.mp hnil⟩
  · obtain ⟨flt, v, hflt, hcmp⟩ := bind_returned_inv hrest
    obtain ⟨records, w, hrec, hact⟩ := bind_returned_inv hcmp
    cases hrec
    rw [if_neg Bool.false_ne_true] at hact
    let crupdes := (recordsOf (handled d mods) flt v.ctx).foldl (planRecord d) v.crupdes
    have hcmp : act d l (recordsOf (handled d mods) flt ({ v with crupdes } : Engine W E).ctx)
        { v with crupdes } = (.returned turn, t) := hact
    rcases compared_of_act hd hcmp with
      ⟨l', rfl, hran, rfl, hagree⟩ | hran
    · refine .inr (.inl ⟨l', rfl, hran, ?_⟩)
      rcases chooseFilter_returned hflt with ⟨hnil, rfl, rfl⟩ | ⟨hne, changes, rfl, htrace⟩
      · refine ⟨b, .except ch, hb, hq, hmem, ?_, hagree⟩
        cases htarget : d.target with
        | db => rw [htarget] at hch; exact .inl ⟨hnil, hch⟩
        | cloud => rw [htarget] at hch; exact .inr ⟨rfl, hnil, congrArg _ hch⟩
      · refine ⟨b ++ [.changesToCommit changes], .only changes, ?_, ?_, ?_, ?_, hagree⟩
        · simp [htrace, hb]
        · intro ev hev
          rcases List.mem_append.mp hev with hev | hev
          · exact hq ev hev
          · rw [List.mem_singleton.mp hev]; rfl
        · exact fun m hm => List.mem_append_left _ (hmem m hm)
        · exact .inl ⟨hne, by simp⟩
    · exact .inr (.inr hran)

theorem innerLoop_returned (hd : d.truth ≠ d.target) {n : Nat} {left : Loop ⊕ Plan}
    (hl : l.ranFullUpdate = false)
    (h : doWhile (innerTurn env force d mods false changesToCommit oldOrm known) n l s =
      (.returned left, t)) :
    handled d mods = [] ∨ (∃ b, left = .inl b ∧ b.ranFullUpdate = true) ∨
      Compared d mods changesToCommit known s t := by
  let I (b : Loop) (u : Engine W E) : Prop := b.ranFullUpdate = true ∨ b = l ∧ u = s
  let Q (left : Loop ⊕ Plan) (t : Engine W E) : Prop :=
    handled d mods = [] ∨ (∃ b, left = .inl b ∧ b.ranFullUpdate = true) ∨
      Compared d mods changesToCommit known s t
  refine (returns_doWhile I ?_ n l : Returns (I l) _ Q) s left t (.inr ⟨rfl, rfl⟩) h
  intro b u turn v hI hturn
  rcases innerTurn_returned hd hturn with ⟨plan, rfl, hnil⟩ | ⟨b', rfl, hran, hcmp⟩ |
    ⟨b', hran, rfl | rfl⟩
  · exact .inl hnil
  · rcases hI with hI | ⟨rfl, rfl⟩
    · exact .inr (.inl ⟨b', rfl, hran.trans hI⟩)
    · exact .inr (.inr hcmp)
  · exact .inl hran
  · exact .inr (.inl ⟨b', rfl, hran⟩)

theorem outerTurn_returned (hd : d.truth ≠ d.target) {n : Nat} {turn : Turn Loop Plan}
    (h : outerTurn env force d mods false changesToCommit oldOrm n l s = (.returned turn, t)) :
    (∃ b, turn = .again b) ∨ Converged d mods changesToCommit t := by
  obtain ⟨known, u, hread, hrest⟩ := bind_returned_inv h
  obtain ⟨left, v, hloop, hafter⟩ := bind_returned_inv hrest
  obtain ⟨a, ha, hqa, hma, hknown⟩ := readSide_reads hread
  rcases innerLoop_returned hd rfl hloop with hnil | ⟨b, rfl, hran⟩ | hcmp
  · exact .inr (.inl hnil)
  · have hagain : (afterInner (.inl b) : Prog (Engine W E) Thrown _) = pure (.again b) := by
      simp [afterInner, hran]
    rw [hagain] at hafter
    cases hafter
    exact .inl ⟨b, rfl⟩
  · obtain rfl : v = t := by
      rcases left with b | plan <;> exact congrArg Prod.snd hafter
    obtain ⟨b, flt, hb, hqb, hmb, hrec, hagree⟩ := hcmp
    refine .inr (.inr ⟨s.trace, a, b, flt, by rw [hb, ha], ?_, ?_, ?_, hagree⟩)
    · exact fun ev hev => (List.mem_append.mp hev).elim (hqa ev) (hqb ev)
    · exact fun m hm => ⟨hma m hm, hmb m hm⟩
    · rcases hrec with hrec | ⟨htarget, hnil, rfl⟩
      · cases flt with
        | only changes => exact ⟨hrec.1, List.mem_append_right _ hrec.2⟩
        | except changes => exact ⟨hrec.1, List.mem_append_right _ hrec.2⟩
      · have htruth : d.truth = .db := by
          cases hdt : d.truth with
          | db => rfl
          | cloud => exact absurd (hdt.trans htarget.symm) hd
        rw [htruth] at hknown
        exact ⟨hnil, List.mem_append_left _ hknown⟩

omit [JsRecord E] in
theorem converged_afterOuter {left : Loop ⊕ Plan} {plan : Plan}
    (hconv : Converged d mods changesToCommit s)
    (h : afterOuter env oldOrm left s = (.returned plan, t)) :
    Converged d mods changesToCommit t := by
  rcases left with b | p
  · obtain ⟨output, u, hplan, hrest⟩ := bind_returned_inv h
    cases hplan
    obtain ⟨_, v, hfin, hret⟩ := bind_returned_inv hrest
    cases hret
    obtain ⟨orm, w, horm, hdrop⟩ := bind_returned_inv hfin
    cases horm
    obtain ⟨_, x, hconn, hmod⟩ := bind_returned_inv hdrop
    cases hmod
    have hx : x = { s with ctx := { s.ctx with store := x.ctx.store } } := by
      have := congrArg Prod.snd hconn
      simp only [onStore, onCtx, Prog.within] at this
      rw [← this]
    rw [hx]
    exact hconv
  · cases h
    exact hconv

theorem reconcile_converges (hd : d.truth ≠ d.target) {n : Nat} {plan : Plan}
    (h : reconcile env force d mods false changesToCommit n s = (.returned plan, t)) :
    Converged d mods changesToCommit t := by
  obtain ⟨oldOrm, u, hold, h₁⟩ := bind_returned_inv h
  cases hold
  obtain ⟨orm, v, hconn, h₂⟩ := bind_returned_inv h₁
  obtain ⟨_, w, hmod, h₃⟩ := bind_returned_inv h₂
  obtain ⟨left, x, hloop, hafter⟩ := bind_returned_inv h₃
  refine converged_afterOuter ?_ hafter
  refine returns_doWhile (fun _ _ => True) (Q := fun _ x => Converged d mods changesToCommit x)
    ?_ n {} w left x trivial hloop
  intro b y turn z _ hturn
  rcases outerTurn_returned hd hturn with ⟨b', rfl⟩ | hconv
  · trivial
  · cases turn with
    | again b' => trivial
    | leave b' => exact hconv
    | quit p => exact hconv

end Turns

section Phases

variable {W E : Type} [JsRecord E]

theorem apply_sync_converge (env : Env W E) (fuel : Nat) (mods : List (Module W E)) (force : Bool)
    (s : Engine W E) :
    (∀ changesToCommit plan t,
      apply env fuel mods force false changesToCommit s = (.returned plan, t) →
        Converged applyDirection mods changesToCommit t) ∧
    ∀ plan t, sync env fuel mods force false s = (.returned plan, t) →
      Converged syncDirection mods [] t :=
  ⟨fun _ _ _ => reconcile_converges (by simp [applyDirection]),
    fun _ _ => reconcile_converges (by simp [syncDirection])⟩

theorem vpc_converges :
    let env := vpcEnv vpcMapper
    let mods := [vpcModule vpcMapper]
    Converged applyDirection mods []
        (apply env 3 mods false false [] (vpcEngine ["main"] [] [])).2 ∧
      Converged syncDirection mods []
        (sync env 3 mods false false (vpcEngine [] ["main"] [])).2 := by
  intro env mods
  have happly : (apply env 3 mods false false [] (vpcEngine ["main"] [] [])).1 =
      .returned { rows := [{ action := "create", tableName := "Vpc", id := "main",
                             description := "main" }] } := by decide +kernel
  have hsync : (sync env 3 mods false false (vpcEngine [] ["main"] [])).1 =
      .returned { rows := [{ action := "create", tableName := "Vpc", id := "main",
                             description := "main" }] } := by decide +kernel
  exact ⟨(apply_sync_converge env 3 mods false _).1 [] _ _ (run_eq happly),
    (apply_sync_converge env 3 mods false _).2 _ _ (run_eq hsync)⟩

end Phases

end Iasql
