import Iasql.Footprint

namespace Iasql

open Program Prog

namespace EntityDiff

variable {E : Type}

def IsEmpty (diff : EntityDiff E) : Prop :=
  diff.entitiesInDbOnly = [] ∧ diff.entitiesInAwsOnly = [] ∧ diff.entitiesChanged = []

theorem isEmpty_iff_only {diff : EntityDiff E} {a b : Dest} (h : a ≠ b) :
    diff.IsEmpty ↔ diff.only a = [] ∧ diff.only b = [] ∧ diff.entitiesChanged = [] := by
  cases a <;> cases b <;> simp_all [IsEmpty, only, and_left_comm]

end EntityDiff

section Generators

variable {W E : Type} [JsRecord E] {d : Direction W E} {records : List (DiffRecord W E)}

theorem generators_eq_nil (hd : d.truth ≠ d.target) :
    generators d records = [] ↔ ∀ r ∈ records, r.diff.IsEmpty := by
  simp only [generators, List.append_eq_nil_iff, List.flatMap_eq_nil_iff, creations, updates,
    deletions, List.map_eq_nil_iff, List.mem_reverse, EntityDiff.isEmpty_iff_only hd]
  constructor
  · rintro ⟨h, k⟩ r hr
    exact ⟨(h r hr).1, k r hr, (h r hr).2⟩
  · intro h
    exact ⟨fun r hr => ⟨(h r hr).1, (h r hr).2.2⟩, fun r hr => (h r hr).2.1⟩

theorem generator_not_quiet {g : Prog (Engine W E) Thrown Unit} (hg : g ∈ generators d records)
    (s : Engine W E) : ¬ Quiet s (g s).2 := by
  have hemit : ∀ {α : Type} {ev : Event W E} {k : Unit → Prog (Engine W E) Thrown α},
      ev.isWrite = true → (∀ a, growFrame.Keeps (k a)) →
      ∀ u : Engine W E, ¬ Quiet u ((emit ev >>= k) u).2 := by
    intro α ev k hw hk u hq
    exact not_quiet_emit hw u (quiet_divides.left (grows_emit ev u) (hk () _) hq)
  rcases List.mem_append.mp hg with hg | hg
  · obtain ⟨r, -, hr⟩ := List.mem_flatMap.mp hg
    rcases List.mem_append.mp hr with hr | hr
    · obtain ⟨e, -, rfl⟩ := List.mem_map.mp hr
      exact hemit rfl (fun _ => Frame.keeps_bind (keeps_onCtx growFrame _) fun _ =>
        keeps_modifyCtx growFrame _) s
    · obtain ⟨ec, -, rfl⟩ := List.mem_map.mp hr
      -- the emission follows a step that leaves the trace as it is
      exact hemit (k := fun _ => onCtx (r.mapper.update d.target (d.updated ec)) >>= fun out =>
          modifyCtx (overwrite r.mapper d.truth (d.truth.pick ec) (assignAll out))) rfl
        (fun _ => Frame.keeps_bind (keeps_onCtx growFrame _) fun _ => keeps_modifyCtx growFrame _)
        { s with ctx := overwrite r.mapper d.truth (d.truth.pick ec) (d.prepare ec) s.ctx }
  · obtain ⟨r, -, hr⟩ := List.mem_flatMap.mp hg
    obtain ⟨e, -, rfl⟩ := List.mem_map.mp hr
    exact hemit rfl (fun _ => keeps_onCtx growFrame _) s

end Generators

section NotQuiet

variable {W E : Type} {gs : List (Generator (Engine W E))}

theorem onePass_not_quiet (hne : gs ≠ []) (hG : ∀ g ∈ gs, growFrame.Keeps g.2)
    (hq : ∀ g ∈ gs, ∀ s, ¬ Quiet s (g.2 s).2) (s : Engine W E) :
    ¬ Quiet s (onePass gs s).2 := by
  cases gs with
  | nil => exact absurd rfl hne
  | cons g gs =>
    have hrest : growFrame.Keeps (onePass gs) := keeps_onePass fun x hx => hG x (by simp [hx])
    intro hquiet
    have hfirst := quiet_divides.bind_first (Frame.keeps_attempt (hG g (by simp)))
      (keeps_collect hrest) hquiet
    exact hq g (by simp) s (quiet_attempt.mp hfirst)

theorem lazyLoader_not_quiet {gs : List (Prog (Engine W E) Thrown Unit)} (hne : gs ≠ [])
    (hG : ∀ g ∈ gs, growFrame.Keeps g) (hq : ∀ g ∈ gs, ∀ s, ¬ Quiet s (g s).2)
    (s : Engine W E) : ¬ Quiet s (lazyLoader gs s).2 := by
  have hmem : ∀ g ∈ (List.range gs.length).zip gs, g.2 ∈ gs := fun g hg =>
    (List.of_mem_zip hg).2
  have hGen := fun g hg => hG _ (hmem g hg)
  have hlen : ((List.range gs.length).zip gs).length ≠ 0 := by simpa using hne
  obtain ⟨n, hn⟩ := Nat.exists_eq_succ_of_ne_zero hlen
  intro hquiet
  have hpasses := quiet_divides.bind_first (keeps_passes hGen _ []) (fun _ =>
    Frame.keeps_ite (Frame.keeps_pure _) (Frame.keeps_fail _)) hquiet
  rw [hn, passes] at hpasses
  refine onePass_not_quiet (fun h => hlen (by rw [h]; rfl)) hGen
    (fun g hg => hq _ (hmem g hg)) s
    (quiet_divides.bind_first_of (keeps_onePass hGen) ?_ hpasses)
  rintro ⟨rerun, new⟩ t hr
  exact Frame.keeps_ite (Frame.keeps_pure _) (keeps_passes (passes_rest hGen hr) n _) t

end NotQuiet

section Spin

variable {W E : Type} {records : List (DiffRecord W E)} {l : Loop}

theorem spin_ranFullUpdate (l : Loop) (records : List (DiffRecord W E)) :
    (spin l records).ranFullUpdate = l.ranFullUpdate := by
  unfold spin
  simp only
  split <;> rfl

theorem spin_fresh (hl : l.dbCount < 0) : (spin l records).spinCount = 0 := by
  have hsum : 0 ≤ (records.map fun r => (r.diff.entitiesInDbOnly.length : Int)).sum := by
    induction records with
    | nil => simp
    | cons r rs ih => simp only [List.map_cons, List.sum_cons]; omega
  unfold spin recordCount
  simp only
  rw [if_neg (fun h => by rw [h.1] at hl; omega)]

end Spin

section Act

variable {W E : Type} [JsRecord E] {d : Direction W E} {records : List (DiffRecord W E)}
  {l : Loop} {s t : Engine W E}

theorem act_returned {turn : Turn Loop Plan} (h : act d l records s = (.returned turn, t)) :
    (generators d records = [] ∧ turn = .leave (spin l records) ∧ t = s) ∨
    (generators d records ≠ [] ∧ ∃ b : Loop, b.ranFullUpdate = true ∧
      (turn = .again b ∨ turn = .leave b)) := by
  unfold act at h
  split at h
  · cases h
  · split at h
    · next hnil => cases h; exact .inl ⟨List.isEmpty_iff.mp hnil, rfl, rfl⟩
    · next hne =>
      refine .inr ⟨fun hnil => hne (List.isEmpty_iff.mpr hnil), ?_⟩
      obtain ⟨o, u, -, hrest⟩ := bind_returned_inv h
      rcases o with e | _
      · simp only at hrest
        split at hrest
        · cases hrest
        · cases hrest; exact ⟨_, rfl, .inr rfl⟩
      · cases hrest; exact ⟨_, rfl, .inl rfl⟩

theorem quiet_act_iff (hd : d.truth ≠ d.target) (hl : l.dbCount < 0) :
    Quiet s (act d l records s).2 ↔ ∀ r ∈ records, r.diff.IsEmpty := by
  rw [← generators_eq_nil hd]
  constructor
  · intro hq
    by_contra hne
    unfold act at hq
    simp only [spin_fresh hl] at hq
    rw [if_neg (by decide), if_neg (by simpa using hne)] at hq
    have hfirst := quiet_divides.bind_first
      (Frame.keeps_attempt (keeps_lazyLoader fun _ => grows_generators d)) (by
        rintro (e | _)
        · exact Frame.keeps_ite (Frame.keeps_fail _) (Frame.keeps_pure _)
        · exact Frame.keeps_pure _) hq
    exact lazyLoader_not_quiet hne (fun _ => grows_generators d)
      (fun _ => generator_not_quiet) s (quiet_attempt.mp hfirst)
  · intro hnil
    have hact : act d l records s = (.returned (.leave (spin l records)), s) := by
      unfold act
      simp [spin_fresh hl, hnil]
    rw [hact]
    exact quietFrame.refl s

theorem settled_of_quiet (hl : l.dbCount < 0) (hd : d.truth ≠ d.target)
    (hq : Quiet s (act d l records s).2) {turn : Turn Loop Plan}
    (h : act d l records s = (.returned turn, t)) :
    ∃ b : Loop, turn = .leave b ∧ b.ranFullUpdate = l.ranFullUpdate := by
  rcases act_returned h with ⟨-, rfl, -⟩ | ⟨hne, -⟩
  · exact ⟨_, rfl, spin_ranFullUpdate l records⟩
  · exact absurd ((generators_eq_nil hd).mpr ((quiet_act_iff hd hl).mp hq)) hne

end Act

end Iasql
