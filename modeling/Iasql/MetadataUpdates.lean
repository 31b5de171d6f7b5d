import Iasql.Metadata

namespace Iasql.MetadataRepo

open Runs Interleaving

section Reflecting

variable {ι : Type} {calls : ι → Call} {phase : ι → Phase} {s t s' t' : Store} {i : ι}
  {now : Phase}

-- the database that a call has stored and not yet joined, or left and not yet removed
def held : Call → Phase → Option PgName
  | .saveDb pgName _, .joining _ => some pgName
  | .delDb _, .removing dbToDel => some dbToDel
  | _, _ => none

def committed : Phase → Prop
  | .removing _ | .finished => True
  | _ => False

def Legal (s : Store) : Call → Phase → Prop
  | .saveDb _ db, .storing user => Unclaimed db.dbAlias user
  | .saveDb pgName db, .joining user =>
    Unclaimed db.dbAlias user ∧ s.databases pgName = some db ∧ db.fits = true
  | .delDb dbAlias, .leaving dbs dbToDel =>
    (dbs.find? fun d => d.2.dbAlias == dbAlias).map Prod.fst = some dbToDel
  | _, _ => True

-- t is what the committed calls leave one after the other
structure Reflects (calls : ι → Call) (phase : ι → Phase) (s t : Store) : Prop where
  sound : s.Sound
  user : t.user = s.user
  rows : ∀ p, (∀ i, held (calls i) (phase i) ≠ some p) → t.databases p = s.databases p
  legal : ∀ i, Legal s (calls i) (phase i)
  aside : ∀ i p, held (calls i) (phase i) = some p →
    p ∉ s.joined ∧ (s.databases p).isSome ∧ t.databases p = none
  one : ∀ i j p, held (calls i) (phase i) = some p → held (calls j) (phase j) = some p → i = j

theorem Reflects.rows_joined (h : Reflects calls phase s t) {p : PgName} (hp : p ∈ s.joined) :
    t.databases p = s.databases p :=
  h.rows p fun i hi => (h.aside i p hi).1 hp

theorem Reflects.findUser (h : Reflects calls phase s t) : t.findUser = s.findUser :=
  findUser_congr h.user fun _ hp => h.rows_joined hp

theorem Reflects.joined (h : Reflects calls phase s t) : t.joined = s.joined := by
  rw [Store.joined, h.user, Store.joined]

theorem Reflects.serial_sound (h : Reflects calls phase s t) : t.Sound := by
  refine ⟨h.joined ▸ h.sound.nodup, fun p hp => ?_, ?_⟩
  · rw [h.joined] at hp
    rw [h.rows_joined hp]
    exact h.sound.rows p hp
  · unfold Store.DistinctAliases
    rw [h.findUser]
    exact h.sound.distinct

-- the others keep what they hold, and nobody else holds what the call comes to hold
structure Moved (calls : ι → Call) (phase : ι → Phase) (i : ι) (now : Phase) (s s' t' : Store) :
    Prop where
  sound : s'.Sound
  user : t'.user = s'.user
  legal : Legal s' (calls i) now
  rows : ∀ p, (∀ j ≠ i, held (calls j) (phase j) ≠ some p) → held (calls i) now ≠ some p →
    t'.databases p = s'.databases p
  others : ∀ j ≠ i, ∀ p, held (calls j) (phase j) = some p →
    p ∉ s'.joined ∧ s'.databases p = s.databases p ∧ t'.databases p = none
  own : ∀ p, held (calls i) now = some p → p ∉ s'.joined ∧ (s'.databases p).isSome ∧
    t'.databases p = none ∧ ∀ j ≠ i, held (calls j) (phase j) ≠ some p

@[simp] theorem held_finished (call : Call) : held call .finished = none := by
  cases call <;> rfl

theorem legal_finished (call : Call) : Legal s call .finished := by
  cases call <;> trivial

theorem legal_of_held {call : Call} {phase : Phase}
    (h : ∀ p, held call phase = some p → s'.databases p = s.databases p)
    (hlegal : Legal s call phase) : Legal s' call phase := by
  cases call <;> cases phase <;> try exact hlegal
  obtain ⟨hclaim, hrow, hfits⟩ := hlegal
  exact ⟨hclaim, (h _ rfl).trans hrow, hfits⟩

theorem Reflects.move [DecidableEq ι] (h : Reflects calls phase s t)
    (hm : Moved calls phase i now s s' t') :
    Reflects calls (Function.update phase i now) s' t' := by
  have hne : ∀ j ≠ i, Function.update phase i now j = phase j :=
    fun j hj => Function.update_of_ne hj _ _
  have hself : Function.update phase i now i = now := Function.update_self ..
  refine ⟨hm.sound, hm.user, fun p hp => hm.rows p (fun j hj => ?_) ?_, fun j => ?_,
    fun j p hp => ?_, fun j k p hj hk => ?_⟩
  · exact hne j hj ▸ hp j
  · exact hself ▸ hp i
  · obtain rfl | hj := eq_or_ne j i
    · exact hself.symm ▸ hm.legal
    · rw [hne j hj]
      exact legal_of_held (fun p hp => (hm.others j hj p hp).2.1) (h.legal j)
  · obtain rfl | hj := eq_or_ne j i
    · rw [hself] at hp
      obtain ⟨hout, hrow, hserial, -⟩ := hm.own p hp
      exact ⟨hout, hrow, hserial⟩
    · rw [hne j hj] at hp
      obtain ⟨hout, hrow, hserial⟩ := hm.others j hj p hp
      exact ⟨hout, hrow ▸ (h.aside j p hp).2.1, hserial⟩
  · obtain rfl | hji := eq_or_ne j i
    · obtain rfl | hkj := eq_or_ne k j
      · rfl
      · rw [hself] at hj
        rw [hne k hkj] at hk
        exact absurd hk ((hm.own p hj).2.2.2 k hkj)
    · rw [hne j hji] at hj
      obtain rfl | hki := eq_or_ne k i
      · rw [hself] at hk
        exact absurd hj ((hm.own p hk).2.2.2 j hji)
      · rw [hne k hki] at hk
        exact h.one j k p hj hk

theorem Reflects.idle (h : Reflects calls phase s t) (hbefore : held (calls i) (phase i) = none)
    (hafter : held (calls i) now = none) (hlegal : Legal s (calls i) now) :
    Moved calls phase i now s s t where
  sound := h.sound
  user := h.user
  legal := hlegal
  rows p hp _ := h.rows p fun j => by
    by_cases hj : j = i
    · rw [hj, hbefore]
      exact nofun
    · exact hp j hj
  others j _ p hp := ⟨(h.aside j p hp).1, rfl, (h.aside j p hp).2.2⟩
  own p hp := by
    rw [hafter] at hp
    cases hp

theorem Reflects.free_of_row (h : Reflects calls phase s t) {p : PgName}
    (hrow : s.databases p = none) (j : ι) : held (calls j) (phase j) ≠ some p := by
  intro hj
  have hsome := (h.aside j p hj).2.1
  rw [hrow] at hsome
  cases hsome

theorem Reflects.free_of_joined (h : Reflects calls phase s t) {p : PgName}
    (hp : p ∈ s.joined) (j : ι) : held (calls j) (phase j) ≠ some p :=
  fun hj => (h.aside j p hj).1 hp

theorem Reflects.stored {p : PgName} {db : IasqlDatabase} {user : Option (List Entity)}
    (h : Reflects calls phase s t) (hcall : calls i = .saveDb p db)
    (hbefore : held (calls i) (phase i) = none) (hrow : s.databases p = none)
    (hclaim : Unclaimed db.dbAlias user) (hfits : db.fits = true) :
    Moved calls phase i (.joining user) s
      { s with databases := Function.update s.databases p (some db) } t := by
  have hfree := h.free_of_row hrow
  have hout : p ∉ s.joined := by
    intro hp
    have hsome := h.sound.rows p hp
    rw [hrow] at hsome
    cases hsome
  have hother : ∀ q, q ≠ p → Function.update s.databases p (some db) q = s.databases q :=
    fun q hq => Function.update_of_ne hq _ _
  have hheld : held (calls i) (.joining user) = some p := by simp [hcall, held]
  have hserial : t.databases p = none := (h.rows p hfree).trans hrow
  refine ⟨?_, h.user, ?_, fun q hq hnow => ?_, fun j hj q hq => ?_, fun q hq => ?_⟩
  · refine h.sound.shrink (List.Sublist.refl _) fun q hq => ?_
    obtain ⟨a, ha⟩ := Option.isSome_iff_exists.mp (h.sound.rows q hq)
    exact ⟨a, a, ha, (hother q fun hqp => hout (hqp ▸ hq)).trans ha, rfl⟩
  · rw [hcall]
    exact ⟨hclaim, Function.update_self .., hfits⟩
  · have hqp : q ≠ p := fun hqp => hnow (hqp ▸ hheld)
    refine Eq.trans (h.rows q fun j => ?_) (hother q hqp).symm
    by_cases hj : j = i
    · rw [hj, hbefore]
      exact nofun
    · exact hq j hj
  · have hqp : q ≠ p := fun hqp => hfree j (hqp ▸ hq)
    exact ⟨(h.aside j q hq).1, hother q hqp, (h.aside j q hq).2.2⟩
  · obtain rfl : p = q := Option.some.inj (hheld.symm.trans hq)
    exact ⟨hout, by simp, hserial, fun j _ => hfree j⟩

theorem Reflects.joinedTo {p : PgName} {db : IasqlDatabase} (h : Reflects calls phase s t)
    (hcall : calls i = .saveDb p db) (hheld : held (calls i) (phase i) = some p)
    (hrow : s.databases p = some db) (hclaim : Unclaimed db.dbAlias s.findUser)
    (hfits : db.fits = true) :
    Moved calls phase i .finished s { s with user := some (s.joined ++ [p]) }
      ((calls i).alone t) := by
  have hout := (h.aside i p hheld).1
  have halone := alone_saveDb h.serial_sound (h.findUser ▸ hclaim) hfits (h.joined ▸ hout)
  rw [h.joined] at halone
  rw [hcall, halone]
  refine ⟨h.sound.join hrow hout hclaim, rfl, legal_finished _, fun q hq _ => ?_,
    fun j hj q hq => ?_, fun q hq => ?_⟩
  · show Function.update t.databases p (some db) q = s.databases q
    obtain rfl | hqp := eq_or_ne q p
    · rw [Function.update_self, hrow]
    · rw [Function.update_of_ne hqp]
      refine h.rows q fun j => ?_
      by_cases hj : j = i
      · rw [hj, hheld]
        exact fun heq => hqp (Option.some.inj heq).symm
      · exact hq j hj
  · have hqp : q ≠ p := fun hqp => hj (h.one j i p (hqp ▸ hq) hheld)
    obtain ⟨hq', -, hserial⟩ := h.aside j q hq
    refine ⟨fun hmem => ?_, rfl, (Function.update_of_ne hqp _ _).trans hserial⟩
    obtain hmem | hmem := List.mem_append.mp hmem
    · exact hq' hmem
    · exact hqp (List.mem_singleton.mp hmem)
  · rw [held_finished] at hq
    cases hq

theorem Reflects.left {dbAlias : String} {dbs : List Entity} {d : Entity}
    (h : Reflects calls phase s t) (hcall : calls i = .delDb dbAlias)
    (hbefore : held (calls i) (phase i) = none) (hread : s.findUser = some dbs)
    (hfind : (dbs.find? fun d => d.2.dbAlias == dbAlias) = some d) :
    Moved calls phase i (.removing d.1) s { s with user := some (kept dbAlias dbs) }
      ((calls i).alone t) := by
  have halone := alone_delDb h.serial_sound (h.findUser.trans hread) hfind
  have hnames : dbs.map Prod.fst = s.joined := by
    rw [← findUser_names h.sound.rows, hread, Option.getD_some]
  have hsub : List.Sublist (kept dbAlias dbs) s.joined := hnames ▸ kept_sublist
  have hin : d.1 ∈ s.joined := hnames ▸ List.mem_map_of_mem (List.mem_of_find?_eq_some hfind)
  have hout : d.1 ∉ kept dbAlias dbs := found_not_kept (hnames ▸ h.sound.nodup) hfind
  have hfree := h.free_of_joined hin
  have hheld : held (calls i) (.removing d.1) = some d.1 := by simp [hcall, held]
  rw [hcall, halone]
  refine ⟨?_, rfl, ?_, fun q hq hnow => ?_, fun j hj q hq => ?_, fun q hq => ?_⟩
  · refine h.sound.shrink hsub fun q hq => ?_
    obtain ⟨a, ha⟩ := Option.isSome_iff_exists.mp (h.sound.rows q (hsub.subset hq))
    exact ⟨a, a, ha, ha, rfl⟩
  · rw [hcall]
    trivial
  · have hqd : q ≠ d.1 := fun hqd => hnow (hqd ▸ hheld)
    refine (Function.update_of_ne hqd _ _).trans (h.rows q fun j => ?_)
    by_cases hj : j = i
    · rw [hj, hbefore]
      exact nofun
    · exact hq j hj
  · obtain ⟨hq', -, hserial⟩ := h.aside j q hq
    have hqd : q ≠ d.1 := fun hqd => hfree j (hqd ▸ hq)
    exact ⟨fun hmem => hq' (hsub.subset hmem), rfl,
      (Function.update_of_ne hqd _ _).trans hserial⟩
  · obtain rfl : d.1 = q := Option.some.inj (hheld.symm.trans hq)
    exact ⟨hout, h.sound.rows _ hin, Function.update_self .., fun j _ => hfree j⟩

theorem Reflects.removed {p : PgName} (h : Reflects calls phase s t)
    (hheld : held (calls i) (phase i) = some p) :
    Moved calls phase i .finished s
      { s with databases := Function.update s.databases p none } t := by
  obtain ⟨hout, -, hserial⟩ := h.aside i p hheld
  have hother : ∀ q, q ≠ p → Function.update s.databases p none q = s.databases q :=
    fun q hq => Function.update_of_ne hq _ _
  refine ⟨?_, h.user, legal_finished _, fun q hq _ => ?_, fun j hj q hq => ?_, fun q hq => ?_⟩
  · refine h.sound.shrink (List.Sublist.refl _) fun q hq => ?_
    obtain ⟨a, ha⟩ := Option.isSome_iff_exists.mp (h.sound.rows q hq)
    exact ⟨a, a, ha, (hother q fun hqp => hout (hqp ▸ hq)).trans ha, rfl⟩
  · show t.databases q = Function.update s.databases p none q
    obtain rfl | hqp := eq_or_ne q p
    · rw [hserial, Function.update_self]
    · rw [hother q hqp]
      refine h.rows q fun j => ?_
      by_cases hj : j = i
      · rw [hj, hheld]
        exact fun heq => hqp (Option.some.inj heq).symm
      · exact hq j hj
  · have hqp : q ≠ p := fun hqp => hj (h.one j i p (hqp ▸ hq) hheld)
    exact ⟨(h.aside j q hq).1, hother q hqp, (h.aside j q hq).2.2⟩
  · rw [held_finished] at hq
    cases hq

theorem Reflects.recorded {p : PgName} {db db' : IasqlDatabase} (h : Reflects calls phase s t)
    (hbefore : held (calls i) (phase i) = none) (hin : p ∈ s.joined)
    (hrow : s.databases p = some db) (halias : db'.dbAlias = db.dbAlias) :
    Moved calls phase i .finished s
      { s with databases := Function.update s.databases p (some db') }
      { t with databases := Function.update t.databases p (some db') } := by
  have hfree := h.free_of_joined hin
  have hother : ∀ q, q ≠ p → Function.update s.databases p (some db') q = s.databases q :=
    fun q hq => Function.update_of_ne hq _ _
  refine ⟨?_, h.user, legal_finished _, fun q hq _ => ?_, fun j hj q hq => ?_, fun q hq => ?_⟩
  · refine h.sound.shrink (List.Sublist.refl _) fun q hq => ?_
    obtain rfl | hqp := eq_or_ne q p
    · exact ⟨db, db', hrow, Function.update_self .., halias⟩
    · obtain ⟨a, ha⟩ := Option.isSome_iff_exists.mp (h.sound.rows q hq)
      exact ⟨a, a, ha, (hother q hqp).trans ha, rfl⟩
  · show Function.update t.databases p (some db') q = Function.update s.databases p (some db') q
    obtain rfl | hqp := eq_or_ne q p
    · rw [Function.update_self, Function.update_self]
    · rw [hother q hqp, Function.update_of_ne hqp]
      refine h.rows q fun j => ?_
      by_cases hj : j = i
      · rw [hj, hbefore]
        exact nofun
      · exact hq j hj
  · have hqp : q ≠ p := fun hqp => hfree j (hqp ▸ hq)
    obtain ⟨hq', -, hserial⟩ := h.aside j q hq
    exact ⟨hq', hother q hqp, (Function.update_of_ne hqp _ _).trans hserial⟩
  · rw [held_finished] at hq
    cases hq

end Reflecting

section Turns

variable {ι : Type} [DecidableEq ι] {calls : ι → Call} {sys : Repo ι} {i : ι} {s' u : Store}
  {c : Phase}

abbrev Settles (calls : ι → Call) (sys : Repo ι) (i : ι) (u : Store) : Prop :=
  Turned (fun i => (calls i).step) (fun i => (calls i).alone) (fun _ => committed)
    (Reflects calls) sys i u

theorem turn_eq (hstep : (calls i).step (sys.phase i) sys.store = (c, s')) :
    turn (fun i => (calls i).step) sys i =
      { store := s', phase := Function.update sys.phase i c } := by
  simp only [turn, hstep]

theorem settles_silent (h : Reflects calls sys.phase sys.store u)
    (hstep : (calls i).step (sys.phase i) sys.store = (c, s'))
    (hm : Moved calls sys.phase i c sys.store s' u)
    (hsame : committed c ↔ committed (sys.phase i)) : Settles calls sys i u := by
  have hturn := turn_eq hstep
  refine .silent ?_ ?_
  · rw [hturn]
    exact h.move hm
  · rw [hturn]
    simpa using hsame

theorem settles_commit (h : Reflects calls sys.phase sys.store u)
    (hstep : (calls i).step (sys.phase i) sys.store = (c, s'))
    (hm : Moved calls sys.phase i c sys.store s' ((calls i).alone u))
    (hbefore : ¬committed (sys.phase i)) (hafter : committed c) : Settles calls sys i u := by
  have hturn := turn_eq hstep
  refine .commit ?_ hbefore ?_
  · rw [hturn]
    exact h.move hm
  · rw [hturn]
    simpa using hafter

-- a call that ends without a save is one that does nothing alone
theorem settles_nothing (h : Reflects calls sys.phase sys.store u)
    (hstep : (calls i).step (sys.phase i) sys.store = (.finished, sys.store))
    (halone : (calls i).alone u = u) (hheld : held (calls i) (sys.phase i) = none)
    (hbefore : ¬committed (sys.phase i)) : Settles calls sys i u :=
  settles_commit h hstep (halone.symm ▸ h.idle hheld (held_finished _) (legal_finished _)) hbefore
    trivial

theorem settles_read (h : Reflects calls sys.phase sys.store u)
    (hstep : (calls i).step (sys.phase i) sys.store = (c, sys.store))
    (hbefore : held (calls i) (sys.phase i) = none) (hafter : held (calls i) c = none)
    (hlegal : Legal sys.store (calls i) c) (hsame : committed c ↔ committed (sys.phase i)) :
    Settles calls sys i u :=
  settles_silent h hstep (h.idle hbefore hafter hlegal) hsame

theorem settles_stay (h : Reflects calls sys.phase sys.store u)
    (hstep : (calls i).step (sys.phase i) sys.store = (sys.phase i, sys.store))
    (hheld : held (calls i) (sys.phase i) = none) : Settles calls sys i u :=
  settles_read h hstep hheld hheld (h.legal i) Iff.rfl

theorem settles_saveDb {p : PgName} {db : IasqlDatabase} (hcall : calls i = .saveDb p db)
    (h : Reflects calls sys.phase sys.store u)
    (hfresh : sys.store.Fresh (calls i) (sys.phase i)) : Settles calls sys i u := by
  have hlegal := h.legal i
  rw [hcall] at hfresh hlegal
  cases hphase : sys.phase i with
  | waiting =>
    by_cases hclaim : Unclaimed db.dbAlias sys.store.findUser
    · refine settles_read (c := .storing sys.store.findUser) h ?_ ?_ ?_ ?_ ?_
      · unfold Unclaimed at hclaim
        simp [hcall, hphase, Call.step, saveDb, hclaim]
      · simp [hcall, hphase, held]
      · simp [hcall, held]
      · rw [hcall]
        exact hclaim
      · simp [hphase, committed]
    · refine settles_nothing h ?_ ?_ ?_ ?_
      · have hany : (sys.store.findUser.any fun dbs => dbs.any fun d => d.2.dbAlias == db.dbAlias) =
            true := (Bool.not_eq_false _).mp hclaim
        simp [hcall, hphase, Call.step, saveDb, hany]
      · rw [hcall]
        exact alone_saveDb_claimed (h.findUser ▸ hclaim)
      · simp [hcall, hphase, held]
      · simp [hphase, committed]
  | storing user =>
    rw [hphase] at hfresh hlegal
    cases hfits : db.fits with
    | false =>
      refine settles_nothing h ?_ ?_ ?_ ?_
      · simp [hcall, hphase, Call.step, saveDb, saveDatabase_of_not_fits hfits]
      · rw [hcall]
        exact alone_saveDb_unfit hfits
      · simp [hcall, hphase, held]
      · simp [hphase, committed]
    | true =>
      have hrow : sys.store.databases p = none := hfresh
      refine settles_silent (c := .joining user) h ?_ (h.stored hcall ?_ hrow hlegal hfits) ?_
      · simp [hcall, hphase, Call.step, saveDb, saveDatabase_of_fits hfits]
      · simp [hcall, hphase, held]
      · simp [hphase, committed]
  | joining user =>
    rw [hphase] at hfresh hlegal
    obtain ⟨hclaim, hrow, hfits⟩ := hlegal
    have hread : sys.store.findUser.map aliases = user.map aliases := hfresh
    have hheld : held (calls i) (sys.phase i) = some p := by simp [hcall, hphase, held]
    have hnames : (user.getD []).map Prod.fst = sys.store.joined := by
      rw [← names_congr hread, findUser_names h.sound.rows]
    have hsave : sys.store.saveUser (sys.store.joined ++ [p]) =
        some { sys.store with user := some (sys.store.joined ++ [p]) } := by
      have hsound := h.sound.join hrow (h.aside i p hheld).1 ((unclaimed_congr hread).mpr hclaim)
      exact saveUser_eq hsound.nodup hsound.rows
    refine settles_commit (c := .finished) h ?_
      (h.joinedTo hcall hheld hrow ((unclaimed_congr hread).mpr hclaim) hfits) ?_ ?_
    · simp [hcall, hphase, Call.step, saveDb, hnames, hsave]
    · simp [hphase, committed]
    · simp [committed]
  | leaving dbs dbToDel =>
    refine settles_stay h ?_ ?_
    · simp [hcall, hphase, Call.step, saveDb]
    · simp [hcall, hphase, held]
  | removing dbToDel =>
    refine settles_stay h ?_ ?_
    · simp [hcall, hphase, Call.step, saveDb]
    · simp [hcall, hphase, held]
  | recording db =>
    refine settles_stay h ?_ ?_
    · simp [hcall, hphase, Call.step, saveDb]
    · simp [hcall, hphase, held]
  | finished =>
    refine settles_stay h ?_ ?_
    · simp [hcall, hphase, Call.step, saveDb]
    · simp [hcall, hphase, held]

theorem settles_delDb {dbAlias : String} (hcall : calls i = .delDb dbAlias)
    (h : Reflects calls sys.phase sys.store u)
    (hfresh : sys.store.Fresh (calls i) (sys.phase i)) : Settles calls sys i u := by
  have hlegal := h.legal i
  rw [hcall] at hfresh hlegal
  cases hphase : sys.phase i with
  | waiting =>
    have hheld : held (calls i) (sys.phase i) = none := by simp [hcall, hphase, held]
    have hbefore : ¬committed (sys.phase i) := by simp [hphase, committed]
    cases hread : sys.store.findUser with
    | none =>
      refine settles_nothing h ?_ ?_ hheld hbefore
      · simp [hcall, hphase, Call.step, delDb, hread]
      · rw [hcall]
        exact alone_delDb_absent (h.findUser.trans hread)
    | some dbs =>
      cases hfind : dbs.find? fun d => d.2.dbAlias == dbAlias with
      | none =>
        refine settles_nothing h ?_ ?_ hheld hbefore
        · simp [hcall, hphase, Call.step, delDb, hread, hfind]
        · rw [hcall]
          exact alone_delDb_unknown (h.findUser.trans hread) hfind
      | some d =>
        refine settles_read (c := .leaving dbs d.1) h ?_ hheld ?_ ?_ ?_
        · simp [hcall, hphase, Call.step, delDb, hread, hfind]
        · simp [hcall, held]
        · rw [hcall]
          exact congrArg (Option.map Prod.fst) hfind
        · simp [hphase, committed]
  | leaving dbs dbToDel =>
    rw [hphase] at hfresh hlegal
    obtain ⟨cur, hread, haliases⟩ := Option.map_eq_some_iff.mp hfresh
    have hfound : (cur.find? fun d => d.2.dbAlias == dbAlias).map Prod.fst = some dbToDel := by
      rw [find_alias, haliases, ← find_alias]
      exact hlegal
    obtain ⟨d, hfind, rfl⟩ := Option.map_eq_some_iff.mp hfound
    have hkept : (dbs.filter fun d => d.2.dbAlias != dbAlias).map Prod.fst = kept dbAlias cur := by
      rw [filter_alias, ← haliases, ← filter_alias, kept]
    refine settles_commit (c := .removing d.1) h ?_ (h.left hcall ?_ hread hfind) ?_ trivial
    · simp [hcall, hphase, Call.step, delDb, hkept, saveUser_kept h.sound hread]
    · simp [hcall, hphase, held]
    · simp [hphase, committed]
  | removing dbToDel =>
    have hheld : held (calls i) (sys.phase i) = some dbToDel := by simp [hcall, hphase, held]
    refine settles_silent (c := .finished) h ?_ (h.removed hheld) ?_
    · simp [hcall, hphase, Call.step, delDb, removeDatabase_eq (h.aside i _ hheld).1]
    · simp [hphase, committed]
  | storing user =>
    refine settles_stay h ?_ ?_
    · simp [hcall, hphase, Call.step, delDb]
    · simp [hcall, hphase, held]
  | joining user =>
    refine settles_stay h ?_ ?_
    · simp [hcall, hphase, Call.step, delDb]
    · simp [hcall, hphase, held]
  | recording db =>
    refine settles_stay h ?_ ?_
    · simp [hcall, hphase, Call.step, delDb]
    · simp [hcall, hphase, held]
  | finished =>
    refine settles_stay h ?_ ?_
    · simp [hcall, hphase, Call.step, delDb]
    · simp [hcall, hphase, held]

theorem settles_record {column : Column} {dbId : PgName} {n : Int}
    (hcall : (calls i).step = recordRpc column dbId n)
    (hheld : ∀ phase, held (calls i) phase = none) (hany : ∀ s phase, Legal s (calls i) phase)
    (h : Reflects calls sys.phase sys.store u)
    (hfresh : ∀ db, sys.phase i = .recording db → sys.store.Records column dbId db) :
    Settles calls sys i u := by
  cases hphase : sys.phase i with
  | waiting =>
    cases hread : sys.store.databases dbId with
    | none =>
      refine settles_nothing h ?_ ?_ (hheld _) ?_
      · simp [hcall, hphase, recordRpc, Store.findDb, hread]
      · refine alone_record_absent hcall ?_
        rw [h.rows dbId (h.free_of_row hread), hread]
      · simp [hphase, committed]
    | some db =>
      refine settles_read (c := .recording db) h ?_ (hheld _) (hheld _) (hany _ _) ?_
      · simp [hcall, hphase, recordRpc, Store.findDb, hread]
      · simp [hphase, committed]
  | recording read =>
    obtain ⟨hin, db, hrow, hsame⟩ := hfresh read hphase
    have hstep : (calls i).step (sys.phase i) sys.store =
        (.finished, (sys.store.saveDatabase dbId (column.write n db)).getD sys.store) := by
      simp [hcall, hphase, recordRpc, write_unchanged hsame]
    have halone := alone_record hcall ((h.rows_joined hin).trans hrow)
    have hbefore : ¬committed (sys.phase i) := by simp [hphase, committed]
    cases hfits : (column.write n db).fits with
    | false =>
      rw [saveDatabase_of_not_fits hfits] at hstep halone
      exact settles_nothing h hstep halone (hheld _) hbefore
    | true =>
      rw [saveDatabase_of_fits hfits, Option.getD_some] at hstep halone
      refine settles_commit h hstep ?_ hbefore trivial
      rw [halone]
      exact h.recorded (hheld _) hin hrow write_alias
  | storing user => exact settles_stay h (by simp [hcall, hphase, recordRpc]) (hheld _)
  | joining user => exact settles_stay h (by simp [hcall, hphase, recordRpc]) (hheld _)
  | leaving dbs p => exact settles_stay h (by simp [hcall, hphase, recordRpc]) (hheld _)
  | removing p => exact settles_stay h (by simp [hcall, hphase, recordRpc]) (hheld _)
  | finished => exact settles_stay h (by simp [hcall, hphase, recordRpc]) (hheld _)

theorem settles (h : Reflects calls sys.phase sys.store u)
    (hfresh : sys.store.Fresh (calls i) (sys.phase i)) : Settles calls sys i u := by
  cases hcall : calls i with
  | saveDb p db => exact settles_saveDb hcall h hfresh
  | delDb dbAlias => exact settles_delDb hcall h hfresh
  | updateRecordCount dbId n =>
    refine settles_record (by rw [hcall]; rfl) (fun _ => by simp [hcall, held])
      (fun _ _ => by simp [hcall, Legal]) h fun db hphase => ?_
    rwa [hcall, hphase] at hfresh
  | incrementRecordsSynced dbId n =>
    refine settles_record (by rw [hcall]; rfl) (fun _ => by simp [hcall, held])
      (fun _ _ => by simp [hcall, Legal]) h fun db hphase => ?_
    rwa [hcall, hphase] at hfresh
  | incrementRecordsApplied dbId n =>
    refine settles_record (by rw [hcall]; rfl) (fun _ => by simp [hcall, held])
      (fun _ _ => by simp [hcall, Legal]) h fun db hphase => ?_
    rwa [hcall, hphase] at hfresh

end Turns

section Updates

variable {ι : Type}

theorem reflects_start (calls : ι → Call) {s₀ : Store} (h : s₀.Sound) :
    Reflects calls (start s₀ : Repo ι).phase s₀ s₀ := by
  have hheld : ∀ call, held call .waiting = none := fun call => by cases call <;> rfl
  refine ⟨h, rfl, fun _ _ => rfl, fun i => ?_, fun i p hi => ?_, fun i j p hi _ => ?_⟩
  · show Legal s₀ (calls i) .waiting
    cases calls i <;> trivial
  · exact absurd hi (by simp [start, hheld])
  · exact absurd hi (by simp [start, hheld])

theorem updates_kept [DecidableEq ι] (calls : ι → Call) (s₀ : Store) (hs₀ : s₀.Sound)
    (sys : Repo ι) (h : Undisturbed calls s₀ sys) :
    sys.store.DistinctAliases ∧ ((∀ i, sys.phase i = .finished) →
      ∃ order : List ι, order.Nodup ∧ (∀ i, i ∈ order) ∧
        sys.store = inOrder calls s₀ order) := by
  have hlin : ∃ order : List ι, order.Nodup ∧ (∀ i, i ∈ order ↔ committed (sys.phase i)) ∧
      Reflects calls sys.phase sys.store (inOrder calls s₀ order) :=
    linearized (reflects_start calls hs₀) (fun _ => id) (fun _ _ _ hsim hok => settles hsim hok) h
  obtain ⟨order, hnodup, hmem, hreflects⟩ := hlin
  refine ⟨hreflects.sound.distinct, fun hall => ⟨order, hnodup, fun i => ?_, ?_⟩⟩
  · rw [hmem, hall]
    trivial
  · have hrows : ∀ p, (inOrder calls s₀ order).databases p = sys.store.databases p :=
      fun p => hreflects.rows p fun i => by
        rw [hall, held_finished]
        exact nofun
    exact Store.ext hreflects.user.symm (funext fun p => (hrows p).symm)

def appDb : IasqlDatabase :=
  { dbAlias := "app", pgUser := "u", recordCount := 0, recordsApplied := 0, recordsSynced := 0,
    upgrading := false }

def noUser : Store := { user := none, databases := fun _ => none }

def connecting : Bool → Call
  | false => .saveDb "db1" appDb
  | true => .incrementRecordsSynced "db1" 5

theorem connected_then_synced : ∃ order : List Bool, order.Nodup ∧ (∀ i, i ∈ order) ∧
    (interleave (fun i => (connecting i).step) (start noUser)
      [false, false, false, true, true]).store = inOrder connecting noUser order := by
  have hsound : noUser.Sound := ⟨List.nodup_nil, nofun, List.nodup_nil⟩
  have hstart : Undisturbed connecting noUser (start noUser) := .start rfl
  have hread := hstart.next (a := false) trivial rfl
  have hstored := hread.next (a := false) rfl rfl
  have hjoined := hstored.next (a := false) rfl rfl
  have hseen := hjoined.next (a := true) trivial rfl
  have hrun := hseen.next (a := true) ⟨List.mem_singleton.mpr rfl, _, rfl, rfl⟩ rfl
  exact (updates_kept connecting noUser hsound _ hrun).2 fun i => by cases i <;> rfl

def oneDb : Store :=
  { user := some ["db1"], databases := Function.update (fun _ => none) "db1" (some appDb) }

def syncing : Bool → Call
  | false => .incrementRecordsSynced "db1" 5
  | true => .incrementRecordsSynced "db1" 7

theorem lost_increment :
    oneDb.Sound ∧
    (∀ i, (interleave (fun i => (syncing i).step) (start oneDb)
      [false, true, false, true]).phase i = .finished) ∧
    ((interleave (fun i => (syncing i).step) (start oneDb)
      [false, true, false, true]).store.databases "db1").map (·.recordsSynced) = some 7 ∧
    ∀ order : List Bool, order.Nodup → (∀ i, i ∈ order) →
      ((inOrder syncing oneDb order).databases "db1").map (·.recordsSynced) = some 12 := by
  refine ⟨⟨by decide, ?_, ?_⟩, ?_, ?_, ?_⟩
  · intro p hp
    obtain rfl := List.mem_singleton.mp hp
    rfl
  · unfold Store.DistinctAliases
    decide
  · intro i
    cases i <;> rfl
  · rfl
  · intro order hnodup hall
    have hperm : order.Perm [false, true] :=
      (List.perm_ext_iff_of_nodup hnodup (by decide)).mpr fun i => by cases i <;> simp [hall]
    obtain ⟨i, j, rfl⟩ := List.length_eq_two.mp hperm.length_eq
    have hij : i ≠ j := by simpa using hnodup
    cases i with
    | false =>
      cases j with
      | false => exact absurd rfl hij
      | true => rfl
    | true =>
      cases j with
      | false => rfl
      | true => exact absurd rfl hij

end Updates

end Iasql.MetadataRepo
