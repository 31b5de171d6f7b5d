import Iasql.Calculus.Runs
import Iasql.Upgrade

namespace Iasql.Upgrade

open OrderedMap Runs

section Names

variable {d e : DbId}

theorem pgName_toList (d : DbId) : (pgName d).toList = '_' :: d.toList := by
  change ("_" ++ d).toList = '_' :: d.toList
  rw [String.toList_append]
  rfl

theorem oldName_toList (d : DbId) : (oldName d).toList = 'O' :: 'L' :: 'D' :: '_' :: d.toList := by
  simp [oldName, pgName_toList, String.toList_append]

theorem newName_toList (d : DbId) : (newName d).toList = 'N' :: 'E' :: 'W' :: '_' :: d.toList := by
  simp [newName, pgName_toList, String.toList_append]

@[simp] theorem pgName_inj : pgName d = pgName e ↔ d = e := by
  rw [← String.toList_inj, pgName_toList, pgName_toList, List.cons.injEq, String.toList_inj]
  simp

@[simp] theorem oldName_inj : oldName d = oldName e ↔ d = e := by
  rw [← String.toList_inj, oldName_toList, oldName_toList]
  simp [String.toList_inj]

@[simp] theorem newName_inj : newName d = newName e ↔ d = e := by
  rw [← String.toList_inj, newName_toList, newName_toList]
  simp [String.toList_inj]

@[simp] theorem pgName_ne_oldName : pgName d ≠ oldName e := by
  rw [Ne, ← String.toList_inj, pgName_toList, oldName_toList]
  simp

@[simp] theorem pgName_ne_newName : pgName d ≠ newName e := by
  rw [Ne, ← String.toList_inj, pgName_toList, newName_toList]
  simp

@[simp] theorem oldName_ne_newName : oldName d ≠ newName e := by
  rw [Ne, ← String.toList_inj, oldName_toList, newName_toList]
  simp

@[simp] theorem oldName_ne_pgName : oldName d ≠ pgName e := pgName_ne_oldName.symm

@[simp] theorem newName_ne_pgName : newName d ≠ pgName e := pgName_ne_newName.symm

@[simp] theorem newName_ne_oldName : newName d ≠ oldName e := oldName_ne_newName.symm

end Names

section Views

inductive Pos where
  | down
  | queued
  | moving
  | aside
  | pending (row : Row)
  | creating (row : Row) (old : Contents) (lines : List IasqlAuditLog)
  | copying (row : Row) (old : Contents) (lines : List IasqlAuditLog)
  | polled (p : Poller)

-- what a state holds for one database
structure View where
  live : Option Contents
  old : Option Contents
  new : Option Contents
  row : Option Row
  pos : Option Pos

def pendingIn (d : DbId) (dbs : List (DbId × Row)) : Option Pos := (find d dbs).map .pending

def Phase.pos (d : DbId) : Phase → Option Pos
  | .down => some .down
  | .checking names => some (if d ∈ names then .queued else .aside)
  | .moving e names => some (if d = e then .moving else if d ∈ names then .queued else .aside)
  | .serving => none
  | .upgrading dbs => pendingIn d dbs
  | .creating e row old lines dbs =>
    if d = e then some (.creating row old lines) else pendingIn d dbs
  | .copying e row old lines dbs =>
    if d = e then some (.copying row old lines) else pendingIn d dbs

def State.view {ι : Type} (s : State ι) (d : DbId) : View where
  live := s.databases.get? (pgName d)
  old := s.databases.get? (oldName d)
  new := s.databases.get? (newName d)
  row := s.rows.get? d
  pos := (s.phase.pos d).or ((s.pollers.get? d).map .polled)

-- what an action is for one database
inductive Local {ι : Type} (d : DbId) : View → Action ι → View → Prop
  | stay {v a} : Local d v a v
  | boot {v} (hpos : v.pos = some .down) :
      Local d v .boot { v with pos := some (if v.row.isSome then .queued else .aside) }
  | restore {v c} (hpos : v.pos = some .queued) (hlive : v.live = none) (hold : v.old = some c) :
      Local d v (.restore true) { v with live := some c, old := none, pos := some .moving }
  | unrestored {v renamed} (hpos : v.pos = some .queued)
      (h : renamed = true → v.live.isSome ∨ v.old = none) :
      Local d v (.restore renamed) { v with pos := some .moving }
  | setAside {v c} (hpos : v.pos = some .moving) (hlive : v.live = some c) (hold : v.old = none) :
      Local d v (.setAside true) { v with live := none, old := some c, pos := some .aside }
  | leftBe {v renamed} (hpos : v.pos = some .moving)
      (h : renamed = true → v.live = none ∨ v.old.isSome) :
      Local d v (.setAside renamed) { v with pos := some .aside }
  | start {v} (hpos : v.pos = some .aside) : Local d v .start { v with pos := v.row.map .pending }
  | straight {v} (hpos : v.pos = some .aside) (hold : v.old = none) :
      Local d v .start { v with pos := none }
  | skip {v row} (hpos : v.pos = some (.pending row)) (huser : row.user = none) :
      Local d v .skip { v with pos := none }
  | readOld {v row c lines} (hpos : v.pos = some (.pending row)) (hold : v.old = some c)
      (hlines : lines.Perm c.auditLog) :
      Local d v (.readOld lines) { v with new := none, pos := some (.creating row c lines) }
  | createNew {v row c lines} (hpos : v.pos = some (.creating row c lines)) :
      Local d v .createNew { v with new := some fresh, pos := some (.copying row c lines) }
  | insertLine {v row c l lines x} (hpos : v.pos = some (.copying row c (l :: lines)))
      (hnew : v.new = some x) :
      Local d v .insertLine
        { v with new := some (insertLine l x), pos := some (.copying row c lines) }
  | insertFails {v row c lines} (hpos : v.pos = some (.copying row c lines)) :
      Local d v .insertFails { v with pos := some (.copying row c []) }
  | loaded {v row c} (hpos : v.pos = some (.copying row c [])) :
      Local d v .loaded { v with pos := some (.polled ⟨row, c, .waiting⟩) }
  | health {v i p} (hpos : v.pos = some (.polled p)) (hstage : p.stage = .waiting) :
      Local d v (.health i d) { v with pos := some (.polled { p with stage := .filling (fills p.old) }) }
  | fill {v w p call calls x x'} (hpos : v.pos = some (.polled p))
      (hstage : p.stage = .filling (call :: calls)) (hnew : v.new = some x)
      (hexec : call.exec w x = .ok x') (hlines : x.lines <+: x'.lines) :
      Local d v (.fill d w)
        { v with new := some x', pos := some (.polled { p with stage := .filling calls }) }
  | fillFails {v p call calls} (hpos : v.pos = some (.polled p))
      (hstage : p.stage = .filling (call :: calls)) :
      Local d v (.fillFails d) { v with pos := some (.polled { p with stage := .filling calls }) }
  | rename {v p x} (hpos : v.pos = some (.polled p)) (hstage : p.stage = .filling [])
      (hnew : v.new = some x) (hlive : v.live = none) :
      Local d v (.rename d)
        { v with live := some x, new := none, pos := some (.polled { p with stage := .dropping }) }
  | dropOld {v p} (hpos : v.pos = some (.polled p)) (hstage : p.stage = .dropping) :
      Local d v (.dropOld d)
        { v with old := none, pos := some (.polled { p with stage := .saving }) }
  | saveDatabase {v p} (hpos : v.pos = some (.polled p)) (hstage : p.stage = .saving) :
      Local d v (.saveDatabase d)
        { v with
          row := some { p.row with user := v.row.bind (·.user) }
          pos := some (.polled { p with stage := .joining }) }
  | saveUser {v p} (hpos : v.pos = some (.polled p)) (hstage : p.stage = .joining) :
      Local d v (.saveUser d)
        { v with row := some p.row, pos := some (.polled { p with stage := .finished }) }
  | childRemoves {v i} (hpos : v.pos = none ∨ ∃ p, v.pos = some (.polled p)) :
      Local d v (.childRemoves i d) { v with row := none }
  | work {v x x'} (hlive : v.live = some x) (hlines : x.lines <+: x'.lines) :
      Local d v (.work d x') { v with live := some x' }
  | crash {v} : Local d v .crash { v with pos := some .down }

abbrev Seen {ι : Type} (d : DbId) (s : State ι) (a : Action ι) (t : State ι) : Prop :=
  Local d (s.view d) a (t.view d)

end Views

section Databases

variable {databases databases' : Dict String Contents} {a b n : String}

theorem get?_set {κ ν : Type} [DecidableEq κ] {m : Dict κ ν} {k l : κ} {v : ν} :
    (m.set k v).get? l = if l = k then some v else m.get? l := by
  split
  · next h => rw [h, Dict.get?_set_self]
  · next h => exact Dict.get?_set_ne h

theorem get?_erase {κ ν : Type} [DecidableEq κ] {m : Dict κ ν} {k l : κ} :
    (m.eraseAll [k]).get? l = if l = k then none else m.get? l := by
  rw [Dict.get?_eraseAll]
  simp

theorem get?_empty {κ ν : Type} [DecidableEq κ] {k : κ} : (∅ : Dict κ ν).get? k = none := rfl

theorem get?_renameDatabase (h : renameDatabase a b databases = some databases') :
    ∃ c, databases.get? a = some c ∧ databases.get? b = none ∧
      ∀ n, databases'.get? n = if n = b then some c else if n = a then none else databases.get? n := by
  unfold renameDatabase at h
  split at h
  · next c hc hb =>
    cases h
    exact ⟨c, hc, hb, fun n => by rw [get?_set, get?_erase]⟩
  · cases h

theorem renameDatabase_eq_none (h : renameDatabase a b databases = none) :
    databases.get? a = none ∨ (databases.get? b).isSome := by
  unfold renameDatabase at h
  split at h
  · cases h
  · next hno =>
    cases ha : databases.get? a with
    | none => exact .inl rfl
    | some c =>
      refine .inr ?_
      cases hb : databases.get? b with
      | none => exact absurd hb (hno c ha)
      | some c' => rfl

-- the rename that a script asks for is done, or leaves everything as it is
theorem renameIf_cases (renamed : Bool) (a b : String) (databases : Dict String Contents) :
    (∃ c, renamed = true ∧ databases.get? a = some c ∧ databases.get? b = none ∧
      ∀ n, (renameIf renamed a b databases).get? n =
        if n = b then some c else if n = a then none else databases.get? n) ∨
    (renamed = true → databases.get? a = none ∨ (databases.get? b).isSome) ∧
      renameIf renamed a b databases = databases := by
  unfold renameIf
  cases renamed with
  | false => exact .inr ⟨fun h => (by cases h), rfl⟩
  | true =>
    cases hrename : renameDatabase a b databases with
    | none => exact .inr ⟨fun _ => renameDatabase_eq_none hrename, rfl⟩
    | some databases' =>
      obtain ⟨c, ha, hb, hget⟩ := get?_renameDatabase hrename
      exact .inl ⟨c, rfl, ha, hb, hget⟩

end Databases

section Projection

variable {ι : Type} {s t : State ι} {d e : DbId}

def Phase.ids : Phase → List DbId
  | .down | .serving => []
  | .checking names => names
  | .moving d names => d :: names
  | .upgrading dbs => dbs.map Prod.fst
  | .creating d _ _ _ dbs | .copying d _ _ _ dbs => d :: dbs.map Prod.fst

-- no database is gone through twice, and none that has its timer
structure Ordered (s : State ι) : Prop where
  nodup : s.phase.ids.Nodup
  fresh : ∀ d ∈ s.phase.ids, s.pollers.get? d = none

theorem pendingIn_of_not_mem {dbs : List (DbId × Row)} (h : d ∉ dbs.map Prod.fst) :
    pendingIn d dbs = none := by
  rw [pendingIn, find_eq_none.mpr h, Option.map_none]

theorem pendingIn_cons {row : Row} {dbs : List (DbId × Row)} :
    pendingIn d ((e, row) :: dbs) = if e = d then some (.pending row) else pendingIn d dbs := by
  unfold pendingIn
  rw [find]
  split <;> rfl

theorem view_of_polled {p : Poller} (h : s.polled d = some p) :
    s.phase = .serving ∧ (s.view d).pos = some (.polled p) := by
  unfold State.polled at h
  split at h
  · next hphase => exact ⟨hphase, by simp [State.view, hphase, Phase.pos, h]⟩
  · cases h

theorem Local.of_eq {a : Action ι} {v v' w : View} (h : Local d v a v') (heq : w = v') :
    Local d v a w := heq ▸ h

theorem local_same {a : Action ι} (h : t.view d = s.view d) : Local d (s.view d) a (t.view d) :=
  Local.stay.of_eq h

section Script

variable [DecidableEq ι]

theorem local_restore {renamed : Bool} (h : step s (.restore renamed) = some t) :
    Seen d s (.restore renamed) t := by
  simp only [step] at h
  split at h
  · next e names hphase =>
    cases h
    rcases renameIf_cases renamed (oldName e) (pgName e) s.databases with
      ⟨c, rfl, hold, hlive, hget⟩ | ⟨hkept, heq⟩
    · by_cases hd : d = e
      · subst hd
        refine (Local.restore ?_ hlive hold).of_eq ?_
        · simp [State.view, hphase, Phase.pos]
        · simp [State.view, hget, Phase.pos]
      · refine local_same ?_
        simp [State.view, hget, hphase, Phase.pos, hd]
    · by_cases hd : d = e
      · subst hd
        refine (Local.unrestored ?_ fun h => (hkept h).symm).of_eq ?_
        · simp [State.view, hphase, Phase.pos]
        · simp [State.view, heq, Phase.pos]
      · refine local_same ?_
        simp [State.view, heq, hphase, Phase.pos, hd]
  · cases h

theorem local_setAside (hs : Ordered s) {renamed : Bool} (h : step s (.setAside renamed) = some t) :
    Seen d s (.setAside renamed) t := by
  simp only [step] at h
  split at h
  · next e names hphase =>
    cases h
    have hids := hs.nodup
    rw [hphase, Phase.ids] at hids
    have hnot := (List.nodup_cons.mp hids).1
    rcases renameIf_cases renamed (pgName e) (oldName e) s.databases with
      ⟨c, rfl, hlive, hold, hget⟩ | ⟨hkept, heq⟩
    · by_cases hd : d = e
      · subst hd
        refine (Local.setAside ?_ hlive hold).of_eq ?_
        · simp [State.view, hphase, Phase.pos]
        · simp [State.view, hget, Phase.pos, hnot]
      · refine local_same ?_
        simp [State.view, hget, hphase, Phase.pos, hd]
    · by_cases hd : d = e
      · subst hd
        refine (Local.leftBe ?_ hkept).of_eq ?_
        · simp [State.view, hphase, Phase.pos]
        · simp [State.view, heq, Phase.pos, hnot]
      · refine local_same ?_
        simp [State.view, heq, hphase, Phase.pos, hd]
  · cases h

theorem local_start (h : step s .start = some t) : Seen d s .start t := by
  simp only [step] at h
  split at h
  · next hphase =>
    cases h
    unfold Upgrade.start
    split
    · next hnone =>
      refine (Local.straight ?_ ?_).of_eq ?_
      · simp [State.view, hphase, Phase.pos]
      · change s.databases.get? (oldName d) = none
        refine Dict.get?_eq_none.mpr fun hmem => ?_
        have hin : oldName d ∈ s.dbsToUpgrade := by
          refine List.mem_filter.mpr ⟨hmem, ?_⟩
          rw [oldName_toList]
          rfl
        rw [hnone] at hin
        cases hin
      · simp [State.view, Phase.pos, get?_empty]
    · refine (Local.start (by simp [State.view, hphase, Phase.pos])).of_eq ?_
      simp only [State.view, Phase.pos, get?_empty, Option.map_none, Option.or_none, pendingIn]
      rfl
  · cases h

end Script

section Loading

theorem pos_of_upgrading {row : Row} {dbs : List (DbId × Row)}
    (hphase : s.phase = .upgrading ((e, row) :: dbs)) : (s.view e).pos = some (.pending row) := by
  simp [State.view, hphase, Phase.pos, pendingIn_cons]

variable [DecidableEq ι]

theorem local_skip (hs : Ordered s) (h : step s .skip = some t) :
    Seen d s .skip t := by
  simp only [step] at h
  split at h
  · next e row dbs hphase =>
    split at h
    · next huser =>
      cases h
      have hids := hs.nodup
      have hpoll := hs.fresh e
      rw [hphase, Phase.ids] at hids hpoll
      by_cases hd : d = e
      · subst hd
        refine (Local.skip (pos_of_upgrading hphase) huser).of_eq ?_
        simp [State.view, Phase.pos, pendingIn_of_not_mem (List.nodup_cons.mp hids).1,
          hpoll List.mem_cons_self]
      · refine local_same ?_
        simp [State.view, hphase, Phase.pos, pendingIn_cons, Ne.symm hd]
    · cases h
  · cases h

theorem local_readOld {lines : List IasqlAuditLog} (h : step s (.readOld lines) = some t) :
    Seen d s (.readOld lines) t := by
  simp only [step] at h
  split at h
  · next e row dbs hphase =>
    split at h
    · next old hold =>
      split at h
      · next hread =>
        cases h
        by_cases hd : d = e
        · subst hd
          refine (Local.readOld (pos_of_upgrading hphase) hold hread.2).of_eq ?_
          simp [State.view, get?_erase, Phase.pos]
        · refine local_same ?_
          simp [State.view, get?_erase, hphase, Phase.pos, pendingIn_cons, hd, Ne.symm hd]
      · cases h
    · cases h
  · cases h

theorem local_createNew (h : step s .createNew = some t) :
    Seen d s .createNew t := by
  simp only [step] at h
  split at h
  · next e row old lines dbs hphase =>
    cases h
    by_cases hd : d = e
    · subst hd
      have hpos : (s.view d).pos = some (.creating row old lines) := by
        simp [State.view, hphase, Phase.pos]
      refine (Local.createNew hpos).of_eq ?_
      simp [State.view, get?_set, Phase.pos]
    · refine local_same ?_
      simp [State.view, get?_set, hphase, Phase.pos, hd]
  · cases h

theorem local_insertLine (h : step s .insertLine = some t) :
    Seen d s .insertLine t := by
  simp only [step] at h
  split at h
  · next e row old l lines dbs hphase =>
    split at h
    · next x hnew =>
      cases h
      by_cases hd : d = e
      · subst hd
        have hpos : (s.view d).pos = some (.copying row old (l :: lines)) := by
          simp [State.view, hphase, Phase.pos]
        refine (Local.insertLine hpos hnew).of_eq ?_
        simp [State.view, get?_set, Phase.pos]
      · refine local_same ?_
        simp [State.view, get?_set, hphase, Phase.pos, hd]
    · cases h
  · cases h

theorem local_insertFails (h : step s .insertFails = some t) :
    Seen d s .insertFails t := by
  simp only [step] at h
  split at h
  · next e row old l lines dbs hphase =>
    cases h
    by_cases hd : d = e
    · subst hd
      have hpos : (s.view d).pos = some (.copying row old (l :: lines)) := by
        simp [State.view, hphase, Phase.pos]
      refine (Local.insertFails hpos).of_eq ?_
      simp [State.view, Phase.pos]
    · refine local_same ?_
      simp [State.view, hphase, Phase.pos, hd]
  · cases h

theorem local_loaded (hs : Ordered s) (h : step s .loaded = some t) :
    Seen d s .loaded t := by
  simp only [step] at h
  split at h
  · next e row old dbs hphase =>
    cases h
    have hids := hs.nodup
    rw [hphase, Phase.ids] at hids
    by_cases hd : d = e
    · subst hd
      have hpos : (s.view d).pos = some (.copying row old []) := by
        simp [State.view, hphase, Phase.pos]
      refine (Local.loaded hpos).of_eq ?_
      simp [State.view, Phase.pos, pendingIn_of_not_mem (List.nodup_cons.mp hids).1, get?_set]
    · refine local_same ?_
      simp [State.view, hphase, Phase.pos, hd, get?_set]
  · cases h

end Loading

section Polling

theorem view_setStage (hphase : s.phase = .serving) (p : Poller) (stage : Stage)
    (databases : Dict String Contents) (rows : Dict DbId Row) (d e : DbId) :
    ({ s with databases, rows, pollers := s.setStage e p stage } : State ι).view d =
      { live := databases.get? (pgName d)
        old := databases.get? (oldName d)
        new := databases.get? (newName d)
        row := rows.get? d
        pos := if d = e then some (.polled { p with stage }) else (s.view d).pos } := by
  unfold State.view State.setStage
  simp only [hphase, Phase.pos, Option.none_or, get?_set]
  split <;> simp

variable [DecidableEq ι] {p : Poller}

theorem local_health {i : ι} (h : step s (.health i e) = some t) :
    Seen d s (.health i e) t := by
  simp only [step] at h
  split at h
  · next p hp _ =>
    split at h
    · next hstage =>
      cases h
      obtain ⟨hphase, hpos⟩ := view_of_polled hp
      have hview := view_setStage hphase p (.filling (fills p.old)) s.databases s.rows d e
      by_cases hd : d = e
      · subst hd
        refine (Local.health hpos hstage).of_eq (hview.trans ?_)
        simp [State.view]
      · refine local_same (hview.trans ?_)
        simp [State.view, hd]
    · cases h
  · cases h

theorem local_fill {w : Written} (h : step s (.fill e w) = some t) : Seen d s (.fill e w) t := by
  simp only [step] at h
  split at h
  · next p x hp hnew =>
    split at h
    · next call calls hstage =>
      split at h
      · next x' hexec =>
        split at h
        · next hlines =>
          cases h
          obtain ⟨hphase, hpos⟩ := view_of_polled hp
          have hview := view_setStage hphase p (.filling calls) (s.databases.set (newName e) x')
            s.rows d e
          by_cases hd : d = e
          · subst hd
            refine (Local.fill hpos hstage hnew hexec hlines).of_eq (hview.trans ?_)
            simp [State.view, get?_set]
          · refine local_same (hview.trans ?_)
            simp [State.view, get?_set, hd]
        · cases h
      · cases h
    · cases h
  · cases h

theorem local_fillFails (h : step s (.fillFails e) = some t) : Seen d s (.fillFails e) t := by
  simp only [step] at h
  split at h
  · next p hp =>
    split at h
    · next call calls hstage =>
      cases h
      obtain ⟨hphase, hpos⟩ := view_of_polled hp
      have hview := view_setStage hphase p (.filling calls) s.databases s.rows d e
      by_cases hd : d = e
      · subst hd
        refine (Local.fillFails hpos hstage).of_eq (hview.trans ?_)
        simp [State.view]
      · refine local_same (hview.trans ?_)
        simp [State.view, hd]
    · cases h
  · cases h

theorem local_rename (h : step s (.rename e) = some t) : Seen d s (.rename e) t := by
  simp only [step] at h
  split at h
  · next p databases hp hrename =>
    split at h
    · next hstage =>
      cases h
      obtain ⟨x, hnew, hlive, hget⟩ := get?_renameDatabase hrename
      obtain ⟨hphase, hpos⟩ := view_of_polled hp
      have hview := view_setStage hphase p .dropping databases s.rows d e
      by_cases hd : d = e
      · subst hd
        refine (Local.rename hpos hstage hnew hlive).of_eq (hview.trans ?_)
        simp [State.view, hget]
      · refine local_same (hview.trans ?_)
        simp [State.view, hget, hd]
    · cases h
  · cases h

theorem local_dropOld (h : step s (.dropOld e) = some t) : Seen d s (.dropOld e) t := by
  simp only [step] at h
  split at h
  · next p hp =>
    split at h
    · next hstage =>
      cases h
      obtain ⟨hphase, hpos⟩ := view_of_polled hp
      have hview := view_setStage hphase p .saving (s.databases.eraseAll [oldName e]) s.rows d e
      by_cases hd : d = e
      · subst hd
        refine (Local.dropOld hpos hstage).of_eq (hview.trans ?_)
        simp [State.view, get?_erase]
      · refine local_same (hview.trans ?_)
        simp [State.view, get?_erase, hd]
    · cases h
  · cases h

theorem local_saveDatabase (h : step s (.saveDatabase e) = some t) :
    Seen d s (.saveDatabase e) t := by
  simp only [step] at h
  split at h
  · next p hp =>
    split at h
    · next hstage =>
      cases h
      obtain ⟨hphase, hpos⟩ := view_of_polled hp
      have hview := view_setStage hphase p .joining s.databases
        (s.rows.set e { p.row with user := (s.rows.get? e).bind (·.user) }) d e
      by_cases hd : d = e
      · subst hd
        refine (Local.saveDatabase hpos hstage.1).of_eq (hview.trans ?_)
        simp [State.view, get?_set]
      · refine local_same (hview.trans ?_)
        simp [State.view, get?_set, hd]
    · cases h
  · cases h

theorem local_saveUser (h : step s (.saveUser e) = some t) : Seen d s (.saveUser e) t := by
  simp only [step] at h
  split at h
  · next p hp =>
    split at h
    · next hstage =>
      cases h
      obtain ⟨hphase, hpos⟩ := view_of_polled hp
      have hview := view_setStage hphase p .finished s.databases (s.rows.set e p.row) d e
      by_cases hd : d = e
      · subst hd
        refine (Local.saveUser hpos hstage).of_eq (hview.trans ?_)
        simp [State.view, get?_set]
      · refine local_same (hview.trans ?_)
        simp [State.view, get?_set, hd]
    · cases h
  · cases h

end Polling

section Rest

variable [DecidableEq ι] {i : ι}

theorem local_childRemoves (h : step s (.childRemoves i e) = some t) :
    Seen d s (.childRemoves i e) t := by
  simp only [step] at h
  split at h
  · next hphase _ =>
    split at h
    · cases h
      by_cases hd : d = e
      · subst hd
        refine (Local.childRemoves ?_).of_eq ?_
        · cases hp : s.pollers.get? d <;> simp [State.view, hphase, Phase.pos, hp]
        · simp [State.view, get?_erase]
      · refine local_same ?_
        simp [State.view, get?_erase, hd]
    · cases h
  · cases h

theorem local_work {x : Contents} (h : step s (.work e x) = some t) : Seen d s (.work e x) t := by
  simp only [step] at h
  split at h
  · next y hlive =>
    split at h
    · next hlines =>
      cases h
      by_cases hd : d = e
      · subst hd
        refine (Local.work hlive hlines).of_eq ?_
        simp [State.view, get?_set]
      · refine local_same ?_
        simp [State.view, get?_set, hd]
    · cases h
  · cases h

-- every step of the machine is a step for each database
theorem seen_of_step {a : Action ι} (hs : Ordered s) (h : step s a = some t) (d : DbId) :
    Seen d s a t := by
  cases a with
  | boot =>
    simp only [step] at h
    split at h
    · next hphase =>
      cases h
      have hqueued : d ∈ s.rows.keys ↔ (s.rows.get? d).isSome = true := by
        rw [Option.isSome_iff_ne_none, Ne, Dict.get?_eq_none, not_not]
      refine (Local.boot ?_).of_eq ?_
      · simp [State.view, hphase, Phase.pos]
      · cases hrow : s.rows.get? d <;> simp [State.view, Phase.pos, hqueued, hrow]
    · cases h
  | restore renamed => exact local_restore h
  | setAside renamed => exact local_setAside hs h
  | start => exact local_start h
  | skip => exact local_skip hs h
  | readOld lines => exact local_readOld h
  | createNew => exact local_createNew h
  | insertLine => exact local_insertLine h
  | insertFails => exact local_insertFails h
  | loaded => exact local_loaded hs h
  | startPrimary =>
    simp only [step] at h
    split at h
    · next hphase =>
      cases h
      refine local_same ?_
      simp [State.view, Phase.pos, hphase, pendingIn, find]
    · cases h
  | childReads i =>
    simp only [step] at h
    split at h
    · cases h
      exact local_same rfl
    · cases h
  | childRemoves i e => exact local_childRemoves h
  | listen i =>
    simp only [step] at h
    split at h
    · cases h
      exact local_same rfl
    · cases h
  | health i e => exact local_health h
  | fill e w => exact local_fill h
  | fillFails e => exact local_fillFails h
  | rename e => exact local_rename h
  | dropOld e => exact local_dropOld h
  | saveDatabase e => exact local_saveDatabase h
  | saveUser e => exact local_saveUser h
  | work e x => exact local_work h
  | crash =>
    cases h
    refine Local.crash.of_eq ?_
    simp [State.view, Phase.pos, get?_empty]

end Rest

section Order

theorem Ordered.of_serving (h : t.phase = .serving) : Ordered t := by
  constructor <;> simp [h, Phase.ids]

theorem Ordered.of_sublist (hs : Ordered s) (hids : t.phase.ids.Sublist s.phase.ids)
    (hpollers : t.pollers = s.pollers) : Ordered t :=
  ⟨hs.nodup.sublist hids, fun d hd => hpollers ▸ hs.fresh d (hids.subset hd)⟩

variable [DecidableEq ι]

theorem ordered_step {a : Action ι} (hs : Ordered s) (h : step s a = some t) : Ordered t := by
  cases a with
  | boot =>
    simp only [step] at h
    split at h
    · cases h
      exact ⟨s.rows.nodup, fun _ _ => get?_empty⟩
    · cases h
  | start =>
    simp only [step] at h
    split at h
    · cases h
      unfold Upgrade.start
      split
      · exact .of_serving rfl
      · exact ⟨s.rows.nodup, fun _ _ => get?_empty⟩
    · cases h
  | loaded =>
    simp only [step] at h
    split at h
    · next e row old dbs hphase =>
      cases h
      have hids := hs.nodup
      have hfresh := hs.fresh
      rw [hphase, Phase.ids] at hids hfresh
      obtain ⟨hnot, hids⟩ := List.nodup_cons.mp hids
      refine ⟨hids, fun d hd => ?_⟩
      have hne : d ≠ e := fun heq => hnot (heq ▸ hd)
      exact (Dict.get?_set_ne hne).trans (hfresh d (List.mem_cons_of_mem e hd))
    · cases h
  | crash =>
    cases h
    exact ⟨List.nodup_nil, fun _ hd => absurd hd List.not_mem_nil⟩
  | restore renamed | setAside renamed | createNew | startPrimary =>
    simp only [step] at h
    split at h
    · next hphase =>
      cases h
      refine hs.of_sublist ?_ rfl
      simp [hphase, Phase.ids]
    · cases h
  | insertFails =>
    simp only [step] at h
    split at h
    · next hphase =>
      cases h
      refine hs.of_sublist ?_ rfl
      simp [hphase, Phase.ids]
    · cases h
  | skip =>
    simp only [step] at h
    split at h
    · next hphase =>
      split at h
      · cases h
        refine hs.of_sublist ?_ rfl
        simp [hphase, Phase.ids]
      · cases h
    · cases h
  | insertLine =>
    simp only [step] at h
    split at h
    · next hphase =>
      split at h
      · cases h
        refine hs.of_sublist ?_ rfl
        simp [hphase, Phase.ids]
      · cases h
    · cases h
  | readOld lines =>
    simp only [step] at h
    split at h
    · next hphase =>
      split at h
      · split at h
        · cases h
          refine hs.of_sublist ?_ rfl
          simp [hphase, Phase.ids]
        · cases h
      · cases h
    · cases h
  | childReads i =>
    simp only [step] at h
    split at h
    · next hphase _ =>
      cases h
      exact .of_serving hphase
    · cases h
  | childRemoves i d =>
    simp only [step] at h
    split at h
    · next hphase _ =>
      split at h
      · cases h
        exact .of_serving hphase
      · cases h
    · cases h
  | listen i =>
    simp only [step] at h
    split at h
    · cases h
      exact hs.of_sublist (List.Sublist.refl _) rfl
    · cases h
  | work d x =>
    simp only [step] at h
    split at h
    · split at h
      · cases h
        exact hs.of_sublist (List.Sublist.refl _) rfl
      · cases h
    · cases h
  | health i d =>
    simp only [step] at h
    split at h
    · next hp _ =>
      split at h
      · cases h
        exact .of_serving (view_of_polled hp).1
      · cases h
    · cases h
  | fill d w =>
    simp only [step] at h
    split at h
    · next hp _ =>
      split at h
      · split at h
        · split at h
          · cases h
            exact .of_serving (view_of_polled hp).1
          · cases h
        · cases h
      · cases h
    · cases h
  | fillFails d =>
    simp only [step] at h
    split at h
    · next hp =>
      split at h
      · cases h
        exact .of_serving (view_of_polled hp).1
      · cases h
    · cases h
  | rename d =>
    simp only [step] at h
    split at h
    · next hp _ =>
      split at h
      · cases h
        exact .of_serving (view_of_polled hp).1
      · cases h
    · cases h
  | dropOld d | saveDatabase d | saveUser d =>
    simp only [step] at h
    split at h
    · next hp =>
      split at h
      · cases h
        exact .of_serving (view_of_polled hp).1
      · cases h
    · cases h

end Order

end Projection

end Iasql.Upgrade
