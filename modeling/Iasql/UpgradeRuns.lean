import Iasql.UpgradeViews

namespace Iasql.Upgrade

open Runs

section Kept

-- what a user finds under the name of the database, or finds there once upgrade.sh has run again
def View.current (v : View) : Option Contents := v.live.or v.old

def State.current {ι : Type} (s : State ι) (d : DbId) : Option Contents := (s.view d).current

def Keeps (lossy : Bool) (c x : Contents) : Prop := lossy = false → c.lines.Subperm x.lines

-- what is known of the copy while it is made
def Underway (lossy : Bool) (v : View) : Prop :=
  match v.pos with
  | some (.creating _ old lines) => v.old = some old ∧ lines.Perm old.auditLog
  | some (.copying _ old lines) => v.old = some old ∧ ∃ x, v.new = some x ∧
      (lossy = false → old.lines.Subperm (x.lines ++ lines.map copied))
  | some (.polled p) =>
    match p.stage with
    | .waiting | .filling _ => v.old = some p.old ∧ ∃ x, v.new = some x ∧ Keeps lossy p.old x
    | .dropping => v.live.isSome
    | _ => True
  | _ => True

structure Held (lossy : Bool) (c₀ : Contents) (v : View) : Prop where
  current : ∃ c, v.current = some c ∧ Keeps lossy c₀ c
  underway : Underway lossy v

variable {lossy : Bool} {c c₀ x y : Contents} {v w : View} {l : IasqlAuditLog}

theorem Keeps.refl (lossy : Bool) (c : Contents) : Keeps lossy c c := fun _ => .refl _

theorem Keeps.trans (h : Keeps lossy c x) (h' : Keeps lossy x y) : Keeps lossy c y :=
  fun hlossy => (h hlossy).trans (h' hlossy)

theorem Keeps.of_extends (h : x.lines <+: y.lines) : Keeps lossy x y := fun _ => h.sublist.subperm

@[simp] theorem lines_insertLine : (insertLine l x).lines = x.lines ++ [copied l] := by
  simp [insertLine, Contents.lines, saveLog, copied]

@[simp] theorem lines_fresh : fresh.lines = [] := rfl

theorem View.current_of_live {c : Contents} (h : v.live = some c) : v.current = some c := by
  rw [View.current, h, Option.some_or]

theorem View.current_of_old (h : v.live = none) : v.current = v.old := by
  rw [View.current, h, Option.none_or]

theorem Held.same (h : Held lossy c₀ v) (hcurrent : w.current = v.current)
    (hunder : Underway lossy w) : Held lossy c₀ w :=
  ⟨hcurrent ▸ h.current, hunder⟩

theorem held_step {ι : Type} {d : DbId} {a : Action ι} (h : Held lossy c₀ v)
    (hok : a = .insertFails → lossy = true) (hstep : Local d v a w) : Held lossy c₀ w := by
  have hunder := h.underway
  unfold Underway at hunder
  cases hstep with
  | stay => exact h
  | boot hpos =>
    refine h.same rfl ?_
    rcases v with ⟨live, old, new, _ | row, pos⟩
    · trivial
    · trivial
  | restore hpos hlive hold =>
    refine h.same ?_ trivial
    rw [View.current_of_old hlive, hold]
    rfl
  | unrestored hpos hwhy => exact h.same rfl trivial
  | setAside hpos hlive hold =>
    refine h.same ?_ trivial
    rw [View.current_of_live hlive]
    rfl
  | leftBe hpos hwhy => exact h.same rfl trivial
  | start hpos =>
    refine h.same rfl ?_
    rcases v with ⟨live, old, new, _ | row, pos⟩
    · trivial
    · trivial
  | straight hpos hold => exact h.same rfl trivial
  | skip hpos huser => exact h.same rfl trivial
  | readOld hpos hold hlines => exact h.same rfl ⟨hold, hlines⟩
  | createNew hpos =>
    rw [hpos] at hunder
    obtain ⟨hold, hlines⟩ := hunder
    exact h.same rfl ⟨hold, _, rfl, fun _ => (hlines.symm.map copied).subperm⟩
  | insertLine hpos hnew =>
    rw [hpos] at hunder
    obtain ⟨hold, y, hy, hlines⟩ := hunder
    obtain rfl := Option.some.inj (hnew.symm.trans hy)
    refine h.same rfl ⟨hold, _, rfl, fun hlossy => ?_⟩
    rw [lines_insertLine, List.append_assoc]
    exact hlines hlossy
  | insertFails hpos =>
    rw [hpos] at hunder
    obtain ⟨hold, y, hy, -⟩ := hunder
    exact h.same rfl ⟨hold, y, hy, fun hlossy => Bool.noConfusion (hlossy.symm.trans (hok rfl))⟩
  | loaded hpos =>
    rw [hpos] at hunder
    obtain ⟨hold, y, hy, hlines⟩ := hunder
    refine h.same rfl ⟨hold, y, hy, fun hlossy => ?_⟩
    have hkept := hlines hlossy
    rwa [List.map_nil, List.append_nil] at hkept
  | health hpos hstage =>
    rw [hpos] at hunder
    simp only [hstage] at hunder
    exact h.same rfl hunder
  | fill hpos hstage hnew hexec hlines =>
    rw [hpos] at hunder
    simp only [hstage] at hunder
    obtain ⟨hold, y, hy, hkept⟩ := hunder
    obtain rfl := Option.some.inj (hnew.symm.trans hy)
    exact h.same rfl ⟨hold, _, rfl, hkept.trans (.of_extends hlines)⟩
  | fillFails hpos hstage =>
    rw [hpos] at hunder
    simp only [hstage] at hunder
    exact h.same rfl hunder
  | rename hpos hstage hnew hlive =>
    rw [hpos] at hunder
    simp only [hstage] at hunder
    obtain ⟨hold, y, hy, hkept⟩ := hunder
    obtain rfl := Option.some.inj (hnew.symm.trans hy)
    obtain ⟨c, hc, hkeeps⟩ := h.current
    rw [View.current_of_old hlive, hold] at hc
    cases hc
    exact ⟨⟨_, rfl, hkeeps.trans hkept⟩, rfl⟩
  | dropOld hpos hstage =>
    rw [hpos] at hunder
    simp only [hstage] at hunder
    obtain ⟨c, hc⟩ := Option.isSome_iff_exists.mp hunder
    refine h.same ?_ trivial
    rw [View.current_of_live hc]
    exact View.current_of_live hc
  | saveDatabase hpos hstage => exact h.same rfl trivial
  | saveUser hpos hstage => exact h.same rfl trivial
  | childRemoves hpos => exact h.same rfl h.underway
  | work hlive hlines =>
    obtain ⟨c, hc, hkeeps⟩ := h.current
    rw [View.current_of_live hlive] at hc
    cases hc
    refine ⟨⟨_, rfl, hkeeps.trans (.of_extends hlines)⟩, ?_⟩
    unfold Underway
    split <;> simp_all
  | crash => exact h.same rfl trivial

end Kept

section Devbox

def devLog : IasqlAuditLog :=
  { id := 7, ts := 3, user := "u", tableName := "vpc", changeType := .insert,
    transactionId := some "t" }

def devContents : Contents where
  auditLog := [devLog]
  modules := ["iasql_platform", "iasql_functions", "aws_account"]
  credentials := [⟨"key", "secret", some "token"⟩]
  regions := [⟨"us-east-1", true, true⟩, ⟨"eu-west-1", false, false⟩]

def devRow : Row := ⟨⟨"dev", "u", 0, 0, 0, false⟩, some "uid"⟩

-- a boot was cut short after upgrade.sh had set the database aside
def devStopped : State Unit where
  databases := .ofList [(oldName "a", devContents)]
  rows := .ofList [("a", devRow)]
  phase := .down
  pollers := ∅
  child := fun _ => .forked

def devLoads : List (Action Unit) :=
  [.boot, .restore true, .setAside true, .start, .readOld [devLog], .createNew, .insertLine,
    .loaded, .startPrimary, .childReads (), .childRemoves () "a"]

def devFills : List (Action Unit) :=
  [.listen (), .health () "a"] ++
    List.replicate 9 (.fill "a" { auditLog := [devLog], regions := ["us-east-1", "eu-west-1"] }) ++
    [.rename "a", .dropOld "a", .saveDatabase "a", .saveUser "a"]

-- stopped again when a worker has removed the record
def devForgotten : State Unit :=
  (replay step (fun _ _ => true) devStopped (devLoads ++ [.crash])).getD devStopped

end Devbox

section Safety

variable {ι : Type} {s₀ s : State ι} {d : DbId}

theorem ordered_of_down (h : s.phase = .down) : Ordered s := by
  constructor <;> simp [h, Phase.ids]

theorem view_of_down (h : s.phase = .down) : (s.view d).pos = some .down := by
  simp [State.view, h, Phase.pos]

variable [DecidableEq ι]

-- a run of the machine, as it is seen for one database
theorem seen_run {ok : State ι → Action ι → Bool} {ok' : View → Action ι → Prop}
    (h : Run s₀ step ok s) (hdown : s₀.phase = .down) (d : DbId)
    (hok : ∀ s a, ok s a = true → ok' (s.view d) a) :
    RunFrom (· = s₀.view d) (Local d) ok' (s.view d) := by
  refine RunFrom.project (fun s => s.view d) (I := Ordered) h ?_ fun s a t hs hsok hst => ?_
  · rintro _ rfl
    exact ⟨ordered_of_down hdown, rfl⟩
  · exact ⟨ordered_step hs hst, hok s a hsok, seen_of_step hs hst d⟩

def Action.insertsAll : Action ι → Bool
  | .insertFails => false
  | _ => true

-- wherever the engine is stopped, and however often: the database is there, and no line of its
-- audit log is missing unless an insertion of the copy failed
theorem contents_kept {lossy : Bool} (hdown : s₀.phase = .down)
    (h : Run s₀ step (fun _ a => lossy || a.insertsAll) s) {c₀ : Contents}
    (hc : s₀.current d = some c₀) :
    ∃ c, s.current d = some c ∧ (lossy = false → c₀.lines.Subperm c.lines) := by
  have hrun : RunFrom (· = s₀.view d) (Local d) (fun _ a => (lossy || a.insertsAll) = true)
      (s.view d) := seen_run h hdown d fun _ _ h => h
  have hheld : Held lossy c₀ (s.view d) := by
    refine RunFrom.invariant hrun ?_ fun v a w hv hok hst => held_step hv (fun ha => ?_) hst
    · rintro v rfl
      refine ⟨⟨c₀, hc, Keeps.refl lossy c₀⟩, ?_⟩
      unfold Underway
      rw [view_of_down hdown]
      trivial
    · subst ha
      simpa [Action.insertsAll] using hok
  exact hheld.current

set_option maxRecDepth 4000 in
theorem contents_kept_dev :
    ∃ c, ((replay step (fun _ a => false || a.insertsAll) devStopped
        (devLoads ++ devFills ++ [.crash])).getD devStopped).current "a" = some c ∧
      (false = false → devContents.lines.Subperm c.lines) :=
  contents_kept rfl (Run.start.replayGetD (by decide +kernel)) rfl

end Safety

section Unregistered

variable {v₀ v w : View}

-- a database that the metadata do not know is left alone
structure Forgotten (v₀ v : View) : Prop where
  row : v.row = none
  old : v.old = v₀.old
  live : v₀.live = none → v.live = none
  pos : v.pos = some .down ∨ v.pos = some .aside ∨ v.pos = none

theorem forgotten_step {ι : Type} {d : DbId} {a : Action ι} (h : Forgotten v₀ v)
    (hstep : Local d v a w) : Forgotten v₀ w := by
  have hpos := h.pos
  cases hstep with
  | stay => exact h
  | boot hdown => exact ⟨h.row, h.old, h.live, .inr (.inl (by simp [h.row]))⟩
  | start haside => exact ⟨h.row, h.old, h.live, .inr (.inr (by simp [h.row]))⟩
  | straight haside hold => exact ⟨h.row, h.old, h.live, .inr (.inr rfl)⟩
  | childRemoves hserving => exact ⟨rfl, h.old, h.live, hpos⟩
  | work hlive hlines =>
    refine ⟨h.row, h.old, fun hnone => ?_, hpos⟩
    rw [h.live hnone] at hlive
    cases hlive
  | crash => exact ⟨h.row, h.old, h.live, .inl rfl⟩
  | _ => simp_all

variable {ι : Type} [DecidableEq ι] {s₀ s : State ι} {d : DbId}

-- what a crash between a worker's clean-up and the end of part 3 leaves is final
theorem unregistered_for_good (hdown : s₀.phase = .down) (hrow : s₀.rows.get? d = none)
    (h : Run s₀ step (fun _ _ => true) s) :
    s.rows.get? d = none ∧
      s.databases.get? (oldName d) = s₀.databases.get? (oldName d) ∧
      (s₀.databases.get? (pgName d) = none → s.databases.get? (pgName d) = none) := by
  have hrun : RunFrom (· = s₀.view d) (Local d) (fun _ _ => True) (s.view d) :=
    seen_run h hdown d fun _ _ _ => trivial
  have hforgotten : Forgotten (s₀.view d) (s.view d) := by
    refine RunFrom.invariant hrun ?_ fun v a w hv _ hst => forgotten_step hv hst
    rintro v rfl
    exact ⟨hrow, rfl, fun h => h, .inl (view_of_down hdown)⟩
  exact ⟨hforgotten.row, hforgotten.old, hforgotten.live⟩

theorem unregistered_for_good_dev :
    let s := (replay step (fun _ _ => true) devForgotten [.boot, .start, .crash]).getD devForgotten
    s.rows.get? "a" = none ∧
      s.databases.get? (oldName "a") = devForgotten.databases.get? (oldName "a") ∧
      (devForgotten.databases.get? (pgName "a") = none → s.databases.get? (pgName "a") = none) :=
  unregistered_for_good rfl (by decide +kernel) (Run.start.replayGetD (by decide +kernel))

end Unregistered

end Iasql.Upgrade
