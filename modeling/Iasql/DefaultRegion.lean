import Iasql.Calculus.Runs
import Iasql.Calculus.Tables

namespace Iasql.AwsAccount

open Tables Runs

section Statements

structure AwsRegion where
  region : String
  isDefault : Bool := false
  isEnabled : Bool := true
deriving DecidableEq

-- the trigger counts the rows as the statement has left them so far
def awsDefaultRegionTrigger (awsRegions : List AwsRegion) (new : AwsRegion) : Except String AwsRegion :=
  let defaultCount := awsRegions.countP (·.isDefault)
  if defaultCount > 0 ∧ new.isDefault = true then .error "Only one AWS region may be the default"
  else .ok new

def updateRow (awsRegions : List AwsRegion) (new : AwsRegion) : Except String (List AwsRegion) :=
  (awsDefaultRegionTrigger awsRegions new).map fun new => put (·.region) new awsRegions

def insertRow (awsRegions : List AwsRegion) (new : AwsRegion) : Except String (List AwsRegion) :=
  match awsDefaultRegionTrigger awsRegions new with
  | .error err => .error err
  | .ok new =>
    if ∃ r ∈ awsRegions, r.region = new.region then
      .error "duplicate key value violates unique constraint"
    else .ok (put (·.region) new awsRegions)

-- the new versions of the rows that an UPDATE meets, in the order in which it meets them
def update (news awsRegions : List AwsRegion) : Except String (List AwsRegion) :=
  news.foldlM updateRow awsRegions

def insert (news awsRegions : List AwsRegion) : Except String (List AwsRegion) :=
  news.foldlM insertRow awsRegions

-- its first UPDATE meets the rows in the order of the scan
def defaultAwsRegion (r : String) (scan awsRegions : List AwsRegion) : Except String (List AwsRegion) := do
  let awsRegions ← update ((scan.filter (·.isDefault)).map fun a => { a with isDefault := false }) awsRegions
  update ((awsRegions.filter (·.region = r)).map fun a => { a with isDefault := true }) awsRegions

inductive Statement where
  | call (r : String) (scan : List AwsRegion)
  | insert (news : List AwsRegion)
  | update (news : List AwsRegion)
deriving DecidableEq

def Statement.exec : Statement → List AwsRegion → Except String (List AwsRegion)
  | .call r scan => defaultAwsRegion r scan
  | .insert news => AwsAccount.insert news
  | .update news => AwsAccount.update news

-- a statement that is rejected changes nothing
def Statement.run (s : Statement) (awsRegions : List AwsRegion) : List AwsRegion :=
  match s.exec awsRegions with
  | .ok awsRegions => awsRegions
  | .error _ => awsRegions

-- what an UPDATE meets are rows, each of them once
def Statement.Fits (awsRegions : List AwsRegion) : Statement → Prop
  | .call _ scan => scan.Perm awsRegions
  | .insert _ => True
  | .update news => (news.map (·.region)).Nodup ∧ ∀ a ∈ news, ∃ r ∈ awsRegions, r.region = a.region

end Statements

section Invariant

-- the primary key and the default
structure OneAtMost (awsRegions : List AwsRegion) : Prop where
  primaryKey : (awsRegions.map (·.region)).Nodup
  default : ∀ a ∈ awsRegions, ∀ b ∈ awsRegions, a.isDefault = true → b.isDefault = true → a = b

variable {awsRegions out : List AwsRegion} {new : AwsRegion} {news : List AwsRegion} {err : String}

theorem trigger_eq : awsDefaultRegionTrigger awsRegions new =
    if (∃ a ∈ awsRegions, a.isDefault = true) ∧ new.isDefault = true then
      .error "Only one AWS region may be the default"
    else .ok new := by
  rw [awsDefaultRegionTrigger]
  refine if_congr ?_ rfl rfl
  rw [gt_iff_lt, List.countP_pos_iff]

-- a row is written unless it is a default beside one
theorem updateRow_eq_ok : updateRow awsRegions new = .ok out ↔
    ¬ ((∃ a ∈ awsRegions, a.isDefault = true) ∧ new.isDefault = true) ∧
      out = put (·.region) new awsRegions := by
  rw [updateRow, trigger_eq]
  split
  · next h => exact iff_of_false (fun hrow => by cases hrow) fun hout => hout.1 h
  · next h =>
    rw [and_iff_right h, Except.map, Except.ok.injEq]
    exact eq_comm

theorem insertRow_eq_ok : insertRow awsRegions new = .ok out ↔
    ¬ ((∃ a ∈ awsRegions, a.isDefault = true) ∧ new.isDefault = true) ∧
      (∀ r ∈ awsRegions, r.region ≠ new.region) ∧ out = put (·.region) new awsRegions := by
  rw [insertRow, trigger_eq]
  by_cases h : (∃ a ∈ awsRegions, a.isDefault = true) ∧ new.isDefault = true
  · rw [if_pos h]
    exact iff_of_false (fun hrow => by cases hrow) fun hout => hout.1 h
  · rw [if_neg h]
    dsimp only
    split
    · next hkey =>
      refine iff_of_false (fun hrow => by cases hrow) fun hout => ?_
      obtain ⟨r, hr, heq⟩ := hkey
      exact hout.2.1 r hr heq
    · next hkey =>
      rw [and_iff_right h, and_iff_right (by simpa using hkey), Except.ok.injEq, eq_comm]

theorem OneAtMost.put (h : OneAtMost awsRegions)
    (hnew : ¬ ((∃ a ∈ awsRegions, a.isDefault = true) ∧ new.isDefault = true)) :
    OneAtMost (Tables.put (·.region) new awsRegions) where
  primaryKey := nodup_put h.primaryKey
  default a ha b hb hda hdb := by
    rcases mem_put.mp ha with rfl | ⟨hold, -⟩
    · rcases mem_put.mp hb with rfl | ⟨hold, -⟩
      · rfl
      · exact absurd ⟨⟨b, hold, hdb⟩, hda⟩ hnew
    · rcases mem_put.mp hb with rfl | ⟨hold', -⟩
      · exact absurd ⟨⟨a, hold, hda⟩, hdb⟩ hnew
      · exact h.default a hold b hold' hda hdb

theorem OneAtMost.foldlM {f : List AwsRegion → AwsRegion → Except String (List AwsRegion)}
    (hstep : ∀ {rows new out}, OneAtMost rows → f rows new = .ok out → OneAtMost out)
    (h : OneAtMost awsRegions) (hout : news.foldlM f awsRegions = .ok out) : OneAtMost out := by
  induction news generalizing awsRegions with
  | nil =>
    cases hout
    exact h
  | cons new news ih =>
    rw [List.foldlM_cons] at hout
    cases hrow : f awsRegions new with
    | error err =>
      rw [hrow] at hout
      cases hout
    | ok rows =>
      rw [hrow] at hout
      exact ih (hstep h hrow) hout

theorem OneAtMost.update (h : OneAtMost awsRegions) (hout : AwsAccount.update news awsRegions = .ok out) :
    OneAtMost out := by
  refine h.foldlM (fun {rows new out} hrows hrow => ?_) hout
  obtain ⟨hnew, rfl⟩ := updateRow_eq_ok.mp hrow
  exact hrows.put hnew

theorem OneAtMost.insert (h : OneAtMost awsRegions) (hout : AwsAccount.insert news awsRegions = .ok out) :
    OneAtMost out := by
  refine h.foldlM (fun {rows new out} hrows hrow => ?_) hout
  obtain ⟨hnew, -, rfl⟩ := insertRow_eq_ok.mp hrow
  exact hrows.put hnew

theorem OneAtMost.run (h : OneAtMost awsRegions) (s : Statement) : OneAtMost (s.run awsRegions) := by
  rw [Statement.run]
  cases hexec : s.exec awsRegions with
  | error err => exact h
  | ok out =>
    cases s with
    | insert news => exact h.insert hexec
    | update news => exact h.update hexec
    | call r scan =>
      rw [Statement.exec, defaultAwsRegion] at hexec
      cases hcleared : AwsAccount.update ((scan.filter (·.isDefault)).map fun a => { a with isDefault := false })
          awsRegions with
      | error err =>
        rw [hcleared] at hexec
        cases hexec
      | ok cleared =>
        rw [hcleared] at hexec
        exact (h.update hcleared).update hexec

end Invariant

section Calls

-- the default is r and nothing else
structure DefaultIs (r : String) (awsRegions : List AwsRegion) : Prop where
  held : ∃ a ∈ awsRegions, a.region = r ∧ a.isDefault = true
  only : ∀ a ∈ awsRegions, a.isDefault = true → a.region = r

variable {awsRegions scan out : List AwsRegion} {new : AwsRegion} {news : List AwsRegion} {r : String}

theorem update_save (h : update news awsRegions = .ok out) :
    save (·.region) (fun _ => (none : Option Unit)) news awsRegions = some out := by
  induction news generalizing awsRegions with
  | nil =>
    cases h
    rfl
  | cons new news ih =>
    rw [update, List.foldlM_cons] at h
    have hclash : ¬ Clashes (·.region) (fun _ => (none : Option Unit)) new awsRegions := by
      rintro ⟨_, -, -, hnone, -⟩
      exact hnone rfl
    rw [save, if_neg hclash]
    cases hrow : updateRow awsRegions new with
    | error err =>
      rw [hrow] at h
      cases h
    | ok rows =>
      obtain ⟨-, rfl⟩ := updateRow_eq_ok.mp hrow
      rw [hrow] at h
      exact ih h

theorem update_of_no_default (h : ∀ a ∈ news, a.isDefault = false) :
    ∃ out, update news awsRegions = .ok out := by
  induction news generalizing awsRegions with
  | nil => exact ⟨awsRegions, rfl⟩
  | cons new news ih =>
    obtain ⟨hnew, hnews⟩ := List.forall_mem_cons.mp h
    have hrow : updateRow awsRegions new = .ok (put (·.region) new awsRegions) :=
      updateRow_eq_ok.mpr ⟨fun hreject => Bool.noConfusion (hnew.symm.trans hreject.2), rfl⟩
    rw [update, List.foldlM_cons, hrow]
    exact ih hnews

-- clearing the defaults is never rejected, and leaves the regions
theorem clear_defaults (hkey : (awsRegions.map (·.region)).Nodup) (hscan : scan.Perm awsRegions) :
    ∃ cleared, update ((scan.filter (·.isDefault)).map fun a => { a with isDefault := false }) awsRegions =
        .ok cleared ∧ (∀ a ∈ cleared, a.isDefault = false) ∧
      ∀ a ∈ awsRegions, ∃ b ∈ cleared, b.region = a.region := by
  have hregions : ((scan.filter (·.isDefault)).map fun a => { a with isDefault := false }).map (·.region) =
      (scan.filter (·.isDefault)).map (·.region) := by
    rw [List.map_map]
    rfl
  have hnodup : (((scan.filter (·.isDefault)).map fun a => { a with isDefault := false }).map
      (·.region)).Nodup := by
    rw [hregions]
    exact ((hscan.map (·.region)).nodup_iff.mpr hkey).sublist (List.filter_sublist.map _)
  have hcleared : ∀ a ∈ (scan.filter (·.isDefault)).map fun a => { a with isDefault := false },
      a.isDefault = false := by
    intro a ha
    obtain ⟨b, -, rfl⟩ := List.mem_map.mp ha
    rfl
  obtain ⟨cleared, hout⟩ := @update_of_no_default awsRegions _ hcleared
  have hmem := fun a => @mem_save _ _ _ _ _ _ _ a _ _ _ (update_save hout) hnodup
  refine ⟨cleared, hout, fun a ha => ?_, fun a ha => ?_⟩
  · rcases (hmem a).mp ha with ha | ⟨ha, hnotin⟩
    · exact hcleared a ha
    · rw [hregions] at hnotin
      refine Bool.not_eq_true _ ▸ fun hdefault => hnotin (List.mem_map_of_mem ?_)
      exact List.mem_filter.mpr ⟨hscan.mem_iff.mpr ha, hdefault⟩
  · by_cases hdefault : a.isDefault = true
    · refine ⟨{ a with isDefault := false }, (hmem _).mpr (.inl (List.mem_map.mpr ⟨a, ?_, rfl⟩)), rfl⟩
      exact List.mem_filter.mpr ⟨hscan.mem_iff.mpr ha, hdefault⟩
    · refine ⟨a, (hmem a).mpr (.inr ⟨ha, fun hin => hdefault ?_⟩), rfl⟩
      rw [hregions] at hin
      obtain ⟨b, hb, hregion⟩ := List.mem_map.mp hin
      obtain ⟨hb, hbdefault⟩ := List.mem_filter.mp hb
      obtain rfl := List.inj_on_of_nodup_map hkey (hscan.mem_iff.mp hb) ha hregion
      exact hbdefault

theorem call_succeeds (h : OneAtMost awsRegions) (hscan : scan.Perm awsRegions)
    (hr : ∃ a ∈ awsRegions, a.region = r) :
    ∃ out, defaultAwsRegion r scan awsRegions = .ok out ∧ DefaultIs r out := by
  obtain ⟨cleared, hcleared, hnone, hkept⟩ := clear_defaults h.primaryKey hscan
  have hone := h.update hcleared
  obtain ⟨a, ha, har⟩ := hr
  obtain ⟨b, hb, hbr⟩ := hkept a ha
  have hbr : b.region = r := hbr.trans har
  have hfilter : cleared.filter (·.region = r) = [b] := by
    have heq : cleared.filter (·.region = r) = cleared.filter (· = b) := by
      refine List.filter_congr fun c hc => decide_eq_decide.mpr ⟨fun hcr => ?_, fun hcb => hcb ▸ hbr⟩
      exact List.inj_on_of_nodup_map hone.primaryKey hc hb (hcr.trans hbr.symm)
    rw [heq, List.filter_eq, List.count_eq_one_of_mem hone.primaryKey.of_map hb, List.replicate_one]
  have hreject : ¬ ((∃ a ∈ cleared, a.isDefault = true) ∧ ({ b with isDefault := true } : AwsRegion).isDefault = true) := by
    rintro ⟨⟨c, hc, hdefault⟩, -⟩
    rw [hnone c hc] at hdefault
    cases hdefault
  refine ⟨put (·.region) { b with isDefault := true } cleared, ?_, ?_⟩
  · rw [defaultAwsRegion, hcleared]
    change update ((cleared.filter (·.region = r)).map _) cleared = _
    rw [hfilter, List.map_singleton, update, List.foldlM_cons, updateRow_eq_ok.mpr ⟨hreject, rfl⟩]
    rfl
  · refine ⟨⟨{ b with isDefault := true }, mem_put.mpr (.inl rfl), hbr, rfl⟩, fun c hc hdefault => ?_⟩
    rcases mem_put.mp hc with rfl | ⟨hc, -⟩
    · exact hbr
    · rw [hnone c hc] at hdefault
      cases hdefault

-- every row that the UPDATE meets keeps its column
def KeepsDefault (awsRegions news : List AwsRegion) : Prop :=
  ∀ a ∈ news, ∀ b ∈ awsRegions, b.region = a.region → b.isDefault = a.isDefault

theorem update_default_rejected (hnodup : (news.map (·.region)).Nodup) (hnew : new ∈ news)
    (hdefault : new.isDefault = true) (hheld : ∃ b ∈ awsRegions, b.region = new.region ∧ b.isDefault = true) :
    update news awsRegions ≠ .ok out := by
  induction news generalizing awsRegions with
  | nil => cases hnew
  | cons a news ih =>
    obtain ⟨hfresh, hnodup⟩ := List.nodup_cons.mp hnodup
    rw [update, List.foldlM_cons]
    cases hrow : updateRow awsRegions a with
    | error err => exact nofun
    | ok rows =>
      obtain ⟨hreject, rfl⟩ := updateRow_eq_ok.mp hrow
      obtain ⟨b, hb, hbr, hbdefault⟩ := hheld
      rcases List.mem_cons.mp hnew with rfl | hnew
      · exact absurd ⟨⟨b, hb, hbdefault⟩, hdefault⟩ hreject
      · have hne : b.region ≠ a.region := fun heq =>
          hfresh (List.mem_map.mpr ⟨new, hnew, hbr.symm.trans heq⟩)
        exact ih hnodup hnew ⟨b, mem_put.mpr (.inr ⟨hb, hne⟩), hbr, hbdefault⟩

-- such an UPDATE is rejected where it meets the default region
theorem update_accepted_iff (hfits : (Statement.update news).Fits awsRegions)
    (hkeeps : KeepsDefault awsRegions news) :
    (∃ out, update news awsRegions = .ok out) ↔ ∀ a ∈ news, a.isDefault = false := by
  refine ⟨?_, update_of_no_default⟩
  rintro ⟨out, hout⟩ a ha
  refine Bool.not_eq_true _ ▸ fun hdefault => ?_
  obtain ⟨b, hb, hbr⟩ := hfits.2 a ha
  have hheld : b.isDefault = true := (hkeeps a ha b hb hbr).trans hdefault
  exact update_default_rejected hfits.1 ha hdefault ⟨b, hb, hbr, hheld⟩ hout

end Calls

section Reached

-- the rows after a run of statements, from rows with one default region
abbrev Reached : List AwsRegion → Prop :=
  RunFrom (fun rows => (rows.map (·.region)).Nodup ∧ ∃ r, DefaultIs r rows)
    (fun rows (s : Statement) rows' => s.run rows = rows') (fun rows s => s.Fits rows)

theorem oneAtMost_of_reached {awsRegions : List AwsRegion} (h : Reached awsRegions) : OneAtMost awsRegions := by
  refine h.invariant ?_ ?_
  · rintro rows ⟨hkey, r, hr⟩
    refine ⟨hkey, fun a ha b hb hda hdb => ?_⟩
    exact List.inj_on_of_nodup_map hkey ha hb ((hr.only a ha hda).trans (hr.only b hb hdb).symm)
  · rintro rows s _ hrows - rfl
    exact hrows.run s

-- one default at most, which a call sets, and an edit of other columns is rejected at the default region
theorem reached_regions {awsRegions : List AwsRegion} (h : Reached awsRegions) :
    OneAtMost awsRegions ∧
      (∀ r scan, scan.Perm awsRegions → (∃ a ∈ awsRegions, a.region = r) →
        ∃ out, defaultAwsRegion r scan awsRegions = .ok out ∧ DefaultIs r out) ∧
      ∀ news, (Statement.update news).Fits awsRegions → KeepsDefault awsRegions news →
        ((∃ out, update news awsRegions = .ok out) ↔
          ∀ a ∈ awsRegions, a.isDefault = true → a.region ∉ news.map (·.region)) := by
  have hone := oneAtMost_of_reached h
  refine ⟨hone, fun r scan hscan hr => call_succeeds hone hscan hr, fun news hfits hkeeps => ?_⟩
  rw [update_accepted_iff hfits hkeeps]
  constructor
  · intro hnews a ha hdefault hmem
    obtain ⟨new, hnew, hregion⟩ := List.mem_map.mp hmem
    have hfalse := (hkeeps new hnew a ha hregion.symm).trans (hnews new hnew)
    rw [hdefault] at hfalse
    cases hfalse
  · intro hdefaults new hnew
    refine Bool.not_eq_true _ ▸ fun hdefault => ?_
    obtain ⟨a, ha, hregion⟩ := hfits.2 new hnew
    refine hdefaults a ha ((hkeeps new hnew a ha hregion).trans hdefault) ?_
    rw [hregion]
    exact List.mem_map_of_mem hnew

def virginia : AwsRegion := { region := "us-east-1", isDefault := true }

def ohio : AwsRegion := { region := "us-east-2" }

theorem reached_start : Reached [virginia, ohio] :=
  .start ⟨by decide, "us-east-1", ⟨virginia, by decide, by decide, by decide⟩, by decide⟩

theorem reached_regions_start :
    OneAtMost [virginia, ohio] ∧
      (∀ r scan, scan.Perm [virginia, ohio] → (∃ a ∈ [virginia, ohio], a.region = r) →
        ∃ out, defaultAwsRegion r scan [virginia, ohio] = .ok out ∧ DefaultIs r out) ∧
      ∀ news, (Statement.update news).Fits [virginia, ohio] → KeepsDefault [virginia, ohio] news →
        ((∃ out, update news [virginia, ohio] = .ok out) ↔
          ∀ a ∈ [virginia, ohio], a.isDefault = true → a.region ∉ news.map (·.region)) :=
  reached_regions reached_start

-- the trigger counts the row itself
theorem disable_virginia_rejected :
    Reached [virginia, ohio] ∧ (Statement.update [{ virginia with isEnabled := false }]).Fits [virginia, ohio] ∧
      KeepsDefault [virginia, ohio] [{ virginia with isEnabled := false }] ∧
      update [{ virginia with isEnabled := false }] [virginia, ohio] =
        .error "Only one AWS region may be the default" :=
  ⟨reached_start, ⟨by decide, by decide⟩, by unfold KeepsDefault; decide, by rfl⟩

end Reached

end Iasql.AwsAccount
