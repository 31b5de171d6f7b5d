import Iasql.UpgradeRuns

namespace Iasql.Upgrade

open AwsAccount Runs Tables

section Statements

theorem ok_of_map {ε α β : Type} {e : Except ε α} {f : α → β} {b : β} (h : e.map f = .ok b) :
    ∃ a, e = .ok a ∧ b = f a := by
  cases e with
  | error err => cases h
  | ok a =>
    cases h
    exact ⟨a, rfl, rfl⟩

variable {c x y : Contents} {f : AwsRegion → AwsRegion} {regions out : List AwsRegion}
  {a : AwsRegion} {r : String}

theorem mem_update_where (hf : ∀ a, (f a).region = a.region)
    (hkey : (regions.map (·.region)).Nodup)
    (h : update ((regions.filter (·.region = r)).map f) regions = .ok out) :
    a ∈ out ↔ ∃ b ∈ regions, a = if b.region = r then f b else b := by
  have hregions : ((regions.filter (·.region = r)).map f).map (·.region) =
      (regions.filter (·.region = r)).map (·.region) := by
    rw [List.map_map]
    exact List.map_congr_left fun b _ => hf b
  have hnodup : (((regions.filter (·.region = r)).map f).map (·.region)).Nodup :=
    hregions ▸ hkey.sublist (List.filter_sublist.map _)
  rw [mem_save (update_save h) hnodup, hregions]
  constructor
  · rintro (hmem | ⟨hmem, hother⟩)
    · obtain ⟨b, hb, rfl⟩ := List.mem_map.mp hmem
      obtain ⟨hb, hregion⟩ := List.mem_filter.mp hb
      exact ⟨b, hb, (if_pos (of_decide_eq_true hregion)).symm⟩
    · refine ⟨a, hmem, (if_neg fun hregion => hother ?_).symm⟩
      exact List.mem_map_of_mem (List.mem_filter.mpr ⟨hmem, decide_eq_true hregion⟩)
  · rintro ⟨b, hb, rfl⟩
    split
    · next hregion =>
      exact .inl (List.mem_map_of_mem (List.mem_filter.mpr ⟨hb, decide_eq_true hregion⟩))
    · next hregion =>
      refine .inr ⟨hb, fun hmem => ?_⟩
      obtain ⟨b', hb', heq⟩ := List.mem_map.mp hmem
      exact hregion (heq ▸ of_decide_eq_true (List.mem_filter.mp hb').2)

theorem mem_missingRegions {listed : List String} (h : a ∈ missingRegions listed regions) :
    a.isDefault = false ∧ a.isEnabled = true ∧ ∀ b ∈ regions, b.region ≠ a.region := by
  obtain ⟨r, hr, rfl⟩ := List.mem_map.mp h
  have hnew := (List.mem_filter.mp hr).2
  refine ⟨rfl, rfl, fun b hb heq => ?_⟩
  have hany : regions.any (·.region == r) = true := List.any_eq_true.mpr ⟨b, hb, by simpa using heq⟩
  rw [hany] at hnew
  cases hnew

theorem oneAtMost_missing (h : OneAtMost regions) (listed : List String) :
    OneAtMost (regions ++ missingRegions listed regions) where
  primaryKey := by
    have hnames : (missingRegions listed regions).map (·.region) =
        listed.dedup.filter fun r => !regions.any (·.region == r) := by
      simp [missingRegions, Function.comp_def]
    rw [List.map_append]
    refine h.primaryKey.append (hnames ▸ listed.nodup_dedup.filter _) fun r hr hr' => ?_
    obtain ⟨b, hb, rfl⟩ := List.mem_map.mp hr
    obtain ⟨b', hb', heq⟩ := List.mem_map.mp hr'
    exact (mem_missingRegions hb').2.2 b hb heq.symm
  default a ha b hb hda hdb := by
    have hold : ∀ a ∈ regions ++ missingRegions listed regions, a.isDefault = true → a ∈ regions := by
      intro a ha hda
      refine (List.mem_append.mp ha).resolve_right fun hnew => ?_
      rw [(mem_missingRegions hnew).1] at hda
      cases hda
    exact h.default a (hold a ha hda) b (hold b hb hdb) hda hdb

end Statements

section Order

variable {c : Contents} {calls : List Fill} {r : String}

-- the default region is set last but for the installations
theorem accountFills_eq (c : Contents) : accountFills c = [] ∨ ∃ before,
    accountFills c = before ++ [.setDefault (defaultRegion c)] ∧ ∀ r, .setDefault r ∉ before := by
  unfold accountFills
  split
  · split
    · exact .inl rfl
    · refine .inr ⟨_, rfl, fun r => ?_⟩
      simp
  · exact .inl rfl

def Installs (calls : List Fill) : Prop := ∀ call ∈ calls, ∃ m, call = .install m

theorem installs_modules (c : Contents) : Installs (c.modules.map .install) := by
  intro call hcall
  obtain ⟨m, -, rfl⟩ := List.mem_map.mp hcall
  exact ⟨m, rfl⟩

theorem suffix_append_cases {α : Type} {l xs ys : List α} (h : l <:+ xs ++ ys) :
    l <:+ ys ∨ ∃ xs', xs' <:+ xs ∧ l = xs' ++ ys := by
  obtain ⟨t, ht⟩ := h
  rcases List.append_eq_append_iff.mp ht with ⟨xs', hxs, hl⟩ | ⟨ys', -, hys⟩
  · exact .inr ⟨xs', ⟨t, hxs.symm⟩, hl⟩
  · exact .inl ⟨ys', hys.symm⟩

-- once it is set, only installations are left
theorem installs_of_set (h : calls <:+ fills c) (hset : ∀ r, .setDefault r ∉ calls) :
    Installs calls := by
  rcases suffix_append_cases h with hrest | ⟨xs, hxs, rfl⟩
  · exact fun call hcall => installs_modules c call (hrest.subset hcall)
  · have hnil : xs = [] := by
      rcases List.eq_nil_or_concat xs with rfl | ⟨xs, z, rfl⟩
      · rfl
      · rw [List.concat_eq_append] at hxs hset
        rcases accountFills_eq c with hnone | ⟨before, heq, -⟩
        · rw [hnone] at hxs
          exact absurd (List.suffix_nil.mp hxs) (by simp)
        · obtain ⟨t, ht⟩ := hxs
          rw [heq, ← List.append_assoc] at ht
          have hlast := (List.append_inj' ht rfl).2
          refine absurd ?_ (hset (defaultRegion c))
          rw [← List.singleton_inj.mp hlast]
          simp
    subst hnil
    exact installs_modules c

theorem setDefault_head (h : .setDefault r :: calls <:+ fills c) :
    r = defaultRegion c ∧ Installs calls := by
  rcases suffix_append_cases h with hrest | ⟨xs, hxs, heq⟩
  · obtain ⟨m, hm⟩ := installs_modules c _ (hrest.subset List.mem_cons_self)
    cases hm
  · cases xs with
    | nil =>
      rw [List.nil_append] at heq
      obtain ⟨m, hm⟩ := installs_modules c (.setDefault r) (heq ▸ List.mem_cons_self)
      cases hm
    | cons z xs =>
      obtain ⟨rfl, rfl⟩ := List.cons.inj heq
      obtain ⟨t, ht⟩ := hxs
      rcases accountFills_eq c with hnone | ⟨before, hlast, hbefore⟩
      · rw [hnone] at ht
        simp at ht
      · rw [hlast] at ht
        rcases List.eq_nil_or_concat xs with rfl | ⟨xs, z, rfl⟩
        · have hsplit := List.append_inj' ht rfl
          exact ⟨(Fill.setDefault.inj (List.singleton_inj.mp hsplit.2)), installs_modules c⟩
        · rw [List.concat_eq_append, ← List.cons_append, ← List.append_assoc] at ht
          have hsplit := List.append_inj' ht rfl
          exact absurd (hsplit.1 ▸ by simp) (hbefore r)

end Order

section Filling

variable {c x y : Contents} {call : Fill} {calls : List Fill} {w : Written}

-- the new database while part 3 fills it
structure Filling (c : Contents) (calls : List Fill) (x : Contents) : Prop where
  suffix : calls <:+ fills c
  lines : c.lines.Subperm x.lines
  modules : ∀ m ∈ c.modules, m ∈ x.modules ∨ .install m ∈ calls
  credentials : ∀ k, .insertCredentials k ∈ fills c →
    k ∈ x.credentials ∨ .insertCredentials k ∈ calls
  keys : OneAtMost x.regions
  enabled : ∀ r ∈ x.regions, r.isEnabled = true
  unset : .setDefault (defaultRegion c) ∈ calls → ∀ r ∈ x.regions, r.isDefault = false
  set : .setDefault (defaultRegion c) ∈ fills c → .setDefault (defaultRegion c) ∉ calls →
    ∀ r ∈ x.regions, r.isDefault = true ↔ r.region = defaultRegion c

-- what the upgrade makes of a database: only regions are not what they were
structure Upgraded (c x : Contents) : Prop where
  lines : c.lines.Subperm x.lines
  modules : ∀ m ∈ c.modules, m ∈ x.modules
  credentials : "aws_account" ∈ c.modules → ∀ k, c.credentials.head? = some k →
    { k with sessionToken := none } ∈ x.credentials
  enabled : ∀ r ∈ x.regions, r.isEnabled = true
  default : "aws_account" ∈ c.modules → c.credentials ≠ [] →
    ∀ r ∈ x.regions, r.isDefault = true ↔ r.region = defaultRegion c

theorem filling_start (hlines : c.lines.Subperm x.lines) (hregions : x.regions = []) :
    Filling c (fills c) x where
  suffix := List.suffix_rfl
  lines := hlines
  modules m hm := .inr (List.mem_append_right _ (List.mem_map_of_mem hm))
  credentials k hk := .inr hk
  keys := by
    rw [hregions]
    exact ⟨List.nodup_nil, fun a ha => absurd ha List.not_mem_nil⟩
  enabled r hr := by
    rw [hregions] at hr
    cases hr
  unset _ r hr := by
    rw [hregions] at hr
    cases hr
  set hin hout := absurd hin hout

theorem setDefault_of_suffix {r : String} (h : calls <:+ fills c) (hin : .setDefault r ∈ calls) :
    r = defaultRegion c := by
  rcases List.mem_append.mp (h.subset hin) with haccount | hinstall
  · rcases accountFills_eq c with hnone | ⟨before, heq, hbefore⟩
    · rw [hnone] at haccount
      cases haccount
    · rw [heq] at haccount
      rcases List.mem_append.mp haccount with hmem | hmem
      · exact absurd hmem (hbefore r)
      · exact Fill.setDefault.inj (List.mem_singleton.mp hmem)
  · obtain ⟨m, hm⟩ := installs_modules c _ hinstall
    cases hm

-- a statement does its own part, and takes nothing away
structure Fill.Done (call : Fill) (x y : Contents) : Prop where
  lines : x.lines <+: y.lines
  modules : ∀ m, m ∈ x.modules ∨ .install m = call → m ∈ y.modules
  credentials : ∀ k, k ∈ x.credentials ∨ .insertCredentials k = call → k ∈ y.credentials

theorem Filling.step (h : Filling c (call :: calls) x) (hdone : call.Done x y)
    (hkeys : OneAtMost y.regions) (henabled : ∀ r ∈ y.regions, r.isEnabled = true)
    (hunset : .setDefault (defaultRegion c) ∈ calls → ∀ r ∈ y.regions, r.isDefault = false)
    (hset : .setDefault (defaultRegion c) ∈ fills c → .setDefault (defaultRegion c) ∉ calls →
      ∀ r ∈ y.regions, r.isDefault = true ↔ r.region = defaultRegion c) : Filling c calls y where
  suffix := (List.suffix_cons call calls).trans h.suffix
  lines := h.lines.trans hdone.lines.sublist.subperm
  modules m hm := by
    rcases h.modules m hm with hin | hin
    · exact .inl (hdone.modules m (.inl hin))
    · exact (List.mem_cons.mp hin).imp_left fun heq => hdone.modules m (.inr heq)
  credentials k hk := by
    rcases h.credentials k hk with hin | hin
    · exact .inl (hdone.credentials k (.inl hin))
    · exact (List.mem_cons.mp hin).imp_left fun heq => hdone.credentials k (.inr heq)
  keys := hkeys
  enabled := henabled
  unset := hunset
  set := hset

theorem not_mem_cons {r : String} (hcall : call ≠ .setDefault r) (h : .setDefault r ∉ calls) :
    .setDefault r ∉ call :: calls :=
  fun hin => (List.mem_cons.mp hin).elim (fun heq => hcall heq.symm) h

theorem Filling.step_of_regions (h : Filling c (call :: calls) x) (hdone : call.Done x y)
    (hregions : y.regions = x.regions) (hcall : ∀ r, call ≠ .setDefault r) : Filling c calls y :=
  h.step hdone (hregions ▸ h.keys) (hregions ▸ h.enabled)
    (fun hin => hregions ▸ h.unset (List.mem_cons_of_mem _ hin))
    fun hin hout => hregions ▸ h.set hin (not_mem_cons (hcall _) hout)

theorem done_of_same (hlines : x.lines <+: y.lines) (hmodules : y.modules = x.modules)
    (hcredentials : y.credentials = x.credentials) (hinstall : ∀ m, call ≠ .install m)
    (hinsert : ∀ k, call ≠ .insertCredentials k) : call.Done x y where
  lines := hlines
  modules m hm := hmodules ▸ hm.resolve_right fun heq => hinstall m heq.symm
  credentials k hk := hcredentials ▸ hk.resolve_right fun heq => hinsert k heq.symm

theorem done_of_exec (hexec : call.exec w x = .ok y) (hlines : x.lines <+: y.lines) :
    call.Done x y := by
  cases call with
  | install mod =>
    cases hexec
    refine ⟨hlines, fun m hm => ?_, fun k hk => hk.resolve_right (by simp)⟩
    by_cases hin : m ∈ x.modules
    · exact List.mem_append_left _ hin
    · obtain rfl := Fill.install.inj (hm.resolve_left hin)
      exact List.mem_append_right _ (List.mem_filter.mpr ⟨by simp, by simpa using hin⟩)
  | insertCredentials creds =>
    cases hexec
    refine ⟨hlines, fun m hm => hm.resolve_right (by simp), fun k hk => ?_⟩
    rcases hk with hk | hk
    · exact List.mem_append_left _ hk
    · cases hk
      exact List.mem_append_right _ List.mem_cons_self
  | begin | commit =>
    cases hexec
    exact done_of_same hlines rfl rfl (by simp) (by simp)
  | enable region | setDefault region =>
    obtain ⟨out, -, rfl⟩ := ok_of_map hexec
    exact done_of_same hlines rfl rfl (by simp) (by simp)

theorem filling_step (h : Filling c (call :: calls) x) (hexec : call.exec w x = .ok y)
    (hlines : x.lines <+: y.lines) : Filling c calls y := by
  have hdone := done_of_exec hexec hlines
  cases call with
  | install mod | begin | insertCredentials creds =>
    cases hexec
    exact h.step_of_regions hdone rfl (by simp)
  | commit =>
    cases hexec
    have hkept : ∀ r ∈ x.regions ++ missingRegions w.regions x.regions,
        r ∈ x.regions ∨ r.isDefault = false ∧ r.isEnabled = true := by
      intro r hr
      refine (List.mem_append.mp hr).imp_right fun hnew => ?_
      exact ⟨(mem_missingRegions hnew).1, (mem_missingRegions hnew).2.1⟩
    refine h.step hdone (oneAtMost_missing h.keys w.regions) (fun r hr => ?_) (fun hin r hr => ?_)
      fun hin hout => ?_
    · exact (hkept r hr).elim (h.enabled r) And.right
    · exact (hkept r hr).elim (h.unset (List.mem_cons_of_mem _ hin) r) And.left
    · obtain ⟨m, hm⟩ := installs_of_set h.suffix
        (fun r hmem => not_mem_cons (by simp) hout (setDefault_of_suffix h.suffix hmem ▸ hmem))
        _ List.mem_cons_self
      cases hm
  | enable region =>
    obtain ⟨out, hupdate, rfl⟩ := ok_of_map hexec
    have hmem := fun a => mem_update_where (a := a) (f := fun r => { r with isEnabled := true })
      (fun _ => rfl) h.keys.primaryKey hupdate
    refine h.step hdone (h.keys.update hupdate) (fun r hr => ?_) (fun hin r hr => ?_)
      fun hin hout r hr => ?_
    · obtain ⟨b, hb, rfl⟩ := (hmem r).mp hr
      split
      · rfl
      · exact h.enabled b hb
    · obtain ⟨b, hb, rfl⟩ := (hmem r).mp hr
      have hunset := h.unset (List.mem_cons_of_mem _ hin) b hb
      split
      · exact hunset
      · exact hunset
    · obtain ⟨b, hb, rfl⟩ := (hmem r).mp hr
      have hset := h.set hin (not_mem_cons (by simp) hout) b hb
      split
      · exact hset
      · exact hset
  | setDefault region =>
    obtain ⟨out, hupdate, rfl⟩ := ok_of_map hexec
    have hmem := fun a => mem_update_where (a := a) (f := fun r => { r with isDefault := true })
      (fun _ => rfl) h.keys.primaryKey hupdate
    obtain ⟨rfl, hinstalls⟩ := setDefault_head h.suffix
    have hunset := h.unset List.mem_cons_self
    refine h.step hdone (h.keys.update hupdate) (fun r hr => ?_) (fun hin => ?_) fun _ _ r hr => ?_
    · obtain ⟨b, hb, rfl⟩ := (hmem r).mp hr
      split
      · exact h.enabled b hb
      · exact h.enabled b hb
    · obtain ⟨m, hm⟩ := hinstalls _ hin
      cases hm
    · obtain ⟨b, hb, rfl⟩ := (hmem r).mp hr
      split
      · next hregion => simp [hregion]
      · next hregion => simp [hunset b hb, hregion]

theorem Filling.upgraded (h : Filling c [] x) : Upgraded c x where
  lines := h.lines
  modules m hm := (h.modules m hm).resolve_right List.not_mem_nil
  credentials haccount k hk := by
    refine (h.credentials _ ?_).resolve_right List.not_mem_nil
    simp [fills, accountFills, haccount, hk]
  enabled := h.enabled
  default haccount hcredentials := by
    refine h.set ?_ List.not_mem_nil
    obtain ⟨k, rest, hk⟩ := List.exists_cons_of_ne_nil hcredentials
    simp [fills, accountFills, haccount, hk]

end Filling

section Completion

-- nothing is refused, nobody works in the databases, and no worker that was slow removes the
-- record of a database that is there
def smooth {ι : Type} (s : State ι) : Action ι → Bool
  | .restore renamed | .setAside renamed => renamed
  | .childRemoves _ d => (s.databases.get? (pgName d)).isNone
  | .insertFails | .fillFails _ | .work _ _ | .crash => false
  | _ => true

def Smooth {ι : Type} (d : DbId) (v : View) : Action ι → Prop
  | .restore renamed | .setAside renamed => renamed = true
  | .childRemoves _ e => e = d → v.live = none
  | .insertFails | .fillFails _ | .work _ _ | .crash => False
  | _ => True

def Loading (c : Contents) (lines : List IasqlAuditLog) (v : View) : Prop :=
  v.live = none ∧ v.old = some c ∧ ∃ x, v.new = some x ∧ x.regions = [] ∧
    c.lines.Subperm (x.lines ++ lines.map copied)

def Renamed (c : Contents) (v : View) : Prop := ∃ x, v.live = some x ∧ Upgraded c x ∧ v.new = none

def Stage.Reached (c : Contents) (row : Row) (v : View) : Stage → Prop
  | .waiting => Loading c [] v
  | .filling calls => v.live = none ∧ ∃ x, v.new = some x ∧ Filling c calls x
  | .dropping => Renamed c v
  | .saving | .joining => Renamed c v ∧ v.old = none
  | .finished => Renamed c v ∧ v.old = none ∧ v.row = some row

-- how far a database has come
def Reached (c : Contents) (row : Row) (v : View) : Prop :=
  match v.pos with
  | none => False
  | some .down | some .queued =>
    v.row = some row ∧ v.current = some c ∧ (v.live = none ∨ v.old = none)
  | some .moving => v.row = some row ∧ v.live = some c ∧ v.old = none
  | some .aside => v.row = some row ∧ v.live = none ∧ v.old = some c
  | some (.pending r) => r = row ∧ v.live = none ∧ v.old = some c
  | some (.creating r old lines) =>
    r = row ∧ old = c ∧ v.live = none ∧ v.old = some c ∧ lines.Perm c.auditLog
  | some (.copying r old lines) => r = row ∧ old = c ∧ Loading c lines v
  | some (.polled p) => p.row = row ∧ p.old = c ∧ p.stage.Reached c row v

variable {c : Contents} {row : Row} {v w : View}

theorem reached_moving (hcurrent : v.current = some c) (hone : v.live = none ∨ v.old = none)
    (h : v.live.isSome ∨ v.old = none) : v.live = some c ∧ v.old = none := by
  have hold : v.old = none := by
    rcases hone with hnone | hold
    · rw [hnone] at h
      exact h.resolve_left (by simp)
    · exact hold
  rw [View.current, hold, Option.or_none] at hcurrent
  exact ⟨hcurrent, hold⟩

theorem reached_step {ι : Type} {d : DbId} {a : Action ι} (huser : row.user ≠ none)
    (h : Reached c row v) (hok : Smooth d v a) (hstep : Local d v a w) : Reached c row w := by
  unfold Reached at h
  cases hstep with
  | stay => exact h
  | boot hpos =>
    rw [hpos] at h
    obtain ⟨hrow, hrest⟩ := h
    simp [Reached, hrow]
    exact hrest
  | restore hpos hlive hold =>
    rw [hpos] at h
    obtain ⟨hrow, hcurrent, -⟩ := h
    rw [View.current_of_old hlive] at hcurrent
    exact ⟨hrow, hold.symm.trans hcurrent, rfl⟩
  | unrestored hpos hwhy =>
    rw [hpos] at h
    obtain ⟨hrow, hcurrent, hone⟩ := h
    exact ⟨hrow, reached_moving hcurrent hone (hwhy hok)⟩
  | setAside hpos hlive hold =>
    rw [hpos] at h
    obtain ⟨hrow, hc, -⟩ := h
    exact ⟨hrow, rfl, hlive.symm.trans hc⟩
  | leftBe hpos hwhy =>
    rw [hpos] at h
    obtain ⟨-, hc, hold⟩ := h
    rcases hwhy hok with hnone | hsome
    · rw [hc] at hnone
      cases hnone
    · rw [hold] at hsome
      cases hsome
  | start hpos =>
    rw [hpos] at h
    obtain ⟨hrow, hrest⟩ := h
    simp [Reached, hrow]
    exact hrest
  | straight hpos hold =>
    rw [hpos] at h
    obtain ⟨-, -, hc⟩ := h
    rw [hold] at hc
    cases hc
  | skip hpos hnone =>
    rw [hpos] at h
    obtain ⟨rfl, -⟩ := h
    exact absurd hnone huser
  | readOld hpos hold hlines =>
    rw [hpos] at h
    obtain ⟨rfl, hlive, hc⟩ := h
    obtain rfl := Option.some.inj (hold.symm.trans hc)
    exact ⟨rfl, rfl, hlive, hold, hlines⟩
  | createNew hpos =>
    rw [hpos] at h
    obtain ⟨rfl, rfl, hlive, hc, hlines⟩ := h
    exact ⟨rfl, rfl, hlive, hc, _, rfl, rfl, (hlines.symm.map copied).subperm⟩
  | insertLine hpos hnew =>
    rw [hpos] at h
    obtain ⟨rfl, rfl, hlive, hc, x, hx, hregions, hlines⟩ := h
    obtain rfl := Option.some.inj (hnew.symm.trans hx)
    refine ⟨rfl, rfl, hlive, hc, _, rfl, hregions, ?_⟩
    rw [lines_insertLine, List.append_assoc]
    exact hlines
  | insertFails hpos => exact hok.elim
  | loaded hpos =>
    rw [hpos] at h
    exact h
  | health hpos hstage =>
    rw [hpos] at h
    obtain ⟨rfl, rfl, hreached⟩ := h
    rw [hstage] at hreached
    obtain ⟨hlive, -, x, hx, hregions, hlines⟩ := hreached
    rw [List.map_nil, List.append_nil] at hlines
    exact ⟨rfl, rfl, hlive, x, hx, filling_start hlines hregions⟩
  | fill hpos hstage hnew hexec hlines =>
    rw [hpos] at h
    obtain ⟨rfl, rfl, hreached⟩ := h
    rw [hstage] at hreached
    obtain ⟨hlive, x, hx, hfilling⟩ := hreached
    obtain rfl := Option.some.inj (hnew.symm.trans hx)
    exact ⟨rfl, rfl, hlive, _, rfl, filling_step hfilling hexec hlines⟩
  | fillFails hpos hstage => exact hok.elim
  | rename hpos hstage hnew hlive =>
    rw [hpos] at h
    obtain ⟨rfl, rfl, hreached⟩ := h
    rw [hstage] at hreached
    obtain ⟨-, x, hx, hfilling⟩ := hreached
    obtain rfl := Option.some.inj (hnew.symm.trans hx)
    exact ⟨rfl, rfl, _, rfl, hfilling.upgraded, rfl⟩
  | dropOld hpos hstage =>
    rw [hpos] at h
    obtain ⟨rfl, rfl, hreached⟩ := h
    rw [hstage] at hreached
    exact ⟨rfl, rfl, hreached, rfl⟩
  | saveDatabase hpos hstage =>
    rw [hpos] at h
    obtain ⟨rfl, rfl, hreached⟩ := h
    rw [hstage] at hreached
    exact ⟨rfl, rfl, hreached⟩
  | saveUser hpos hstage =>
    rw [hpos] at h
    obtain ⟨rfl, rfl, hreached⟩ := h
    rw [hstage] at hreached
    exact ⟨rfl, rfl, hreached.1, hreached.2, rfl⟩
  | childRemoves hpos =>
    have hlive := hok rfl
    rcases hpos with hnone | ⟨p, hp⟩
    · rw [hnone] at h
      exact h.elim
    · rw [hp] at h
      unfold Reached
      simp only [hp]
      obtain ⟨hrow, hold, hreached⟩ := h
      refine ⟨hrow, hold, ?_⟩
      cases hstage : p.stage with
      | waiting | filling calls =>
        rw [hstage] at hreached
        exact hreached
      | dropping =>
        rw [hstage] at hreached
        exact hreached
      | saving | joining =>
        rw [hstage] at hreached
        exact hreached
      | finished =>
        rw [hstage] at hreached
        obtain ⟨⟨x, hx, -⟩, -⟩ := hreached
        rw [hlive] at hx
        cases hx
  | work hlive hlines => exact hok.elim
  | crash => exact hok.elim

variable {ι : Type} {s₀ s : State ι} {d : DbId}

theorem smooth_seen {a : Action ι} (h : smooth s a = true) : Smooth d (s.view d) a := by
  cases a with
  | restore renamed | setAside renamed => exact h
  | childRemoves i e =>
    rintro rfl
    exact Option.isNone_iff_eq_none.mp h
  | insertFails | fillFails e | work e x | crash => cases h
  | _ => trivial

variable [DecidableEq ι]

def devServing : State Unit := (replay step smooth devStopped (devLoads ++ devFills)).getD devStopped

end Completion

end Iasql.Upgrade
