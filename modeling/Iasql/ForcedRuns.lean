import Iasql.TabResults

namespace Iasql.EditorTabs

section Once

-- the tabs whose content a forced run has sent, in turn
def forcedTitles (a : App) : List Title := (a.ran.filter fun x => x.cause == .forced).map Ran.title

structure Once (a : App) : Prop where
  once : (forcedTitles a).Nodup
  own : ∀ x ∈ a.ran, x.cause = .forced → (x.title, x.content) ∈ a.generated
  apart : (a.generated.map Prod.fst).Nodup

-- the tab still has the statement that was generated for it, and no forced run has sent it
def Awaits (a : App) (t : Tab) : Prop := (t.title, t.content) ∈ a.generated ∧ t.title ∉ forcedTitles a

-- the condition of a step: where a run is still forced and not refused, the tab that closing
-- another leaves before the last awaits its run, or is empty
def Settled (a : App) : Event → Prop
  | .closeTab i => a.signedIn = true → a.state.forceRun = true →
      ∀ db, a.state.selectedDb = some db → db.isUnsupported = false →
        ∀ t, (a.state.editorTabs.eraseIdx i)[a.state.editorTabs.length - 3]? = some t → t.content ≠ "" → Awaits a t
  | _ => True

-- the generated statements are of tabs that have been made
structure Counted (a : App) : Prop extends Once a where
  made : ∀ p ∈ a.generated, ∃ n < a.state.editorTabsCreated, p.1 = .query n

variable {unsupported : Option String → String → Bool} {a b : App}

theorem mem_forcedTitles {title : Title} : title ∈ forcedTitles a ↔ ∃ x ∈ a.ran, x.cause = .forced ∧ x.title = title := by
  simp only [forcedTitles, List.mem_map, List.mem_filter, beq_iff_eq, and_assoc]

theorem Counted.fresh (h : Counted a) : .query a.state.editorTabsCreated ∉ forcedTitles a := by
  intro hmem
  obtain ⟨x, hx, hforced, htitle⟩ := mem_forcedTitles.mp hmem
  obtain ⟨n, hn, hquery⟩ := h.made _ (h.own x hx hforced)
  rw [htitle] at hquery
  cases hquery
  exact Nat.lt_irrefl _ hn

-- a run that the user launched, or none
theorem Counted.of_same (h : Counted a) (hran : b.ran = a.ran ∨ ∃ title content, b.ran = a.ran ++ [⟨.explicit, title, content⟩])
    (hgenerated : b.generated = a.generated) (hcreated : a.state.editorTabsCreated ≤ b.state.editorTabsCreated) :
    Counted b := by
  have hforced : forcedTitles b = forcedTitles a := by
    rcases hran with hran | ⟨title, content, hran⟩
    · rw [forcedTitles, hran, forcedTitles]
    · rw [forcedTitles, hran, List.filter_append, List.map_append, forcedTitles]
      exact List.append_nil _
  refine ⟨⟨hforced ▸ h.once, fun x hx hcause => ?_, hgenerated ▸ h.apart⟩, fun p hp => ?_⟩
  · rw [hgenerated]
    rcases hran with hran | ⟨title, content, hran⟩
    · exact h.own x (hran ▸ hx) hcause
    · rw [hran] at hx
      rcases List.mem_append.mp hx with hx | hx
      · exact h.own x hx hcause
      · rw [List.mem_singleton.mp hx] at hcause
        cases hcause
  · obtain ⟨n, hn, hp⟩ := h.made p (hgenerated ▸ hp)
    exact ⟨n, Nat.lt_of_lt_of_le hn hcreated, hp⟩

-- one more forced run, of a tab that awaits it
theorem Counted.of_forced {t : Tab} (h : Counted a) (hawaits : Awaits a t)
    (hran : b.ran = a.ran ++ [⟨.forced, t.title, t.content⟩]) (hgenerated : b.generated = a.generated)
    (hcreated : b.state.editorTabsCreated = a.state.editorTabsCreated) : Counted b := by
  have hforced : forcedTitles b = forcedTitles a ++ [t.title] := by
    rw [forcedTitles, hran, List.filter_append, List.map_append, forcedTitles]
    rfl
  refine ⟨⟨?_, fun x hx hcause => ?_, hgenerated ▸ h.apart⟩, fun p hp => ?_⟩
  · rw [hforced]
    exact h.once.append (List.nodup_singleton _) (by simpa using hawaits.2)
  · rw [hgenerated]
    rw [hran] at hx
    rcases List.mem_append.mp hx with hx | hx
    · exact h.own x hx hcause
    · rw [List.mem_singleton.mp hx]
      exact hawaits.1
  · rw [hcreated]
    exact h.made p (hgenerated ▸ hp)

theorem Counted.generate (h : Counted a) (content : String) {b : App} (hran : b.ran = a.ran)
    (hgenerated : b.generated = a.generated ++ [(.query a.state.editorTabsCreated, content)])
    (hcreated : b.state.editorTabsCreated = a.state.editorTabsCreated + 1) : Counted b := by
  have hforced : forcedTitles b = forcedTitles a := by rw [forcedTitles, hran, forcedTitles]
  refine ⟨⟨hforced ▸ h.once, fun x hx hcause => ?_, ?_⟩, fun p hp => ?_⟩
  · rw [hgenerated]
    exact List.mem_append_left _ (h.own x (hran ▸ hx) hcause)
  · rw [hgenerated, List.map_append]
    refine h.apart.append (List.nodup_singleton _) ?_
    intro title hmem hnew
    obtain ⟨p, hp, rfl⟩ := List.mem_map.mp hmem
    obtain ⟨n, hn, hquery⟩ := h.made p hp
    rw [hquery] at hnew
    cases List.mem_singleton.mp hnew
    exact Nat.lt_irrefl _ hn
  · rw [hcreated]
    rw [hgenerated] at hp
    rcases List.mem_append.mp hp with hp | hp
    · obtain ⟨n, hn, hquery⟩ := h.made p hp
      exact ⟨n, Nat.lt_succ_of_lt hn, hquery⟩
    · rw [List.mem_singleton.mp hp]
      exact ⟨_, Nat.lt_succ_self _, rfl⟩

end Once

section Effects

variable (unsupported : Option String → String → Bool) {a b : App} {front : List Tab}

-- where the effects of a step force a run
structure Forces (a : App) (t : Tab) : Prop where
  counted : a.state.editorTabs.length ≠ a.prevTabsLen
  signedIn : a.signedIn = true
  flag : a.state.forceRun = true
  supported : ∃ db, a.state.selectedDb = some db ∧ db.isUnsupported = false
  tab : a.state.editorTabs[a.state.editorTabs.length - 2]? = some t
  filled : t.content ≠ ""

theorem selectTab_kept (a : App) (forceRun : Bool) (i : Nat) :
    (selectTab unsupported a forceRun i).generated = a.generated ∧
      (selectTab unsupported a forceRun i).state.editorTabsCreated = a.state.editorTabsCreated := by
  rw [selectTab]
  split
  · rcases launch_cases unsupported a .forced (contentAt a i) a.state.selectedDb i with heq | ⟨db, t, -, -, -, heq⟩
    · rw [heq]
      exact ⟨rfl, rfl⟩
    · rw [heq]
      exact ⟨rfl, rfl⟩
  · exact ⟨rfl, rfl⟩

theorem effects_kept (a : App) : (effects unsupported a).generated = a.generated ∧
    (effects unsupported a).state.editorTabsCreated = a.state.editorTabsCreated := by
  rw [effects]
  split
  · exact ⟨rfl, rfl⟩
  · exact selectTab_kept unsupported a a.state.forceRun _

theorem effects_ran (a : App) : (effects unsupported a).ran = a.ran ∨
    ∃ t, Forces a t ∧ (effects unsupported a).ran = a.ran ++ [⟨.forced, t.title, t.content⟩] := by
  rw [effects]
  split
  · exact .inl rfl
  · next hne =>
    have hindex : (if 2 ≤ a.state.editorTabs.length then a.state.editorTabs.length - 2 else 0) =
        a.state.editorTabs.length - 2 := by
      split <;> omega
    simp only [hindex, selectTab]
    split
    · next hforce =>
      simp only [Bool.and_eq_true, bne_iff_ne, ne_eq] at hforce
      obtain ⟨⟨hsigned, hflag⟩, hcontent⟩ := hforce
      rcases launch_cases unsupported a .forced (contentAt a (a.state.editorTabs.length - 2)) a.state.selectedDb
          (a.state.editorTabs.length - 2) with heq | ⟨db, t, hdb, hsupported, htab, heq⟩
      · rw [heq]
        exact .inl rfl
      · have hat : contentAt a (a.state.editorTabs.length - 2) = t.content := by
          rw [contentAt, htab]
          rfl
        rw [hat] at hcontent heq
        refine .inr ⟨t, ⟨hne, hsigned, hflag, ⟨db, hdb, hsupported⟩, htab, hcontent⟩, ?_⟩
        rw [hat, heq]
        rfl
    · exact .inl rfl

variable {unsupported}

theorem Counted.effects (h : Counted a) (hawaits : ∀ t, Forces a t → Awaits a t) : Counted (effects unsupported a) := by
  obtain ⟨hgenerated, hcreated⟩ := effects_kept unsupported a
  rcases effects_ran unsupported a with hran | ⟨t, hforces, hran⟩
  · exact h.of_same (.inl hran) hgenerated (Nat.le_of_eq hcreated.symm)
  · exact h.of_forced (hawaits t hforces) hran hgenerated hcreated

-- nothing is forced where no tab came or went
theorem Counted.quiet (h : Counted b) (hlength : b.state.editorTabs.length = b.prevTabsLen) :
    Counted (EditorTabs.effects unsupported b) :=
  h.effects fun _ hforces => absurd hlength hforces.counted

-- the tab that was added is the one before the last
theorem forces_added {content : String} {t : Tab} (h : Inv False a front)
    (htabs : b.state.editorTabs = (a.state.addTab content).editorTabs) (hforces : Forces b t) :
    t = ⟨.query a.state.editorTabsCreated, content, none, true, false⟩ := by
  have hadd := (h.addTab content).tabs
  have htab := hforces.tab
  rw [htabs, show (a.state.addTab content).editorTabs = _ from hadd] at htab
  simp only [List.length_append, List.length_singleton] at htab
  rw [List.append_assoc, List.getElem?_append_right (by omega)] at htab
  have hzero : front.length + 1 + 1 - 2 - front.length = 0 := by omega
  rw [hzero] at htab
  exact (Option.some.inj htab).symm

end Effects

section Steps

variable {unsupported : Option String → String → Bool} {a : App} {front : List Tab}

theorem counted_generate (h : Counted a) (hinv : Inv False a front) (content : String) :
    Counted (effects unsupported { a with
      state := { a.state.addTab content with forceRun := true }
      generated := a.generated ++ [(.query a.state.editorTabsCreated, content)] }) := by
  refine Counted.effects (h.generate content rfl rfl rfl) fun t hforces => ?_
  rw [forces_added hinv rfl hforces]
  exact ⟨List.mem_append_right _ (List.mem_singleton_self _), h.fresh⟩

theorem counted_newTab (h : Counted a) (hinv : Inv False a front) (index : Nat) :
    Counted (effects unsupported { a with state := { a.state.addTab "" with editorSelectedTab := index } }) := by
  refine Counted.effects (h.of_same (.inl rfl) rfl (Nat.le_succ _)) fun t hforces => ?_
  exact absurd rfl (forces_added hinv rfl hforces ▸ hforces.filled)

theorem counted_closeTab (h : Counted a) (hinv : Inv False a front) {i : Nat} (hok : allowed a (.closeTab i) = true)
    (hsettled : Settled a (.closeTab i)) : Counted (effects unsupported (act unsupported a (.closeTab i))) := by
  refine Counted.effects (h.of_same (.inl rfl) rfl (Nat.le_refl _)) fun t hforces => ?_
  have hselected : i = a.state.editorSelectedTab := by
    simp only [allowed, Bool.and_eq_true, beq_iff_eq] at hok
    exact hok.1.1.1
  have hlt : i < a.state.editorTabs.length := by
    have hfront := hinv.selected
    have hlength := hinv.length
    omega
  have htab : (a.state.editorTabs.eraseIdx i)[(a.state.editorTabs.eraseIdx i).length - 2]? = some t := hforces.tab
  rw [List.length_eraseIdx_of_lt hlt] at htab
  obtain ⟨db, hdb, hsupported⟩ := hforces.supported
  exact hsettled hforces.signedIn hforces.flag db hdb hsupported t htab hforces.filled

theorem launch_explicit (content : String) (db : Option Db) (i : Nat) :
    ((launch unsupported a .explicit content db i).ran = a.ran ∨
      ∃ title content', (launch unsupported a .explicit content db i).ran = a.ran ++ [⟨.explicit, title, content'⟩]) ∧
    (launch unsupported a .explicit content db i).generated = a.generated ∧
    (launch unsupported a .explicit content db i).state.editorTabsCreated = a.state.editorTabsCreated ∧
    (launch unsupported a .explicit content db i).state.editorTabs.length = a.state.editorTabs.length ∧
    (launch unsupported a .explicit content db i).prevTabsLen = a.prevTabsLen := by
  rcases launch_cases unsupported a .explicit content db i with heq | ⟨runningDb, t, -, -, -, heq⟩
  · rw [heq]
    exact ⟨.inl rfl, rfl, rfl, rfl, rfl⟩
  · rw [heq]
    exact ⟨.inr ⟨_, _, rfl⟩, rfl, rfl, List.length_modify _ _ _, rfl⟩

theorem counted_finished (h : Counted a) (hlength : a.state.editorTabs.length = a.prevTabsLen) (j : Nat) (value : String)
    (dbs : Option (List Db)) : Counted (effects unsupported (act unsupported a (.finished j value dbs))) := by
  cases hr : a.inFlight[j]? with
  | none =>
    have hact : act unsupported a (.finished j value dbs) = a := by simp only [act, hr]
    rw [hact]
    exact h.quiet hlength
  | some r =>
    have hact : act unsupported a (.finished j value dbs) =
        { finish unsupported a r value dbs with inFlight := a.inFlight.eraseIdx j } := by simp only [act, hr]
    have hcreated : (finish unsupported a r value dbs).state.editorTabsCreated = a.state.editorTabsCreated := by
      cases dbs <;> rfl
    have htabs := congrArg List.length (tabs_finish unsupported a r value dbs)
    rw [List.length_modify] at htabs
    rw [hact]
    exact Counted.quiet (h.of_same (.inl rfl) rfl (Nat.le_of_eq hcreated.symm)) (htabs.trans hlength)

theorem counted_step {b : App} {e : Event} (h : Counted a) (hinv : Inv False a front) (hsettled : Settled a e)
    (hstep : step unsupported a e b) : Counted b := by
  obtain ⟨hok, rfl⟩ := hstep
  have hlength : a.state.editorTabs.length = a.prevTabsLen := hinv.length.trans hinv.counted.symm
  -- a step that leaves the runs and the statements alone
  have hkeeps : ∀ payload, (reducer unsupported a.state payload).editorTabsCreated = a.state.editorTabsCreated →
      (reducer unsupported a.state payload).editorTabs.length = a.state.editorTabs.length →
      Counted (effects unsupported (a.dispatch unsupported payload)) := fun payload hcreated htabs =>
    Counted.quiet (h.of_same (.inl rfl) rfl (Nat.le_of_eq hcreated.symm)) (htabs.trans hlength)
  cases e with
  | editContent content => exact hkeeps _ rfl (List.length_modify _ _ _)
  | clickTab i =>
    rw [act]
    split
    · exact counted_newTab h hinv _
    · exact hkeeps (.editorSelectTab i) rfl rfl
  | closeTab i => exact counted_closeTab h hinv hok hsettled
  | run content =>
    obtain ⟨hran, hgenerated, hcreated, htabs, hprev⟩ := @launch_explicit unsupported a content a.state.selectedDb
      a.state.editorSelectedTab
    exact Counted.quiet (h.of_same hran hgenerated (Nat.le_of_eq hcreated.symm))
      (htabs.trans (hlength.trans hprev.symm))
  | installModule m => exact counted_generate h hinv (installContent m)
  | uninstallModule m => exact counted_generate h hinv (uninstallContent m)
  | selectTable t => exact counted_generate h hinv (tabContent t)
  | selectDb db =>
    refine hkeeps (.selectDb db) rfl ?_
    simp only [reducer]
    split
    · rfl
    · exact List.length_map _
  | initialLoad token dbs oldest => exact hkeeps (.initialLoad token dbs oldest) rfl rfl
  | newDb db dbs => exact hkeeps (.newDb db dbs) rfl (List.length_map _)
  | disconnectDb dbs => exact hkeeps (.disconnectDb dbs) rfl rfl
  | finished j value dbs => exact counted_finished h hlength j value dbs

theorem counted_initial (content : String) : Counted (initial content) :=
  ⟨⟨List.nodup_nil, List.forall_mem_nil _, List.nodup_nil⟩, List.forall_mem_nil _⟩

theorem forced_once {content : String} (h : Runs.RunFrom (· = initial content) (step unsupported) Settled a) : Once a := by
  have hboth : Counted a ∧ ∃ front, Inv False a front := by
    refine h.invariant (I := fun a => Counted a ∧ ∃ front, Inv False a front) ?_ ?_
    · rintro _ rfl
      exact ⟨counted_initial content, _, inv_initial content⟩
    · rintro s e t ⟨hcounted, front, hinv⟩ hsettled hstep
      exact ⟨counted_step hcounted hinv hsettled hstep, hinv.step False.elim hstep⟩
  exact hboth.1.toOnce

end Steps

section Stale

def old : Db := ⟨"old", "0.0.1", false⟩

-- a version below the oldest one
def below : Option String → String → Bool := fun oldest version => oldest == some "0.1.0" && version == "0.0.1"

def asked : App :=
  [Event.initialLoad "token" [old, first] "0.1.0", .selectDb old, .installModule "aws_vpc", .clickTab 2,
    .editContent "DELETE FROM vpc;", .selectDb first, .clickTab 0].foldl
    (fun a e => effects below (act below a e)) (initial "")

theorem run_asked (ok : App → Event → Prop) (hok : ∀ a e, (∀ i, e ≠ .closeTab i) → ok a e) :
    Runs.RunFrom (· = initial "") (step below) ok asked := by
  refine .next (.next (.next (.next (.next (.next (.next (.start rfl)
    (a := .initialLoad "token" [old, first] "0.1.0") (hok _ _ nofun) ⟨rfl, rfl⟩)
    (a := .selectDb old) (hok _ _ nofun) ⟨rfl, rfl⟩)
    (a := .installModule "aws_vpc") (hok _ _ nofun) ⟨rfl, rfl⟩)
    (a := .clickTab 2) (hok _ _ nofun) ⟨by decide, rfl⟩)
    (a := .editContent "DELETE FROM vpc;") (hok _ _ nofun) ⟨rfl, rfl⟩)
    (a := .selectDb first) (hok _ _ nofun) ⟨rfl, rfl⟩)
    (a := .clickTab 0) (hok _ _ nofun) ⟨by decide, rfl⟩

theorem forced_once_asked : Once asked :=
  forced_once (run_asked Settled fun _ e he => by
    cases e with
    | closeTab i => exact absurd rfl (he i)
    | _ => trivial)

def closed : App := effects below (act below asked (.closeTab 0))

-- the run of the installation was refused, and closing the first tab runs what the user typed
theorem close_runs_content : ¬ ∀ a, Runs.RunFrom (· = initial "") (step below) (fun _ _ => True) a → Once a := by
  intro h
  have hstep : step below asked (.closeTab 0) closed := ⟨by decide, by rw [closed]⟩
  have hrun := (run_asked (fun _ _ => True) fun _ _ _ => trivial).next trivial hstep
  have hran : (⟨.forced, .query 2, "DELETE FROM vpc;"⟩ : Ran) ∈ closed.ran := by decide +kernel
  have hnever : (Title.query 2, "DELETE FROM vpc;") ∉ closed.generated := by decide +kernel
  exact hnever ((h closed hrun).own _ hran rfl)

end Stale

end Iasql.EditorTabs
