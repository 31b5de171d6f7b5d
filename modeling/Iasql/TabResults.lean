import Iasql.Calculus.Runs
import Iasql.EditorTabs
import Mathlib.Data.List.InsertIdx

namespace Iasql.EditorTabs

section Lists

variable {α β : Type} {xs ys : List α} {i : Nat}

theorem modify_append (f : α → α) (h : i < xs.length) : (xs ++ ys).modify i f = xs.modify i f ++ ys := by
  induction xs generalizing i with
  | nil => cases h
  | cons x xs ih =>
    cases i with
    | zero => rfl
    | succ i => rw [List.cons_append, List.modify_succ_cons, List.modify_succ_cons, ih (Nat.lt_of_succ_lt_succ h),
        List.cons_append]

theorem map_modify {f : α → α} {g : β → β} {k : α → β} (h : ∀ x, k (f x) = g (k x)) :
    (xs.modify i f).map k = (xs.map k).modify i g := by
  induction xs generalizing i with
  | nil => rw [List.modify_nil, List.map_nil, List.modify_nil]
  | cons x xs ih =>
    cases i with
    | zero => rw [List.modify_zero_cons, List.map_cons, h, List.map_cons, List.modify_zero_cons]
    | succ i => rw [List.modify_succ_cons, List.map_cons, ih, List.map_cons, List.modify_succ_cons]

theorem map_modify_same {f : α → α} {k : α → β} (h : ∀ x, k (f x) = k x) : (xs.modify i f).map k = xs.map k := by
  have hmodify : (xs.modify i f).map k = (xs.map k).modify i id := map_modify h
  rw [hmodify, List.modify_id]

end Lists

section Shape

abbrev Key := Title × Bool

def Tab.key (t : Tab) : Key := (t.title, t.isRunning)

-- the tabs before the last by title and running flag, with the runs whose answers are awaited
structure Shape (keys : List Key) (created : Nat) (inFlight : List Run) : Prop where
  distinct : (keys.map Prod.fst).Nodup
  named : ∀ title ∈ keys.map Prod.fst, title ≠ .plus ∧ ∀ n, title = .query n → n < created
  placed : ∀ r ∈ inFlight, keys[r.tabIdx]? = some (r.launchedFrom, true)
  apart : (inFlight.map Run.tabIdx).Nodup
  flagged : ∀ i title, keys[i]? = some (title, true) → i ∈ inFlight.map Run.tabIdx

variable {keys : List Key} {created i : Nat} {inFlight : List Run} {title : Title}

theorem Shape.launch (h : Shape keys created inFlight) (database : String) (hidle : keys[i]? = some (title, false)) :
    Shape (keys.modify i fun k => (k.1, true)) created (inFlight ++ [⟨i, database, title⟩]) := by
  have htitles : (keys.modify i fun k => (k.1, true)).map Prod.fst = keys.map Prod.fst :=
    map_modify_same fun _ => rfl
  have hnew : i ∉ inFlight.map Run.tabIdx := by
    intro hmem
    obtain ⟨r, hr, rfl⟩ := List.mem_map.mp hmem
    exact absurd ((h.placed r hr).symm.trans hidle) (by simp)
  refine ⟨htitles ▸ h.distinct, htitles ▸ h.named, ?_, ?_, ?_⟩
  · intro r hr
    rcases List.mem_append.mp hr with hr | hr
    · have hne : i ≠ r.tabIdx := fun heq => hnew (heq ▸ List.mem_map_of_mem hr)
      rw [List.getElem?_modify_ne _ _ hne]
      exact h.placed r hr
    · rw [List.mem_singleton.mp hr, List.getElem?_modify_eq, hidle]
      rfl
  · rw [List.map_append]
    exact h.apart.append (List.nodup_singleton i) (by simpa using hnew)
  · intro j t hj
    rw [List.map_append, List.mem_append]
    by_cases hij : i = j
    · exact .inr (by simp [hij])
    · rw [List.getElem?_modify_ne _ _ hij] at hj
      exact .inl (h.flagged j t hj)

theorem Shape.finish {j : Nat} {r : Run} (h : Shape keys created inFlight) (hr : inFlight[j]? = some r) :
    Shape (keys.modify r.tabIdx fun k => (k.1, false)) created (inFlight.eraseIdx j) := by
  have htitles : (keys.modify r.tabIdx fun k => (k.1, false)).map Prod.fst = keys.map Prod.fst :=
    map_modify_same fun _ => rfl
  have hothers : ∀ r' ∈ inFlight.eraseIdx j, r'.tabIdx ≠ r.tabIdx := by
    intro r' hr' heq
    obtain ⟨k, hk, hkj⟩ := List.mem_eraseIdx_iff_getElem?.mp hr'
    obtain ⟨hjlt, hjr⟩ := List.getElem?_eq_some_iff.mp hr
    obtain ⟨hklt, hkr⟩ := List.getElem?_eq_some_iff.mp hkj
    have hkmap : k < (inFlight.map Run.tabIdx).length := by simpa using hklt
    have hjmap : j < (inFlight.map Run.tabIdx).length := by simpa using hjlt
    refine hk ((@List.Nodup.getElem_inj_iff _ _ h.apart k hkmap j hjmap).mp ?_)
    rw [List.getElem_map, List.getElem_map, hkr, hjr, heq]
  refine ⟨htitles ▸ h.distinct, htitles ▸ h.named, ?_, ?_, ?_⟩
  · intro r' hr'
    rw [List.getElem?_modify_ne _ _ (hothers r' hr').symm]
    exact h.placed r' (List.mem_of_mem_eraseIdx hr')
  · rw [← List.eraseIdx_map]
    exact h.apart.eraseIdx j
  · intro i title hi
    by_cases hri : r.tabIdx = i
    · rw [hri, List.getElem?_modify_eq] at hi
      obtain ⟨k, -, hk⟩ := Option.map_eq_some_iff.mp hi
      cases hk
    · rw [List.getElem?_modify_ne _ _ hri] at hi
      obtain ⟨r', hr', rfl⟩ := List.mem_map.mp (h.flagged i title hi)
      refine List.mem_map_of_mem (List.mem_eraseIdx_iff_getElem?.mpr ?_)
      obtain ⟨k, hk⟩ := List.mem_iff_getElem?.mp hr'
      refine ⟨k, ?_, hk⟩
      rintro rfl
      exact hri (congrArg Run.tabIdx (Option.some.inj (hr.symm.trans hk)))

theorem Shape.add (h : Shape keys created inFlight) :
    Shape (keys ++ [(.query created, false)]) (created + 1) inFlight := by
  have hfresh : Title.query created ∉ keys.map Prod.fst := fun hmem =>
    Nat.lt_irrefl created ((h.named _ hmem).2 created rfl)
  refine ⟨?_, ?_, ?_, h.apart, ?_⟩
  · rw [List.map_append]
    exact h.distinct.append (List.nodup_singleton _) (by simpa using hfresh)
  · intro title htitle
    rw [List.map_append, List.mem_append] at htitle
    rcases htitle with htitle | htitle
    · exact ⟨(h.named title htitle).1, fun n hn => Nat.lt_succ_of_lt ((h.named title htitle).2 n hn)⟩
    · rw [List.mem_singleton.mp htitle]
      exact ⟨nofun, fun n hn => by cases hn; exact created.lt_succ_self⟩
  · intro r hr
    have hplaced := h.placed r hr
    rwa [List.getElem?_append_left (List.getElem?_eq_some_iff.mp hplaced).1]
  · intro i title hi
    rcases List.getElem?_append.symm.trans hi with hi
    split at hi
    · exact h.flagged i title hi
    · obtain hmem := List.mem_of_getElem? hi
      cases List.mem_singleton.mp hmem

-- no run is awaited while no tab runs
theorem Shape.none_awaited (h : Shape keys created inFlight) (hidle : ∀ k ∈ keys, k.2 = false) : inFlight = [] := by
  refine List.eq_nil_iff_forall_not_mem.mpr fun r hr => ?_
  cases hidle _ (List.mem_of_getElem? (h.placed r hr))

theorem Shape.close (h : Shape keys created inFlight) (hidle : ∀ k ∈ keys, k.2 = false) (i : Nat) :
    Shape (keys.eraseIdx i) created inFlight := by
  obtain rfl := h.none_awaited hidle
  refine ⟨?_, ?_, List.forall_mem_nil _, List.nodup_nil, ?_⟩
  · rw [← List.eraseIdx_map]
    exact h.distinct.eraseIdx i
  · intro title htitle
    rw [← List.eraseIdx_map] at htitle
    exact h.named title (List.mem_of_mem_eraseIdx htitle)
  · intro j title hj
    cases hidle _ (List.mem_of_mem_eraseIdx (List.mem_of_getElem? hj))

end Shape

section Launch

variable (unsupported : Option String → String → Bool)

-- a run is launched, or refused and nothing changes
theorem launch_cases (a : App) (cause : Cause) (content : String) (db : Option Db) (tabIdx : Nat) :
    launch unsupported a cause content db tabIdx = a ∨ ∃ runningDb tab, db = some runningDb ∧
      runningDb.isUnsupported = false ∧ a.state.editorTabs[tabIdx]? = some tab ∧
      launch unsupported a cause content db tabIdx = launched unsupported a cause content runningDb tab tabIdx := by
  cases db with
  | none => exact .inl rfl
  | some runningDb =>
    cases htab : a.state.editorTabs[tabIdx]? with
    | none =>
      left
      simp only [launch, htab]
    | some tab =>
      cases hunsupported : runningDb.isUnsupported with
      | true =>
        left
        simp only [launch, htab, hunsupported, if_true]
      | false =>
        refine .inr ⟨runningDb, tab, rfl, hunsupported, rfl, ?_⟩
        simp only [launch, htab, hunsupported, Bool.false_eq_true, if_false]

end Launch

section Fit

-- a result is of its own tab, and where that is followed of the selected database
def Shown (followed : Prop) (front : List Tab) (selectedDb : Option Db) : Prop :=
  ∀ t ∈ front, ∀ q, t.queryRes = some q → q.launchedFrom = t.title ∧
    (followed → ∀ db, selectedDb = some db → q.database = db.dbAlias)

-- before the effects of a step have run
structure Fit (followed : Prop) (a : App) (front : List Tab) : Prop where
  tabs : a.state.editorTabs = front ++ [plusTab]
  nonempty : 0 < front.length
  shape : Shape (front.map Tab.key) a.state.editorTabsCreated a.inFlight
  shown : Shown followed front a.state.selectedDb

structure Inv (followed : Prop) (a : App) (front : List Tab) : Prop extends Fit followed a front where
  selected : a.state.editorSelectedTab < front.length
  counted : a.prevTabsLen = front.length + 1

variable {unsupported : Option String → String → Bool} {followed : Prop} {a : App} {front : List Tab} {i : Nat}

theorem Fit.getElem? (h : Fit followed a front) (hi : i < front.length) : a.state.editorTabs[i]? = front[i]? := by
  rw [h.tabs, List.getElem?_append_left hi]

theorem Fit.length (h : Fit followed a front) : a.state.editorTabs.length = front.length + 1 := by
  rw [h.tabs, List.length_append, List.length_singleton]

theorem shown_of_results {front' : List Tab} {selectedDb : Option Db} (h : Shown followed front selectedDb)
    (hresults : ∀ t' ∈ front', ∀ q, t'.queryRes = some q → ∃ t ∈ front, t.title = t'.title ∧ t.queryRes = some q) :
    Shown followed front' selectedDb := by
  intro t' ht' q hq
  obtain ⟨t, ht, htitle, htq⟩ := hresults t' ht' q hq
  obtain ⟨hfrom, hdb⟩ := h t ht q htq
  exact ⟨hfrom.trans htitle, hdb⟩

-- a change to one tab that leaves its title and its result alone
theorem shown_modify {selectedDb : Option Db} {f : Tab → Tab} (h : Shown followed front selectedDb)
    (htitle : ∀ t, (f t).title = t.title) (hres : ∀ t, (f t).queryRes = t.queryRes) :
    Shown followed (front.modify i f) selectedDb := by
  refine shown_of_results h fun t' ht' q hq => ?_
  obtain ⟨j, hj⟩ := List.mem_iff_getElem?.mp ht'
  rw [List.getElem?_modify] at hj
  obtain ⟨t, ht, rfl⟩ := Option.map_eq_some_iff.mp hj
  refine ⟨t, List.mem_of_getElem? ht, ?_⟩
  split at hq
  · next heq => exact ⟨by rw [if_pos heq, htitle], (hres t).symm.trans hq⟩
  · next heq => exact ⟨by rw [if_neg heq], hq⟩

theorem Fit.launch (unsupported : Option String → String → Bool) (h : Fit followed a front) (hi : i < front.length)
    (hidle : ∀ t, front[i]? = some t → t.isRunning = false) (cause : Cause) (content : String) (db : Option Db) : ∃ front', Fit followed (launch unsupported a cause content db i) front' ∧
      front'.length = front.length ∧ (launch unsupported a cause content db i).prevTabsLen = a.prevTabsLen ∧
      (launch unsupported a cause content db i).state.editorSelectedTab = a.state.editorSelectedTab := by
  rcases launch_cases unsupported a cause content db i with heq | ⟨runningDb, tab, -, -, htab, heq⟩
  · rw [heq]
    exact ⟨front, h, rfl, rfl, rfl⟩
  · rw [heq]
    rw [h.getElem? hi] at htab
    refine ⟨front.modify i fun t => { t with isRunning := true }, ⟨?_, ?_, ?_, ?_⟩, List.length_modify _ _ _, rfl, rfl⟩
    · have htabs := congrArg (fun tabs => tabs.modify i fun t : Tab => { t with isRunning := true }) h.tabs
      exact htabs.trans (modify_append _ hi)
    · rw [List.length_modify]
      exact h.nonempty
    · have hkeys : (front.modify i fun t => { t with isRunning := true }).map Tab.key =
          (front.map Tab.key).modify i fun k => (k.1, true) := map_modify fun _ => rfl
      rw [hkeys]
      refine h.shape.launch runningDb.dbAlias ?_
      rw [List.getElem?_map, htab, Option.map_some, Tab.key, hidle tab htab]
    · exact shown_modify h.shown (fun _ => rfl) fun _ => rfl

theorem Fit.selectTab (unsupported : Option String → String → Bool) (h : Fit followed a front) (hi : i < front.length)
    (hidle : ∀ t, front[i]? = some t → t.isRunning = false) (forceRun : Bool) : ∃ front', Fit followed (selectTab unsupported a forceRun i) front' ∧ front'.length = front.length ∧
      (selectTab unsupported a forceRun i).state.editorSelectedTab = i := by
  rw [EditorTabs.selectTab]
  split
  · obtain ⟨front', hfit, hlength, -, -⟩ := h.launch unsupported hi hidle .forced (contentAt a i)
      a.state.selectedDb
    exact ⟨front', ⟨hfit.tabs, hfit.nonempty, hfit.shape, hfit.shown⟩, hlength, rfl⟩
  · exact ⟨front, ⟨h.tabs, h.nonempty, h.shape, h.shown⟩, rfl, rfl⟩

-- the tab before the last is selected, and its content run where that is forced
theorem Fit.effects (h : Fit followed a front)
    (hselected : a.prevTabsLen = front.length + 1 → a.state.editorSelectedTab < front.length)
    (hidle : a.prevTabsLen ≠ front.length + 1 → ∀ t, front.getLast? = some t → t.isRunning = false) :
    ∃ front', Inv followed (effects unsupported a) front' := by
  have hnonempty := h.nonempty
  rw [EditorTabs.effects, h.length]
  split
  · next heq => exact ⟨front, h, hselected heq.symm, heq.symm⟩
  · next hne =>
    have hindex : (if 2 ≤ front.length + 1 then front.length + 1 - 2 else 0) = front.length - 1 := by
      split <;> omega
    rw [hindex]
    obtain ⟨front', hfit, hlength, hselect⟩ := h.selectTab unsupported (i := front.length - 1) (by omega)
      (fun t ht => hidle (Ne.symm hne) t (List.getLast?_eq_getElem?.trans ht)) a.state.forceRun
    refine ⟨front', ⟨hfit.tabs, hfit.nonempty, hfit.shape, hfit.shown⟩, ?_, ?_⟩
    · show (EditorTabs.selectTab _ _ _ _).state.editorSelectedTab < _
      rw [hselect, hlength]
      omega
    · rw [hlength]

end Fit

section Steps

variable {unsupported : Option String → String → Bool} {followed : Prop} {a : App} {front : List Tab}

-- the condition of a step: an answer comes while its database is still selected, and the results that
-- are shown when a database is disconnected are of the one that is selected next
def Current (a : App) : Event → Prop
  | .finished i _ _ => ∀ r, a.inFlight[i]? = some r → ∀ db, a.state.selectedDb = some db → r.database = db.dbAlias
  | .disconnectDb databases => ∀ db, databases.head? = some db → ∀ t ∈ a.state.editorTabs, ∀ q, t.queryRes = some q →
      q.database = db.dbAlias
  | _ => True

theorem shown_clear (front : List Tab) (selectedDb : Option Db) : Shown followed (clearResults front) selectedDb := by
  intro t ht q hq
  obtain ⟨t', -, rfl⟩ := List.mem_map.mp ht
  cases hq

theorem key_clear (front : List Tab) : (clearResults front).map Tab.key = front.map Tab.key := by
  rw [clearResults, List.map_map]
  rfl

-- what is between an event and the effects that follow it
structure Ready (followed : Prop) (a : App) (front : List Tab) : Prop where
  fit : Fit followed a front
  selected : a.prevTabsLen = front.length + 1 → a.state.editorSelectedTab < front.length
  idle : a.prevTabsLen ≠ front.length + 1 → ∀ t, front.getLast? = some t → t.isRunning = false

theorem Inv.ready_of_length {b : App} {front' : List Tab} (h : Inv followed a front) (hfit : Fit followed b front')
    (hlength : front'.length = front.length) (hprev : b.prevTabsLen = a.prevTabsLen)
    (hselected : b.state.editorSelectedTab < front.length) : Ready followed b front' := by
  refine ⟨hfit, fun _ => hlength ▸ hselected, fun hne => absurd ?_ hne⟩
  rw [hprev, h.counted, hlength]

theorem Inv.addTab (h : Inv followed a front) (content : String) :
    Fit followed { a with state := a.state.addTab content }
      (front ++ [⟨.query a.state.editorTabsCreated, content, none, true, false⟩]) := by
  refine ⟨?_, ?_, ?_, ?_⟩
  · show a.state.editorTabs.dropLast ++ _ :: a.state.editorTabs.getLast?.toList = _
    rw [h.tabs, List.dropLast_concat, List.getLast?_concat]
    simp
  · simp
  · rw [List.map_append]
    exact h.shape.add
  · refine shown_of_results h.shown fun t ht q hq => ?_
    rcases List.mem_append.mp ht with ht | ht
    · exact ⟨t, ht, rfl, hq⟩
    · rw [List.mem_singleton.mp ht] at hq
      cases hq

theorem Inv.ready_add (h : Inv followed a front) {b : App} {content : String}
    (hfit : Fit followed b (front ++ [⟨.query a.state.editorTabsCreated, content, none, true, false⟩]))
    (hprev : b.prevTabsLen = a.prevTabsLen) :
    Ready followed b (front ++ [⟨.query a.state.editorTabsCreated, content, none, true, false⟩]) := by
  refine ⟨hfit, fun heq => ?_, fun _ t ht => ?_⟩
  · rw [hprev, h.counted, List.length_append, List.length_singleton] at heq
    omega
  · rw [List.getLast?_concat] at ht
    cases ht
    rfl

theorem Inv.ready_generate (h : Inv followed a front) (content : String) :
    Ready followed { a with
        state := { a.state.addTab content with forceRun := true }
        generated := a.generated ++ [(.query a.state.editorTabsCreated, content)] }
      (front ++ [⟨.query a.state.editorTabsCreated, content, none, true, false⟩]) := by
  have hadd := h.addTab content
  exact h.ready_add ⟨hadd.tabs, hadd.nonempty, hadd.shape, hadd.shown⟩ rfl

theorem Inv.ready_editContent (h : Inv followed a front) (content : String) :
    ∃ front', Ready followed (a.dispatch unsupported (.editContent content)) front' := by
  refine ⟨front.modify a.state.editorSelectedTab fun t => { t with content },
    h.ready_of_length ⟨?_, ?_, ?_, ?_⟩ (List.length_modify _ _ _) rfl h.selected⟩
  · have htabs := congrArg (fun tabs => tabs.modify a.state.editorSelectedTab fun t : Tab => { t with content }) h.tabs
    exact htabs.trans (modify_append _ h.selected)
  · rw [List.length_modify]
    exact h.nonempty
  · have hkeys : (front.modify a.state.editorSelectedTab fun t => { t with content }).map Tab.key = front.map Tab.key :=
      map_modify_same fun _ => rfl
    rw [hkeys]
    exact h.shape
  · exact shown_modify h.shown (fun _ => rfl) fun _ => rfl

theorem Inv.ready_clickTab (h : Inv followed a front) {i : Nat} (hi : i < a.state.editorTabs.length) :
    ∃ front', Ready followed (act unsupported a (.clickTab i)) front' := by
  rw [h.length] at hi
  rw [act, h.length]
  split
  · have hadd := h.addTab ""
    exact ⟨_, h.ready_add ⟨hadd.tabs, hadd.nonempty, hadd.shape, hadd.shown⟩ rfl⟩
  · next hne =>
    have hlt : i < front.length := by omega
    exact ⟨front, h.ready_of_length ⟨h.tabs, h.nonempty, h.shape, h.shown⟩ rfl rfl hlt⟩

theorem Inv.ready_closeTab (h : Inv followed a front) {i : Nat} (hok : allowed a (.closeTab i) = true) :
    ∃ front', Ready followed (act unsupported a (.closeTab i)) front' := by
  simp only [allowed, Bool.and_eq_true, beq_iff_eq, decide_eq_true_eq, Bool.not_eq_true', h.length] at hok
  obtain ⟨⟨⟨rfl, -⟩, hlong⟩, hnone⟩ := hok
  have hidle : ∀ t ∈ front, t.isRunning = false := by
    intro t ht
    have hany := List.any_eq_false.mp hnone t (h.tabs ▸ List.mem_append_left _ ht)
    exact Bool.not_eq_true _ ▸ hany
  have hlength : (front.eraseIdx a.state.editorSelectedTab).length = front.length - 1 :=
    List.length_eraseIdx_of_lt h.selected
  refine ⟨front.eraseIdx a.state.editorSelectedTab, ⟨?_, ?_, ?_, ?_⟩, ?_, ?_⟩
  · have htabs := congrArg (fun tabs => tabs.eraseIdx a.state.editorSelectedTab) h.tabs
    exact htabs.trans (List.eraseIdx_append_of_lt_length h.selected _)
  · omega
  · rw [← List.eraseIdx_map]
    refine h.shape.close (fun k hk => ?_) _
    obtain ⟨t, ht, rfl⟩ := List.mem_map.mp hk
    exact hidle t ht
  · exact shown_of_results h.shown fun t ht q hq => ⟨t, List.mem_of_mem_eraseIdx ht, rfl, hq⟩
  · intro heq
    have hcounted : a.prevTabsLen = front.length + 1 := h.counted
    have hprev : a.prevTabsLen = (front.eraseIdx a.state.editorSelectedTab).length + 1 := heq
    omega
  · intro _ t ht
    exact hidle t (List.mem_of_mem_eraseIdx (List.mem_of_getLast? ht))

theorem Inv.ready_run (h : Inv followed a front) {content : String} (hok : allowed a (.run content) = true) :
    ∃ front', Ready followed (act unsupported a (.run content)) front' := by
  have hidle : ∀ t, front[a.state.editorSelectedTab]? = some t → t.isRunning = false := by
    intro t ht
    simp only [allowed, Bool.and_eq_true, Bool.not_eq_true', runsAt, h.getElem? h.selected, ht] at hok
    exact hok.2
  obtain ⟨front', hfit, hlength, hprev, hselected⟩ := h.launch unsupported h.selected hidle .explicit
    content a.state.selectedDb
  exact ⟨front', h.ready_of_length hfit hlength hprev (hselected ▸ h.selected)⟩

theorem Inv.ready_selectDb (h : Inv followed a front) (db : Db) : ∃ front', Ready followed (act unsupported a (.selectDb db)) front' := by
  by_cases heq : some db.dbAlias = a.state.selectedDb.map Db.dbAlias
  · obtain ⟨old, hold, halias⟩ := Option.map_eq_some_iff.mp heq.symm
    have htabs : (act unsupported a (.selectDb db)).state.editorTabs = a.state.editorTabs := if_pos heq
    refine ⟨front, h.ready_of_length ⟨htabs.trans h.tabs, h.nonempty, h.shape, ?_⟩ rfl rfl h.selected⟩
    intro t ht q hq
    obtain ⟨hfrom, hdb⟩ := h.shown t ht q hq
    refine ⟨hfrom, fun hfollowed new hnew => ?_⟩
    cases hnew
    exact (hdb hfollowed old hold).trans halias
  · have htabs : (act unsupported a (.selectDb db)).state.editorTabs = clearResults front ++ [plusTab] := by
      refine (if_neg heq).trans ?_
      rw [h.tabs, clearResults, List.map_append]
      rfl
    have hlength : (clearResults front).length = front.length := List.length_map _
    refine ⟨clearResults front, h.ready_of_length ⟨htabs, hlength.symm ▸ h.nonempty, ?_, shown_clear front _⟩ hlength
      rfl h.selected⟩
    rw [key_clear]
    exact h.shape

theorem Inv.ready_newDb (h : Inv followed a front) (db : String) (dbs : List Db) :
    ∃ front', Ready followed (act unsupported a (.newDb db dbs)) front' := by
  have htabs : (act unsupported a (.newDb db dbs)).state.editorTabs = clearResults front ++ [plusTab] := by
    show clearResults a.state.editorTabs = _
    rw [h.tabs, clearResults, List.map_append]
    rfl
  have hlength : (clearResults front).length = front.length := List.length_map _
  refine ⟨clearResults front, h.ready_of_length ⟨htabs, hlength.symm ▸ h.nonempty, ?_, shown_clear front _⟩ hlength
    rfl h.selected⟩
  rw [key_clear]
  exact h.shape

theorem Inv.ready_disconnectDb (h : Inv followed a front) {dbs : List Db} (hcurrent : followed → Current a (.disconnectDb dbs)) :
    ∃ front', Ready followed (act unsupported a (.disconnectDb dbs)) front' := by
  refine ⟨front, h.ready_of_length ⟨h.tabs, h.nonempty, h.shape, fun t ht q hq => ?_⟩ rfl rfl h.selected⟩
  refine ⟨(h.shown t ht q hq).1, fun hfollowed db hdb => ?_⟩
  exact hcurrent hfollowed db hdb t (h.tabs ▸ List.mem_append_left _ ht) q hq

-- the tab of a run that has come back
def Tab.finished (q : QueryRes) (t : Tab) : Tab := { t with isRunning := false, queryRes := some q }

theorem tabs_finish (unsupported : Option String → String → Bool) (a : App) (r : Run) (value : String)
    (dbs : Option (List Db)) : (finish unsupported a r value dbs).state.editorTabs =
      a.state.editorTabs.modify r.tabIdx (Tab.finished ⟨value, r.database, r.launchedFrom⟩) := by
  have htwice : (a.state.editorTabs.modify r.tabIdx fun t => { t with isRunning := false }).modify r.tabIdx
      (fun t => { t with queryRes := some ⟨value, r.database, r.launchedFrom⟩ }) =
      a.state.editorTabs.modify r.tabIdx (Tab.finished ⟨value, r.database, r.launchedFrom⟩) := by
    rw [List.modify_modify_eq]
    rfl
  cases dbs with
  | none => exact htwice
  | some dbs => exact htwice

-- the database that is selected after an answer has the name of the one before
theorem selectedDb_finish {r : Run} {value : String} {dbs : Option (List Db)} {db : Db}
    (h : (finish unsupported a r value dbs).state.selectedDb = some db) :
    ∃ old, a.state.selectedDb = some old ∧ old.dbAlias = db.dbAlias := by
  cases dbs with
  | none => exact ⟨db, h, rfl⟩
  | some dbs =>
    have hfound := List.find?_some h
    obtain ⟨old, hold, halias⟩ := Option.map_eq_some_iff.mp (of_decide_eq_true hfound).symm
    exact ⟨old, hold, halias⟩

theorem Inv.place (h : Inv followed a front) {r : Run} (hr : r ∈ a.inFlight) :
    ∃ t, front[r.tabIdx]? = some t ∧ t.title = r.launchedFrom ∧ t.isRunning = true := by
  have hplaced := h.shape.placed r hr
  rw [List.getElem?_map] at hplaced
  obtain ⟨t, ht, hkey⟩ := Option.map_eq_some_iff.mp hplaced
  obtain ⟨htitle, hrunning⟩ := Prod.mk.inj hkey
  exact ⟨t, ht, htitle, hrunning⟩

theorem Inv.ready_finished (h : Inv followed a front) {j : Nat} {value : String} {dbs : Option (List Db)}
    (hcurrent : followed → Current a (.finished j value dbs)) : ∃ front', Ready followed (act unsupported a (.finished j value dbs)) front' := by
  cases hr : a.inFlight[j]? with
  | none =>
    have hact : act unsupported a (.finished j value dbs) = a := by simp only [act, hr]
    rw [hact]
    exact ⟨front, h.ready_of_length h.toFit rfl rfl h.selected⟩
  | some r =>
    have hact : act unsupported a (.finished j value dbs) =
        { finish unsupported a r value dbs with inFlight := a.inFlight.eraseIdx j } := by simp only [act, hr]
    obtain ⟨t, ht, htitle, -⟩ := h.place (List.mem_of_getElem? hr)
    have hlt := (List.getElem?_eq_some_iff.mp ht).1
    have hcreated : (finish unsupported a r value dbs).state.editorTabsCreated = a.state.editorTabsCreated := by
      cases dbs <;> rfl
    have hselected : (finish unsupported a r value dbs).state.editorSelectedTab = a.state.editorSelectedTab := by
      cases dbs <;> rfl
    rw [hact]
    refine ⟨front.modify r.tabIdx (Tab.finished ⟨value, r.database, r.launchedFrom⟩),
      h.ready_of_length ⟨?_, ?_, ?_, ?_⟩ (List.length_modify _ _ _) rfl (hselected ▸ h.selected)⟩
    · exact (tabs_finish unsupported a r value dbs).trans (h.tabs ▸ modify_append _ hlt)
    · rw [List.length_modify]
      exact h.nonempty
    · have hkeys : (front.modify r.tabIdx (Tab.finished ⟨value, r.database, r.launchedFrom⟩)).map Tab.key =
          (front.map Tab.key).modify r.tabIdx fun k => (k.1, false) := map_modify fun _ => rfl
      rw [hkeys]
      exact hcreated.symm ▸ h.shape.finish hr
    · intro t' ht' q hq
      obtain ⟨i, hi⟩ := List.mem_iff_getElem?.mp ht'
      rw [List.getElem?_modify] at hi
      obtain ⟨t₀, ht₀, rfl⟩ := Option.map_eq_some_iff.mp hi
      split at hq
      · next heq =>
        subst heq
        rw [if_pos rfl]
        obtain rfl := Option.some.inj (ht₀.symm.trans ht)
        cases hq
        refine ⟨htitle.symm, fun hfollowed db hdb => ?_⟩
        obtain ⟨old, hold, halias⟩ := selectedDb_finish hdb
        exact (hcurrent hfollowed r hr old hold).trans halias
      · next hne =>
        rw [if_neg hne]
        obtain ⟨hfrom, hdatabase⟩ := h.shown t₀ (List.mem_of_getElem? ht₀) q hq
        refine ⟨hfrom, fun hfollowed db hdb => ?_⟩
        obtain ⟨old, hold, halias⟩ := selectedDb_finish hdb
        exact (hdatabase hfollowed old hold).trans halias

theorem Inv.ready (unsupported : Option String → String → Bool) (h : Inv followed a front) {e : Event}
    (hok : allowed a e = true) (hcurrent : followed → Current a e) :
    ∃ front', Ready followed (act unsupported a e) front' := by
  cases e with
  | editContent content => exact h.ready_editContent content
  | clickTab i => exact h.ready_clickTab (of_decide_eq_true hok)
  | closeTab i => exact h.ready_closeTab hok
  | run content => exact h.ready_run hok
  | installModule m => exact ⟨_, h.ready_generate (installContent m)⟩
  | uninstallModule m => exact ⟨_, h.ready_generate (uninstallContent m)⟩
  | selectTable t => exact ⟨_, h.ready_generate (tabContent t)⟩
  | selectDb db => exact h.ready_selectDb db
  | initialLoad token dbs oldest =>
    exact ⟨front, h.ready_of_length ⟨h.tabs, h.nonempty, h.shape, h.shown⟩ rfl rfl h.selected⟩
  | newDb db dbs => exact h.ready_newDb db dbs
  | disconnectDb dbs => exact h.ready_disconnectDb hcurrent
  | finished j value dbs => exact h.ready_finished hcurrent

theorem Inv.step {b : App} {e : Event} (h : Inv followed a front) (hcurrent : followed → Current a e) (hstep : step unsupported a e b) :
    ∃ front', Inv followed b front' := by
  obtain ⟨hok, rfl⟩ := hstep
  obtain ⟨front', hready⟩ := h.ready unsupported hok hcurrent
  exact hready.fit.effects hready.selected hready.idle

theorem inv_initial (content : String) : Inv followed (initial content) [⟨.gettingStarted, content, none, true, false⟩] := by
  refine ⟨⟨rfl, Nat.succ_pos 0, ⟨?_, ?_, List.forall_mem_nil _, List.nodup_nil, ?_⟩, ?_⟩, Nat.succ_pos 0, rfl⟩
  · exact List.nodup_singleton _
  · intro title htitle
    rw [List.mem_singleton.mp htitle]
    exact ⟨nofun, nofun⟩
  · intro i title hi
    cases List.mem_singleton.mp (List.mem_of_getElem? hi)
  · intro t ht q hq
    rw [List.mem_singleton.mp ht] at hq
    cases hq

end Steps

section Landing

variable (unsupported : Option String → String → Bool)

structure Landed (a : App) : Prop where
  placed : ∀ r ∈ a.inFlight, ∃ t, a.state.editorTabs[r.tabIdx]? = some t ∧ t.title = r.launchedFrom ∧ t.isRunning = true
  flagged : ∀ t ∈ a.state.editorTabs, t.isRunning = true → ∃ r ∈ a.inFlight, r.launchedFrom = t.title
  titles : (a.state.editorTabs.map Tab.title).Nodup
  stored : ∀ (j : Nat) (r : Run) (value : String) (dbs : Option (List Db)), a.inFlight[j]? = some r →
    ∃ t ∈ (act unsupported a (.finished j value dbs)).state.editorTabs, t.title = r.launchedFrom ∧
      t.isRunning = false ∧ t.queryRes = some ⟨value, r.database, r.launchedFrom⟩
  results : ∀ t ∈ a.state.editorTabs, ∀ q, t.queryRes = some q → q.launchedFrom = t.title
  current : ∀ t ∈ a.state.editorTabs, ∀ q, t.queryRes = some q → ∀ db, a.state.selectedDb = some db →
    q.database = db.dbAlias
  plusLast : ∃ front, a.state.editorTabs = front ++ [plusTab] ∧ ∀ t ∈ front, t.title ≠ .plus

variable {unsupported} {followed : Prop} {a : App} {front : List Tab}

theorem Inv.forall_tabs (h : Inv followed a front) {P : Tab → Prop} (hplus : P plusTab) (hfront : ∀ t ∈ front, P t) :
    ∀ t ∈ a.state.editorTabs, P t := by
  intro t ht
  rw [h.tabs] at ht
  rcases List.mem_append.mp ht with ht | ht
  · exact hfront t ht
  · exact List.mem_singleton.mp ht ▸ hplus

theorem Inv.title_ne_plus (h : Inv followed a front) : ∀ t ∈ front, t.title ≠ .plus := fun t ht =>
  (h.shape.named t.title (by rw [List.map_map]; exact List.mem_map_of_mem ht)).1

theorem Inv.landed (h : Inv True a front) : Landed unsupported a := by
  refine ⟨fun r hr => ?_, h.forall_tabs nofun fun t ht hrunning => ?_, ?_, fun j r value dbs hr => ?_,
    h.forall_tabs nofun fun t ht q hq => (h.shown t ht q hq).1,
    h.forall_tabs nofun fun t ht q hq => (h.shown t ht q hq).2 trivial, front, h.tabs, h.title_ne_plus⟩
  · obtain ⟨t, ht, htitle, hrunning⟩ := h.place hr
    exact ⟨t, by rw [h.getElem? (List.getElem?_eq_some_iff.mp ht).1, ht], htitle, hrunning⟩
  · obtain ⟨i, hi⟩ := List.mem_iff_getElem?.mp ht
    have hkey : (front.map Tab.key)[i]? = some (t.title, true) := by
      rw [List.getElem?_map, hi, Option.map_some, Tab.key, hrunning]
    obtain ⟨r, hr, rfl⟩ := List.mem_map.mp (h.shape.flagged i t.title hkey)
    obtain ⟨t', ht', htitle, -⟩ := h.place hr
    exact ⟨r, hr, by rw [← htitle, Option.some.inj (ht'.symm.trans hi)]⟩
  · have hdistinct := h.shape.distinct
    rw [List.map_map] at hdistinct
    rw [h.tabs, List.map_append]
    refine hdistinct.append (List.nodup_singleton _) ?_
    intro title htitle hplus
    obtain ⟨t, ht, rfl⟩ := List.mem_map.mp htitle
    exact h.title_ne_plus t ht (List.mem_singleton.mp hplus)
  · obtain ⟨t, ht, htitle, -⟩ := h.place (List.mem_of_getElem? hr)
    have hact : act unsupported a (.finished j value dbs) =
        { finish unsupported a r value dbs with inFlight := a.inFlight.eraseIdx j } := by simp only [act, hr]
    refine ⟨t.finished ⟨value, r.database, r.launchedFrom⟩, ?_, htitle, rfl, rfl⟩
    refine List.mem_of_getElem? (i := r.tabIdx) ?_
    rw [hact]
    show (finish unsupported a r value dbs).state.editorTabs[r.tabIdx]? = _
    rw [tabs_finish, List.getElem?_modify_eq, h.getElem? (List.getElem?_eq_some_iff.mp ht).1, ht]
    rfl

end Landing

section Disconnect

def supported : Option String → String → Bool := fun _ _ => false

def first : Db := ⟨"first", "0.1.0", false⟩

def second : Db := ⟨"second", "0.1.0", false⟩

def queried : App :=
  [Event.initialLoad "token" [first, second] "0.1.0", .selectDb first, .run "SELECT 1;", .finished 0 "1" none].foldl
    (fun a e => effects supported (act supported a e)) (initial "")

theorem run_queried (ok : App → Event → Prop) (hok : ∀ a e, (∀ dbs, e ≠ .disconnectDb dbs) → Current a e → ok a e) :
    Runs.RunFrom (· = initial "") (step supported) ok queried := by
  refine .next (.next (.next (.next (.start rfl) (a := .initialLoad "token" [first, second] "0.1.0") ?_ ⟨rfl, rfl⟩)
    (a := .selectDb first) ?_ ⟨rfl, rfl⟩) (a := .run "SELECT 1;") ?_ ⟨by decide, rfl⟩)
    (a := .finished 0 "1" none) ?_ ⟨by decide, rfl⟩
  · exact hok _ _ nofun trivial
  · exact hok _ _ nofun trivial
  · exact hok _ _ nofun trivial
  · refine hok _ _ nofun ?_
    rintro r hr db hdb
    cases hr
    cases hdb
    rfl

end Disconnect

end Iasql.EditorTabs
