import Iasql.Contexts

namespace Iasql.Contexts

open AwsAccount OrderedMap Runs

section Clones

variable {base : Addr} {h : Heap} {c c' : Fields × Heap} {allModules : List Module}

-- the objects of the modules are there before any context, and empty
structure Pristine (base : Addr) (h : Heap) : Prop where
  empty : ∀ a < base, h.objects a = []
  next : base ≤ h.next

def Declares (base : Addr) (context : List (String × ContextValue)) : Prop :=
  ∀ name addr, (name, .object addr) ∈ context → addr < base

-- what getContext has built so far, from a heap whose next address is start
structure Cloned (base start : Addr) (h : Heap) (c : Fields × Heap) : Prop where
  pristine : Pristine base c.2
  started : start ≤ c.2.next
  fresh : ∀ name addr, find name c.1 = some (.object addr) →
    start ≤ addr ∧ addr < c.2.next ∧ c.2.objects addr = []
  distinct : ∀ name name' addr, find name c.1 = some (.object addr) →
    find name' c.1 = some (.object addr) → name = name'
  kept : ∀ addr < start, c.2.objects addr = h.objects addr

theorem cloned_start (h : Pristine base h') : Cloned base h'.next h' ([], h') where
  pristine := h
  started := Nat.le_refl _
  fresh := fun _ _ h => by cases h
  distinct := fun _ _ _ h => by cases h
  kept := fun _ _ => rfl

theorem Cloned.addField {start : Addr} (hc : Cloned base start h c)
    {name : String} {v : ContextValue} (hv : ∀ addr, v = .object addr → addr < base) :
    Cloned base start h (addField name v c) := by
  cases v with
  | function f =>
    have hfind : ∀ k addr, find k (put name (.function f) c.1) = some (ContextValue.object addr) →
        find k c.1 = some (.object addr) := by
      intro k addr hk
      by_cases hname : k = name
      · subst hname
        rw [find_put_self] at hk
        cases hk
      · rwa [find_put_ne _ _ hname] at hk
    refine ⟨hc.pristine, hc.started, fun k addr hk => hc.fresh k addr (hfind k addr hk), ?_, hc.kept⟩
    exact fun k k' addr hk hk' => hc.distinct k k' addr (hfind k addr hk) (hfind k' addr hk')
  | object addr =>
    have hempty : c.2.objects addr = [] := hc.pristine.empty addr (hv addr rfl)
    have hnext := hc.started
    have hobjects : ∀ a, (cloneDeep c.2 addr).2.objects a =
        if a = c.2.next then [] else c.2.objects a := by
      intro a
      rw [cloneDeep, hempty]
      exact Function.update_apply ..
    have hfind : ∀ k a, find k (put name (.object c.2.next) c.1) = some (ContextValue.object a) →
        k = name ∧ a = c.2.next ∨ k ≠ name ∧ find k c.1 = some (.object a) := by
      intro k a hk
      by_cases hname : k = name
      · subst hname
        rw [find_put_self] at hk
        cases hk
        exact .inl ⟨rfl, rfl⟩
      · rw [find_put_ne _ _ hname] at hk
        exact .inr ⟨hname, hk⟩
    refine ⟨⟨fun a ha => ?_, ?_⟩, ?_, fun k a hk => ?_, fun k k' a hk hk' => ?_, fun a ha => ?_⟩
    · change (cloneDeep c.2 addr).2.objects a = []
      rw [hobjects]
      split
      · rfl
      · exact hc.pristine.empty a ha
    · exact Nat.le_succ_of_le hc.pristine.next
    · exact Nat.le_succ_of_le hnext
    · change start ≤ a ∧ a < c.2.next + 1 ∧ (cloneDeep c.2 addr).2.objects a = []
      rw [hobjects]
      rcases hfind k a hk with ⟨-, rfl⟩ | ⟨-, hk⟩
      · exact ⟨hnext, Nat.lt_succ_self _, if_pos rfl⟩
      · obtain ⟨hlow, hhigh, hnil⟩ := hc.fresh k a hk
        exact ⟨hlow, Nat.lt_succ_of_lt hhigh, by rw [hnil, ite_self]⟩
    · rcases hfind k a hk with ⟨hname, ha⟩ | ⟨-, hold⟩ <;>
        rcases hfind k' a hk' with ⟨hname', ha'⟩ | ⟨-, hold'⟩
      · exact hname.trans hname'.symm
      · exact absurd ha (Nat.ne_of_lt (hc.fresh k' a hold').2.1)
      · exact absurd ha' (Nat.ne_of_lt (hc.fresh k a hold).2.1)
      · exact hc.distinct k k' a hold hold'
    · change (cloneDeep c.2 addr).2.objects a = h.objects a
      have hne : a ≠ c.2.next := Nat.ne_of_lt (Nat.lt_of_lt_of_le ha hnext)
      rw [hobjects, if_neg hne]
      exact hc.kept a ha

theorem Cloned.addModule {start : Addr} (hc : Cloned base start h c)
    {context : List (String × ContextValue)} (hv : Declares base context) :
    Cloned base start h (addModule c context) := by
  induction context generalizing c with
  | nil => exact hc
  | cons p context ih =>
    obtain ⟨name, v⟩ := p
    refine ih (hc.addField fun addr heq => hv name addr ?_) fun k addr hk => hv k addr ?_
    · rw [heq]
      exact List.mem_cons_self
    · exact List.mem_cons_of_mem _ hk

theorem Cloned.getContext {start : Addr} (hc : Cloned base start h c)
    (hmodules : ∀ m ∈ allModules, Declares base m.context) {moduleNames : List String}
    (hget : getContext allModules c moduleNames = .ok c') : Cloned base start h c' := by
  induction moduleNames generalizing c with
  | nil =>
    cases hget
    exact hc
  | cons name moduleNames ih =>
    rw [Contexts.getContext] at hget
    cases hfind : allModules.find? fun m => m.name ++ "@" ++ m.version == name with
    | none =>
      rw [hfind] at hget
      cases hget
    | some m =>
      rw [hfind] at hget
      exact ih (hc.addModule (hmodules m (List.mem_of_find?_eq_some hfind))) hget

end Clones

section Invariant

variable {η ι : Type} {base : Addr} {s : State η ι}

-- what the database has had since the context was made
def State.since (s : State η ι) (c : Context) : List Accounts :=
  (s.past c.orm ++ [s.accounts c.orm]).drop c.opened

def Fits (accounts : List Accounts) (field key : String) : Client → Prop
  | .aws region credentials => field = "awsClient" ∧ region = key ∧
      ∃ a ∈ accounts, ∃ row ∈ a.awsCredentials, row.accessKeyId.isSome = true ∧
        .aws region credentials = awsClientOf region row
  | .ssh credentials => field = "sshClients" ∧ credentials.name = key ∧
      ∃ a ∈ accounts, credentials ∈ a.sshCredentials

-- the region of a client: the one asked for, the default one, or the last resort
def Chosen (accounts : List Accounts) : Option String → String → Prop
  | some selected, region => region = selected
  | none, region => region = "us-east-1" ∨
      ∃ a ∈ accounts, ∃ row ∈ a.awsRegions, row.isDefault = true ∧ row.region = region

def Serves (accounts : List Accounts) (client : Client) : Request → Prop
  | .getAwsClient selected => ∃ region, Chosen accounts selected region ∧
      Fits accounts "awsClient" region client
  | .getSshClient serverName => Fits accounts "sshClients" serverName client

def Stage.Sound (accounts : List Accounts) (request : Request) : Stage → Prop
  | .findRegion => request = .getAwsClient none
  | .findAws region => ∃ selected, request = .getAwsClient selected ∧
      Chosen accounts selected region
  | .findSsh serverName => request = .getSshClient serverName
  | .done client => Serves accounts client request
  | .failed _ => True

def State.Holds (s : State η ι) (c : Context) : Prop :=
  (∃ h, s.handlers h = some c) ∨ ∃ i r, s.calls i = some r ∧ r.context = c

def Context.Owns (c : Context) (field : String) (addr : Addr) : Prop :=
  find field c.fields = some (.object addr)

structure Isolated (base : Addr) (s : State η ι) : Prop where
  pristine : Pristine base s.heap
  fresh : ∀ c, s.Holds c → ∀ field addr, c.Owns field addr → base ≤ addr ∧ addr < s.heap.next
  distinct : ∀ c, s.Holds c → ∀ field field' addr, c.Owns field addr → c.Owns field' addr →
    field = field'
  apart : ∀ c c', s.Holds c → s.Holds c' → ∀ field field' addr, c.Owns field addr →
    c'.Owns field' addr → c = c'
  opened : ∀ c, s.Holds c → c.opened ≤ (s.past c.orm).length
  cached : ∀ c, s.Holds c → ∀ field addr, c.Owns field addr → ∀ key client,
    find key (s.heap.objects addr) = some client → Fits (s.since c) field key client
  sound : ∀ i r, s.calls i = some r → r.stage.Sound (s.since r.context) r.request

variable {accounts accounts' : List Accounts} {field key : String} {client : Client}
  {request : Request} {c : Context}

theorem Fits.mono (h : Fits accounts field key client) (hsub : accounts ⊆ accounts') :
    Fits accounts' field key client := by
  cases client with
  | aws region credentials =>
    obtain ⟨hfield, hregion, a, ha, hrow⟩ := h
    exact ⟨hfield, hregion, a, hsub ha, hrow⟩
  | ssh credentials =>
    obtain ⟨hfield, hname, a, ha, hrow⟩ := h
    exact ⟨hfield, hname, a, hsub ha, hrow⟩

theorem Chosen.mono {selected : Option String} {region : String}
    (h : Chosen accounts selected region) (hsub : accounts ⊆ accounts') :
    Chosen accounts' selected region := by
  cases selected with
  | some selected => exact h
  | none =>
    refine h.imp_right ?_
    rintro ⟨a, ha, hrow⟩
    exact ⟨a, hsub ha, hrow⟩

theorem Stage.Sound.mono {stage : Stage} (h : stage.Sound accounts request)
    (hsub : accounts ⊆ accounts') : stage.Sound accounts' request := by
  cases stage with
  | findAws region =>
    obtain ⟨selected, hrequest, hchosen⟩ := h
    exact ⟨selected, hrequest, hchosen.mono hsub⟩
  | done client =>
    cases request with
    | getAwsClient selected =>
      obtain ⟨region, hchosen, hfits⟩ := h
      exact ⟨region, hchosen.mono hsub, hfits.mono hsub⟩
    | getSshClient serverName => exact Fits.mono h hsub
  | _ => exact h

theorem owns_of_cache {addr : Addr} (h : c.cache field = some addr) : c.Owns field addr := by
  unfold Context.cache at h
  split at h
  · next heq =>
    cases h
    exact heq
  · cases h

theorem current_mem_since (h : Isolated base s) (hc : s.Holds c) : s.accounts c.orm ∈ s.since c := by
  rw [State.since, List.drop_append_of_le_length (h.opened c hc)]
  exact List.mem_append_right _ (List.mem_singleton.mpr rfl)

theorem sound_lookup (h : Isolated base s) (hc : s.Holds c) {waiting : Stage}
    (hserves : ∀ client, Fits (s.since c) field key client → Serves (s.since c) client request)
    (hwaiting : waiting.Sound (s.since c) request) :
    (lookup s.heap c field key waiting).Sound (s.since c) request := by
  unfold lookup
  split
  · trivial
  · next addr haddr =>
    split
    · next client hclient => exact hserves client (h.cached c hc _ _ (owns_of_cache haddr) _ _ hclient)
    · exact hwaiting

theorem sound_begin (h : Isolated base s) (hc : s.Holds c) :
    (begin s.heap c request).Sound (s.since c) request := by
  have hcalls : ∀ (function : String) (stage : Stage), stage.Sound (s.since c) request →
      (c.calls function stage).Sound (s.since c) request := by
    intro function stage hstage
    unfold Context.calls
    split
    · exact hstage
    · trivial
  cases request with
  | getAwsClient selected =>
    cases selected with
    | none => exact hcalls _ _ rfl
    | some region =>
      refine hcalls _ _ (sound_lookup h hc (fun client hfits => ?_) ⟨_, rfl, rfl⟩)
      exact ⟨region, rfl, hfits⟩
  | getSshClient serverName => exact hcalls _ _ (sound_lookup h hc (fun _ hfits => hfits) rfl)

end Invariant

section Steps

variable {η ι : Type} {base : Addr} {s t : State η ι} {i : ι} {r : Running} {allModules : List Module}

theorem Isolated.still (h : Isolated base s) (hheap : t.heap = s.heap)
    (hholds : ∀ c, t.Holds c → s.Holds c) (hsince : ∀ c, s.Holds c → s.since c ⊆ t.since c)
    (hpast : ∀ d, (s.past d).length ≤ (t.past d).length)
    (hsound : ∀ i r, t.calls i = some r → r.stage.Sound (t.since r.context) r.request) :
    Isolated base t where
  pristine := by
    rw [hheap]
    exact h.pristine
  fresh c hc := by
    rw [hheap]
    exact h.fresh c (hholds c hc)
  distinct c hc := h.distinct c (hholds c hc)
  apart c c' hc hc' := h.apart c c' (hholds c hc) (hholds c' hc')
  opened c hc := Nat.le_trans (h.opened c (hholds c hc)) (hpast _)
  cached c hc field addr howns key client hfind := by
    rw [hheap] at hfind
    exact (h.cached c (hholds c hc) field addr howns key client hfind).mono (hsince c (hholds c hc))
  sound := hsound

theorem Isolated.rpc [DecidableEq η] (h : Isolated base s) (hmodules : ∀ m ∈ allModules, Declares base m.context)
    {hd : η} {dbId : DbId} {moduleNames : List String} {fields : Fields} {heap : Heap}
    (hget : getContext allModules ([], s.heap) moduleNames = .ok (fields, heap)) :
    Isolated base { s with
      heap
      handlers := Function.update s.handlers hd
        (some { orm := dbId, fields, opened := (s.past dbId).length }) } := by
  have hcloned := (cloned_start h.pristine).getContext hmodules hget
  let new : Context := { orm := dbId, fields, opened := (s.past dbId).length }
  have hholds : ∀ c, State.Holds { s with
      heap, handlers := Function.update s.handlers hd (some new) } c → c = new ∨ s.Holds c := by
    rintro c (⟨k, hk⟩ | hcall)
    · change Function.update s.handlers hd (some new) k = some c at hk
      rw [Function.update_apply] at hk
      split at hk
      · cases hk
        exact .inl rfl
      · exact .inr (.inl ⟨k, hk⟩)
    · exact .inr (.inr hcall)
  have hapart : ∀ c, s.Holds c → ∀ field field' addr, c.Owns field addr →
      ¬ new.Owns field' addr := by
    intro c hc field field' addr howns hnew
    exact Nat.not_lt_of_le (hcloned.fresh field' addr hnew).1 (h.fresh c hc field addr howns).2
  constructor
  · exact hcloned.pristine
  · intro c hc field addr howns
    rcases hholds c hc with rfl | hc
    · obtain ⟨hlow, hhigh, -⟩ := hcloned.fresh field addr howns
      exact ⟨Nat.le_trans h.pristine.next hlow, hhigh⟩
    · obtain ⟨hlow, hhigh⟩ := h.fresh c hc field addr howns
      exact ⟨hlow, Nat.lt_of_lt_of_le hhigh hcloned.started⟩
  · intro c hc field field' addr howns howns'
    rcases hholds c hc with rfl | hc
    · exact hcloned.distinct field field' addr howns howns'
    · exact h.distinct c hc field field' addr howns howns'
  · intro c c' hc hc' field field' addr howns howns'
    rcases hholds c hc with rfl | hc <;> rcases hholds c' hc' with rfl | hc'
    · rfl
    · exact absurd howns (hapart c' hc' field' field addr howns')
    · exact absurd howns' (hapart c hc field field' addr howns)
    · exact h.apart c c' hc hc' field field' addr howns howns'
  · intro c hc
    rcases hholds c hc with rfl | hc
    · exact Nat.le_refl _
    · exact h.opened c hc
  · intro c hc field addr howns key client hfind
    rcases hholds c hc with rfl | hc
    · change find key (heap.objects addr) = some client at hfind
      rw [(hcloned.fresh field addr howns).2.2] at hfind
      cases hfind
    · change find key (heap.objects addr) = some client at hfind
      rw [hcloned.kept addr (h.fresh c hc field addr howns).2] at hfind
      exact h.cached c hc field addr howns key client hfind
  · exact h.sound

theorem since_edit (h : Isolated base s) {dbId : DbId} {accounts : Accounts} {c : Context}
    (hc : s.Holds c) : s.since c ⊆ State.since { s with
      accounts := Function.update s.accounts dbId accounts
      past := Function.update s.past dbId (s.past dbId ++ [s.accounts dbId]) } c := by
  simp only [State.since]
  by_cases heq : c.orm = dbId
  · subst heq
    have hle : c.opened ≤ (s.past c.orm ++ [s.accounts c.orm]).length := by
      rw [List.length_append]
      exact Nat.le_add_right_of_le (h.opened c hc)
    rw [Function.update_self, Function.update_self, List.drop_append_of_le_length hle]
    exact List.subset_append_left _ _
  · rw [Function.update_of_ne heq, Function.update_of_ne heq]
    exact List.Subset.refl _

variable [DecidableEq ι]

theorem holds_setStage {heap : Heap} {stage : Stage} (hr : s.calls i = some r) {c : Context}
    (hc : State.Holds { s with heap, calls := s.setStage i r stage } c) : s.Holds c := by
  rcases hc with hhandler | ⟨j, q, hq, rfl⟩
  · exact .inl hhandler
  · change Function.update s.calls i (some { r with stage }) j = some q at hq
    rw [Function.update_apply] at hq
    split at hq
    · cases hq
      exact .inr ⟨i, r, hr, rfl⟩
    · exact .inr ⟨j, q, hq, rfl⟩

theorem Isolated.sound_setStage (h : Isolated base s) {stage : Stage}
    (hstage : stage.Sound (s.since r.context) r.request) {j : ι} {q : Running}
    (hq : s.setStage i r stage j = some q) : q.stage.Sound (s.since q.context) q.request := by
  rw [State.setStage, Function.update_apply] at hq
  split at hq
  · cases hq
    exact hstage
  · exact h.sound j q hq

theorem Isolated.setStage (h : Isolated base s) (hr : s.calls i = some r) {stage : Stage}
    (hstage : stage.Sound (s.since r.context) r.request) :
    Isolated base { s with calls := s.setStage i r stage } :=
  h.still rfl (fun _ hc => holds_setStage hr hc) (fun _ _ => List.Subset.refl _)
    (fun _ => Nat.le_refl _) fun _ _ hq => h.sound_setStage hstage hq

theorem Isolated.store (h : Isolated base s) (hr : s.calls i = some r) {field key : String}
    {client : Client} (hfits : Fits (s.since r.context) field key client)
    (hserves : Serves (s.since r.context) client r.request) :
    Isolated base { s with
      heap := (store s.heap r.context field key client).2
      calls := s.setStage i r (store s.heap r.context field key client).1 } := by
  have hheld : s.Holds r.context := .inr ⟨i, r, hr, rfl⟩
  unfold Contexts.store
  cases hcache : r.context.cache field with
  | none => exact h.setStage hr trivial
  | some addr =>
    have howns := owns_of_cache hcache
    have hget : ∀ a, Function.update s.heap.objects addr (put key client (s.heap.objects addr)) a =
        if a = addr then put key client (s.heap.objects addr) else s.heap.objects a := fun a =>
      Function.update_apply ..
    obtain ⟨hlow, -⟩ := h.fresh _ hheld _ _ howns
    constructor
    · refine ⟨fun a ha => ?_, h.pristine.next⟩
      have hne : a ≠ addr := Nat.ne_of_lt (Nat.lt_of_lt_of_le ha hlow)
      exact (hget a).trans ((if_neg hne).trans (h.pristine.empty a ha))
    · exact fun c hc => h.fresh c (holds_setStage hr hc)
    · exact fun c hc => h.distinct c (holds_setStage hr hc)
    · exact fun c c' hc hc' => h.apart c c' (holds_setStage hr hc) (holds_setStage hr hc')
    · exact fun c hc => h.opened c (holds_setStage hr hc)
    · intro c hc field' addr' howns' key' client' hfind
      have hs := holds_setStage hr hc
      replace hfind : find key' (if addr' = addr then put key client (s.heap.objects addr)
          else s.heap.objects addr') = some client' := hget addr' ▸ hfind
      split at hfind
      · next haddr =>
        subst haddr
        obtain rfl := h.apart c r.context hs hheld field' field addr' howns' howns
        obtain rfl := h.distinct _ hs field' field addr' howns' howns
        by_cases hkey : key' = key
        · subst hkey
          rw [find_put_self] at hfind
          cases hfind
          exact hfits
        · rw [find_put_ne _ _ hkey] at hfind
          exact h.cached _ hs _ _ howns _ _ hfind
      · exact h.cached c hs field' addr' howns' key' client' hfind
    · have hdone : Stage.Sound (s.since r.context) r.request (.done client) := hserves
      exact fun j q hq => h.sound_setStage hdone hq

theorem found_some {α : Type} [DecidableEq α] {p : α → Bool} {rows : List α} {row : α}
    (h : isFound p rows (some row) = true) : row ∈ rows ∧ p row = true := by
  rw [isFound, Bool.and_eq_true, List.contains_iff_mem] at h
  exact h

theorem isolated_step [DecidableEq η] (h : Isolated base s) (hmodules : ∀ m ∈ allModules, Declares base m.context)
    {a : Action η ι} (hstep : step allModules s a = some t) : Isolated base t := by
  cases a with
  | rpc hd dbId moduleNames =>
    simp only [step] at hstep
    split at hstep
    · cases hstep
      exact h
    · next fields heap hget =>
      cases hstep
      exact h.rpc hmodules hget
  | close hd =>
    cases hstep
    refine h.still rfl ?_ (fun _ _ => List.Subset.refl _) (fun _ => Nat.le_refl _) h.sound
    rintro c (⟨k, hk⟩ | hcall)
    · change Function.update s.handlers hd none k = some c at hk
      rw [Function.update_apply] at hk
      split at hk
      · cases hk
      · exact .inl ⟨k, hk⟩
    · exact .inr hcall
  | call i hd request =>
    simp only [step] at hstep
    split at hstep
    · next context hcontext hnone =>
      cases hstep
      have hheld : s.Holds context := .inl ⟨hd, hcontext⟩
      have hcalls : ∀ j q, Function.update s.calls i
          (some { context, request, stage := begin s.heap context request }) j = some q →
          q = { context, request, stage := begin s.heap context request } ∨ s.calls j = some q := by
        intro j q hq
        rw [Function.update_apply] at hq
        split at hq
        · cases hq
          exact .inl rfl
        · exact .inr hq
      refine h.still rfl ?_ (fun _ _ => List.Subset.refl _) (fun _ => Nat.le_refl _) ?_
      · rintro c (hhandler | ⟨j, q, hq, rfl⟩)
        · exact .inl hhandler
        · rcases hcalls j q hq with rfl | hq
          · exact hheld
          · exact .inr ⟨j, q, hq, rfl⟩
      · intro j q hq
        rcases hcalls j q hq with rfl | hq
        · have hbegin : (begin s.heap context request).Sound (s.since context) request :=
            sound_begin h hheld
          exact hbegin
        · exact h.sound j q hq
    · cases hstep
  | foundRegion i row =>
    simp only [step] at hstep
    split at hstep
    · next r hr =>
      split at hstep
      · next hstage =>
        split at hstep
        · next hfound =>
          cases hstep
          have hheld : s.Holds r.context := .inr ⟨i, r, hr, rfl⟩
          have hrequest : r.request = .getAwsClient none := by
            have hsound := h.sound i r hr
            rwa [hstage] at hsound
          have hchosen : Chosen (s.since r.context) none ((row.map (·.region)).getD "us-east-1") := by
            cases row with
            | none => exact .inl rfl
            | some row =>
              obtain ⟨hmem, hdefault⟩ := found_some hfound
              exact .inr ⟨_, current_mem_since h hheld, row, hmem, hdefault, rfl⟩
          refine h.setStage hr (sound_lookup h hheld (fun client hfits => ?_) ?_)
          · rw [hrequest]
            exact ⟨_, hchosen, hfits⟩
          · exact ⟨none, hrequest, hchosen⟩
        · cases hstep
      · cases hstep
    · cases hstep
  | foundAws i row =>
    simp only [step] at hstep
    split at hstep
    · next r hr =>
      split at hstep
      · next region hstage =>
        split at hstep
        · next hfound =>
          have hheld : s.Holds r.context := .inr ⟨i, r, hr, rfl⟩
          have hsound := h.sound i r hr
          rw [hstage] at hsound
          obtain ⟨selected, hrequest, hchosen⟩ := hsound
          cases row with
          | none =>
            cases hstep
            exact h.setStage hr trivial
          | some awsCreds =>
            cases hstep
            obtain ⟨hmem, hkey⟩ := found_some hfound
            have hfits : Fits (s.since r.context) "awsClient" region (awsClientOf region awsCreds) :=
              ⟨rfl, rfl, _, current_mem_since h hheld, awsCreds, hmem, hkey, rfl⟩
            refine h.store hr hfits ?_
            rw [hrequest]
            exact ⟨region, hchosen, hfits⟩
        · cases hstep
      · cases hstep
    · cases hstep
  | foundSsh i row =>
    simp only [step] at hstep
    split at hstep
    · next r hr =>
      split at hstep
      · next serverName hstage =>
        split at hstep
        · next hfound =>
          have hheld : s.Holds r.context := .inr ⟨i, r, hr, rfl⟩
          have hrequest : r.request = .getSshClient serverName := by
            have hsound := h.sound i r hr
            rwa [hstage] at hsound
          cases row with
          | none =>
            cases hstep
            exact h.setStage hr trivial
          | some creds =>
            cases hstep
            obtain ⟨hmem, hname⟩ := found_some hfound
            have hfits : Fits (s.since r.context) "sshClients" serverName (.ssh creds) :=
              ⟨rfl, beq_iff_eq.mp hname, _, current_mem_since h hheld, hmem⟩
            refine h.store hr hfits ?_
            rw [hrequest]
            exact hfits
        · cases hstep
      · cases hstep
    · cases hstep
  | queryFails i message =>
    simp only [step] at hstep
    split at hstep
    · next r hr =>
      split at hstep
      · cases hstep
        exact h.setStage hr trivial
      · cases hstep
        exact h.setStage hr trivial
      · cases hstep
        exact h.setStage hr trivial
      · cases hstep
    · cases hstep
  | edit dbId accounts =>
    cases hstep
    refine h.still rfl (fun _ hc => hc) (fun c hc => since_edit h hc) (fun d => ?_) ?_
    · change _ ≤ (Function.update s.past dbId _ d).length
      rw [Function.update_apply]
      split
      · next heq =>
        rw [heq, List.length_append]
        exact Nat.le_add_right _ _
      · exact Nat.le_refl _
    · exact fun i r hr => (h.sound i r hr).mono (since_edit h (.inr ⟨i, r, hr, rfl⟩))

end Steps

section Isolation

variable {η ι : Type} [DecidableEq η] [DecidableEq ι] {base : Addr} {s₀ s : State η ι}
  {allModules : List Module} {i : ι} {r : Running} {client : Client}

-- whatever requests of whatever databases run side by side: a client that a mapper is given is made
-- of what its own database had since the request began, and the modules keep no client
theorem clients_isolated (hpristine : Pristine base s₀.heap)
    (hmodules : ∀ m ∈ allModules, Declares base m.context)
    (hidle : (∀ h, s₀.handlers h = none) ∧ ∀ i, s₀.calls i = none)
    (hrun : Run s₀ (step allModules) (fun _ _ => true) s) :
    (∀ i r client, s.calls i = some r → r.stage = .done client →
      Serves (s.since r.context) client r.request) ∧
      ∀ addr < base, s.heap.objects addr = [] := by
  have hnone : ∀ c, ¬ s₀.Holds c := by
    rintro c (⟨h, hh⟩ | ⟨i, r, hr, -⟩)
    · rw [hidle.1] at hh
      cases hh
    · rw [hidle.2] at hr
      cases hr
  have hisolated : Isolated base s := by
    refine hrun.invariant ?_ fun s a t hs _ hst => isolated_step hs hmodules hst
    refine ⟨hpristine, ?_, ?_, ?_, ?_, ?_, ?_⟩
    · exact fun c hc => absurd hc (hnone c)
    · exact fun c hc => absurd hc (hnone c)
    · exact fun c c' hc => absurd hc (hnone c)
    · exact fun c hc => absurd hc (hnone c)
    · exact fun c hc => absurd hc (hnone c)
    · intro i r hr
      rw [hidle.2] at hr
      cases hr
  refine ⟨fun i r client hr hdone => ?_, hisolated.pristine.empty⟩
  have hsound := hisolated.sound i r hr
  rwa [hdone] at hsound

def devModules : List Module :=
  [{ name := "aws_account", version := "0.0.1",
     context := [("getAwsClient", .function "getAwsClient"), ("awsClient", .object 0)] },
   { name := "ssh_accounts", version := "0.0.1",
     context := [("getSshClient", .function "getSshClient"), ("sshClients", .object 1)] }]

def devState : State Bool Bool where
  heap := { objects := fun _ => [], next := 2 }
  accounts := fun dbId => { awsCredentials := [⟨some dbId, "secret", none⟩] }

-- two databases side by side, one of which changes its keys
def devRequests : List (Action Bool Bool) :=
  [.rpc false "a" ["aws_account@0.0.1"], .rpc true "b" ["aws_account@0.0.1", "ssh_accounts@0.0.1"],
    .call false false (.getAwsClient none), .call true true (.getAwsClient (some "us-east-1")),
    .foundRegion false none, .foundAws true (some ⟨some "b", "secret", none⟩),
    .edit "a" { awsCredentials := [⟨some "c", "other", none⟩] },
    .foundAws false (some ⟨some "c", "other", none⟩)]

theorem clients_isolated_dev :
    let s := (replay (step devModules) (fun _ _ => true) devState devRequests).getD devState
    (∀ i r client, s.calls i = some r → r.stage = .done client →
      Serves (s.since r.context) client r.request) ∧ ∀ addr < 2, s.heap.objects addr = [] := by
  have hmodules : ∀ m ∈ devModules, Declares 2 m.context := by
    simp only [devModules, List.forall_mem_cons, List.not_mem_nil, false_imp_iff, implies_true,
      and_true, Declares]
    refine ⟨fun name addr h => ?_, fun name addr h => ?_⟩
    · have haddr : name = "awsClient" ∧ addr = 0 := by simpa using h
      rw [haddr.2]
      decide
    · have haddr : name = "sshClients" ∧ addr = 1 := by simpa using h
      rw [haddr.2]
      decide
  exact clients_isolated ⟨fun _ _ => rfl, Nat.le_refl 2⟩ hmodules ⟨fun _ => rfl, fun _ => rfl⟩
    (Run.start.replayGetD (by decide +kernel))

end Isolation

end Iasql.Contexts
