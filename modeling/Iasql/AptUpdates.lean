import Iasql.AptListing
import Iasql.Calculus.Faults

namespace Iasql.Apt

open Program Prog Aws OrderedMap

section Types

inductive Effect where
  | dbUpdate (rows : List Package)
  | exec (server command : String)
deriving DecidableEq

structure PackageGroup where
  toRestore : List Package := []
  toInstall : List Package := []
  toUninstall : List Package := []

-- memo: what cloud.read has found before; reread, single: the listing after the commands, and a record of it
structure Service where
  memo : String → Option Package
  client : String → Option Thrown := fun _ => none
  updateFault : List Package → Option Thrown := fun _ => none
  execFault : String → String → Option Thrown := fun _ _ => none
  reread : Option Thrown := none
  single : String → Except Thrown (Option Package)

end Types

section Update

variable (svc : Service)

def cannotRead : Thrown := .error "Cannot read properties of undefined (reading 'description')"

-- a change of the description or of the updatable status is to be restored
def readOnlyEdited (e cloudE : Package) : Bool :=
  e.description != cloudE.description || e.upgradable != cloudE.upgradable

def restored (e cloudE : Package) : Package := { cloudE with id := e.id }

def PackageGroup.add (g : PackageGroup) (e cloudE : Package) : PackageGroup :=
  if readOnlyEdited e cloudE then { g with toRestore := g.toRestore ++ [restored e cloudE] }
  else if e.installed then { g with toInstall := g.toInstall ++ [e] }
  else { g with toUninstall := g.toUninstall ++ [e] }

def groupOne (groups : List (String × PackageGroup)) (e : Package) : Except Thrown (List (String × PackageGroup)) :=
  match svc.memo e.packageId with
  | none => .error cannotRead
  | some cloudE => .ok (put e.server (((find e.server groups).getD {}).add e cloudE) groups)

def packageGroupsByServer (es : List Package) : Except Thrown (List (String × PackageGroup)) :=
  es.foldlM (groupOne svc) []

def removeCommand (ps : List Package) : String :=
  "yes | sudo apt remove " ++ " ".intercalate (ps.map Package.package)

def installCommand (ps : List Package) : String :=
  "yes | sudo apt install " ++
    " ".intercalate (ps.map fun e => "'" ++ e.package ++ "=" ++ e.version.getD "undefined" ++ "'")

def updateDb (rows : List Package) : Prog (List Effect) Thrown Unit := do
  check (svc.updateFault rows)
  writes (· ++ [.dbUpdate rows])

-- what stderr makes the API throw is swallowed
def run (server command : String) : Prog (List Effect) Thrown Unit := do
  writes (· ++ [.exec server command])
  let _ ← attempt (check (svc.execFault server command))
  return ()

def updateServer (server : String) (g : PackageGroup) : Prog (List Effect) Thrown Unit := do
  runIf (!g.toRestore.isEmpty) (updateDb svc g.toRestore)
  runIf (!g.toUninstall.isEmpty) (run svc server (removeCommand g.toUninstall))
  runIf (!g.toInstall.isEmpty) (run svc server (installCommand g.toInstall))

def newPackage (e : Package) : Prog (List Effect) Thrown (List Package) :=
  match svc.single e.packageId with
  | .error thrown => fail thrown
  | .ok none => fail (cannotSet "id")
  | .ok (some p) => pure [{ p with id := e.id }]

def update (es : List Package) : Prog (List Effect) Thrown (List Package) :=
  match packageGroupsByServer svc es with
  | .error thrown => fail thrown
  | .ok groups => do
    each (fun g => check (svc.client g.1)) groups
    together (fun g => updateServer svc g.1 g.2) groups
    check svc.reread
    let newPackages ← gather (newPackage svc) es
    updateDb svc newPackages
    return newPackages

end Update

section Complied

variable (svc : Service)

-- the row is restored where a read-only column was edited, else a command names the package
def Complied (e : Package) (effects : List Effect) : Prop :=
  ∃ cloudE, svc.memo e.packageId = some cloudE ∧
    if readOnlyEdited e cloudE then ∃ rows, .dbUpdate rows ∈ effects ∧ restored e cloudE ∈ rows
    else if e.installed then ∃ ps, .exec e.server (installCommand ps) ∈ effects ∧ e ∈ ps
    else ∃ ps, .exec e.server (removeCommand ps) ∈ effects ∧ e ∈ ps

def RestoreFails (g : PackageGroup) : Prop := g.toRestore ≠ [] ∧ svc.updateFault g.toRestore ≠ none

-- a record was never read, a server has no client, or the rows to restore cannot be written
def Unserved (es : List Package) : Prop :=
  match packageGroupsByServer svc es with
  | .error _ => True
  | .ok groups => ∃ g ∈ groups, svc.client g.1 ≠ none ∨ RestoreFails svc g.2

end Complied

section Groups

variable {svc : Service} {e f cloudE : Package} {g : PackageGroup} {groups : List (String × PackageGroup)} {es : List Package}

def PackageGroup.Has (g : PackageGroup) (e cloudE : Package) : Prop :=
  if readOnlyEdited e cloudE then restored e cloudE ∈ g.toRestore
  else if e.installed then e ∈ g.toInstall
  else e ∈ g.toUninstall

theorem has_add_self : (g.add e cloudE).Has e cloudE := by
  rw [PackageGroup.add, PackageGroup.Has]
  split
  · exact List.mem_append_right _ List.mem_cons_self
  · split
    · exact List.mem_append_right _ List.mem_cons_self
    · exact List.mem_append_right _ List.mem_cons_self

theorem has_add {cloudF : Package} (h : g.Has e cloudE) : (g.add f cloudF).Has e cloudE := by
  have hgrows : g.toRestore ⊆ (g.add f cloudF).toRestore ∧ g.toInstall ⊆ (g.add f cloudF).toInstall ∧
      g.toUninstall ⊆ (g.add f cloudF).toUninstall := by
    rw [PackageGroup.add]
    split
    · exact ⟨List.subset_append_left .., List.Subset.refl _, List.Subset.refl _⟩
    · split
      · exact ⟨List.Subset.refl _, List.subset_append_left .., List.Subset.refl _⟩
      · exact ⟨List.Subset.refl _, List.Subset.refl _, List.subset_append_left ..⟩
  obtain ⟨hrestore, hinstall, huninstall⟩ := hgrows
  rw [PackageGroup.Has] at h ⊢
  split at h
  · next hedited => exact (if_pos hedited).symm ▸ hrestore h
  · next hedited =>
    rw [if_neg hedited]
    split at h
    · next hinstalled => exact (if_pos hinstalled).symm ▸ hinstall h
    · next hinstalled => exact (if_neg hinstalled).symm ▸ huninstall h

def Grouped (svc : Service) (groups : List (String × PackageGroup)) (e : Package) : Prop :=
  ∃ cloudE g, svc.memo e.packageId = some cloudE ∧ find e.server groups = some g ∧ g.Has e cloudE

theorem groupOne_grouped {groups' : List (String × PackageGroup)} (h : groupOne svc groups f = .ok groups') :
    Grouped svc groups' f ∧ ∀ e, Grouped svc groups e → Grouped svc groups' e := by
  rw [groupOne] at h
  cases hmemo : svc.memo f.packageId with
  | none =>
    rw [hmemo] at h
    cases h
  | some cloudF =>
    rw [hmemo] at h
    obtain rfl := Except.ok.inj h
    refine ⟨⟨cloudF, _, hmemo, find_put_self .., has_add_self⟩, ?_⟩
    rintro e ⟨cloudE, g, hcloud, hfind, hhas⟩
    by_cases hserver : e.server = f.server
    · refine ⟨cloudE, _, hcloud, by rw [hserver, find_put_self], has_add ?_⟩
      rwa [← hserver, hfind]
    · exact ⟨cloudE, g, hcloud, by rwa [find_put_ne _ _ hserver], hhas⟩

theorem grouped_of_mem (h : packageGroupsByServer svc es = .ok groups) : ∀ e ∈ es, Grouped svc groups e := by
  induction es using List.reverseRecOn generalizing groups with
  | nil => exact fun e he => absurd he List.not_mem_nil
  | append_singleton es f ih =>
    rw [packageGroupsByServer, List.foldlM_append] at h
    cases hes : es.foldlM (groupOne svc) [] with
    | error thrown =>
      rw [hes] at h
      cases h
    | ok groups₀ =>
      rw [hes] at h
      have hstep : groupOne svc groups₀ f = .ok groups := (bind_pure _).symm.trans h
      obtain ⟨hself, hkeep⟩ := groupOne_grouped hstep
      exact List.forall_mem_append.mpr ⟨fun e he => hkeep e (ih hes e he), by simpa using hself⟩

end Groups

section Effects

variable {svc : Service} {server : String} {g : PackageGroup} {log : List Effect} {es : List Package}
  {groups : List (String × PackageGroup)}

def effectsOf (server : String) (g : PackageGroup) : List Effect :=
  (if g.toRestore = [] then [] else [.dbUpdate g.toRestore]) ++
    (if g.toUninstall = [] then [] else [.exec server (removeCommand g.toUninstall)]) ++
    if g.toInstall = [] then [] else [.exec server (installCommand g.toInstall)]

theorem run_returned (server command : String) : run svc server command log = (.returned (), log ++ [.exec server command]) := by
  rw [run]
  cases hfault : svc.execFault server command with
  | none => rfl
  | some thrown => rfl

theorem runIf_run (l : List Package) (command : String) :
    runIf (!l.isEmpty) (run svc server command) log =
      (.returned (), log ++ if l = [] then [] else [.exec server command]) := by
  cases l with
  | nil => exact congrArg (Prod.mk _) (List.append_nil _).symm
  | cons e l => exact run_returned server command

theorem runIf_updateDb (h : ¬ RestoreFails svc g) : runIf (!g.toRestore.isEmpty) (updateDb svc g.toRestore) log =
    (.returned (), log ++ if g.toRestore = [] then [] else [.dbUpdate g.toRestore]) := by
  cases hrows : g.toRestore with
  | nil => exact congrArg (Prod.mk _) (List.append_nil _).symm
  | cons e l =>
    have hfault : svc.updateFault (e :: l) = none := by
      by_contra hne
      exact h ⟨by simp [hrows], hrows.symm ▸ hne⟩
    rw [updateDb, hfault]
    rfl

theorem updateServer_eq (h : ¬ RestoreFails svc g) :
    updateServer svc server g log = (.returned (), log ++ effectsOf server g) := by
  rw [updateServer, bind_of_returned (runIf_updateDb h), bind_of_returned (runIf_run _ _), runIf_run, effectsOf,
    List.append_assoc, List.append_assoc, List.append_assoc]

theorem updateServer_thrown (h : RestoreFails svc g) (server : String) (log : List Effect) :
    ∃ thrown, (updateServer svc server g log).1 = .thrown thrown := by
  obtain ⟨hne, hfault⟩ := h
  obtain ⟨thrown, hthrown⟩ := Option.ne_none_iff_exists'.mp hfault
  refine ⟨thrown, ?_⟩
  rw [updateServer, updateDb, hthrown]
  cases hrows : g.toRestore with
  | nil => exact absurd hrows hne
  | cons e l => rfl

-- what a program adds to the effects stays
def grows : Frame (List Effect) where
  rel s t := s ⊆ t
  refl s := List.Subset.refl s
  trans := fun h h' => List.Subset.trans h h'

theorem keeps_updateDb (rows : List Package) : grows.Keeps (updateDb svc rows) :=
  Frame.keeps_bind (Frame.keeps_check _) fun _ => Frame.keeps_writes fun _ => List.subset_append_left ..

theorem keeps_newPackage (e : Package) : grows.Keeps (newPackage svc e) := by
  rw [newPackage]
  split
  · exact Frame.keeps_fail _
  · exact Frame.keeps_fail _
  · exact Frame.keeps_pure _

theorem keeps_reread (es : List Package) : grows.Keeps (do
    check svc.reread
    let newPackages ← gather (newPackage svc) es
    updateDb svc newPackages
    return newPackages : Prog (List Effect) Thrown (List Package)) :=
  Frame.keeps_bind (Frame.keeps_check _) fun _ => Frame.keeps_bind (Frame.keeps_gather fun e _ => keeps_newPackage e)
    fun _ => Frame.keeps_bind (keeps_updateDb _) fun _ => Frame.keeps_pure _

theorem effectsOf_subset (hgroups : packageGroupsByServer svc es = .ok groups)
    (h : ∀ g ∈ groups, svc.client g.1 = none ∧ ¬ RestoreFails svc g.2) :
    groups.flatMap (fun g => effectsOf g.1 g.2) ⊆ (update svc es log).2 := by
  have htogether : together (fun g => updateServer svc g.1 g.2) groups log =
      (.returned (), log ++ groups.flatMap fun g => effectsOf g.1 g.2) :=
    together_returned fun g hg _ => updateServer_eq (h g hg).2
  rw [update, hgroups]
  simp only [bind_of_returned (each_check_of_none fun g hg => (h g hg).1), bind_of_returned htogether]
  exact List.Subset.trans (List.subset_append_right _ _) (keeps_reread es _)

theorem complied_of_grouped {e : Package} {effects : List Effect} (hgrouped : Grouped svc groups e)
    (h : groups.flatMap (fun g => effectsOf g.1 g.2) ⊆ effects) : Complied svc e effects := by
  obtain ⟨cloudE, g, hmemo, hfind, hhas⟩ := hgrouped
  have heffects : effectsOf e.server g ⊆ effects :=
    fun x hx => h (List.mem_flatMap.mpr ⟨(e.server, g), mem_of_find hfind, hx⟩)
  refine ⟨cloudE, hmemo, ?_⟩
  rw [PackageGroup.Has] at hhas
  split
  · next hedited =>
    rw [if_pos hedited] at hhas
    refine ⟨g.toRestore, heffects ?_, hhas⟩
    simp [effectsOf, List.ne_nil_of_mem hhas]
  · next hedited =>
    rw [if_neg hedited] at hhas
    split
    · next hinstalled =>
      rw [if_pos hinstalled] at hhas
      refine ⟨g.toInstall, heffects ?_, hhas⟩
      simp [effectsOf, List.ne_nil_of_mem hhas]
    · next hinstalled =>
      rw [if_neg hinstalled] at hhas
      refine ⟨g.toUninstall, heffects ?_, hhas⟩
      simp [effectsOf, List.ne_nil_of_mem hhas]

theorem update_thrown (h : Unserved svc es) : ∃ thrown, (update svc es log).1 = .thrown thrown := by
  rw [Unserved] at h
  rw [update]
  cases hgroups : packageGroupsByServer svc es with
  | error thrown => exact ⟨thrown, rfl⟩
  | ok groups =>
    rw [hgroups] at h
    obtain ⟨g, hg, hwhich⟩ := h
    by_cases hclients : ∀ g ∈ groups, svc.client g.1 = none
    · obtain ⟨thrown, hthrown⟩ := @together_thrown _ _ log _ (fun g => updateServer svc g.1 g.2) g groups hg
        (updateServer_thrown (hwhich.resolve_left fun hne => hne (hclients g hg)) g.1)
      refine ⟨thrown, ?_⟩
      simp only [bind_of_returned (each_check_of_none hclients), bind_of_thrown (run_eq hthrown)]
    · obtain ⟨thrown, hthrown⟩ := each_check_of_some hclients
      exact ⟨thrown, congrArg Prod.fst (bind_of_thrown hthrown)⟩

-- every edit has been answered when the update is over, unless it throws for want of a record, a client or the database
theorem update_complied (svc : Service) (es : List Package) (log : List Effect) :
    (∀ e ∈ es, Complied svc e (update svc es log).2) ∨
      (Unserved svc es ∧ ∃ thrown, (update svc es log).1 = .thrown thrown) := by
  by_cases hserved : Unserved svc es
  · exact .inr ⟨hserved, update_thrown hserved⟩
  · refine .inl fun e he => ?_
    rw [Unserved] at hserved
    cases hgroups : packageGroupsByServer svc es with
    | error thrown =>
      rw [hgroups] at hserved
      exact absurd trivial hserved
    | ok groups =>
      rw [hgroups] at hserved
      refine complied_of_grouped (grouped_of_mem hgroups e he) (effectsOf_subset hgroups fun g hg => ⟨?_, ?_⟩)
      · by_contra hne
        exact hserved ⟨g, hg, .inl hne⟩
      · exact fun hfails => hserved ⟨g, hg, .inr hfails⟩

end Effects

section Apt

-- the listing of every server comes back entry for entry with trimmed descriptions, and every edit is answered
theorem packages_listed_and_updated :
    (∀ fleet : Fleet, ∃ out, read fleet.print = .ok out ∧ Exact trim fleet out) ∧
      ∀ svc es log, (∀ e ∈ es, Complied svc e (update svc es log).2) ∨
        (Unserved svc es ∧ ∃ thrown, (update svc es log).1 = .thrown thrown) :=
  ⟨read_exact, update_complied⟩

def bash : Entry where
  package := ⟨"bash", by simp, by simp [isWhiteSpace]⟩
  repositories := ["focal", "now"]
  version := ⟨"5.0", by simp, by simp [isWhiteSpace]⟩
  architecture := ⟨"amd64", by simp, by simp [isWhiteSpace]⟩
  states := ["installed"]
  description := " "
  package_plain := by simp
  repositories_plain := by simp [isWhiteSpace]
  states_plain := by simp
  description_plain := by simp

def spaced : Fleet where
  servers := [("web", {
    entries := [bash]
    header_plain := by simp
    installed_listed := fun _ h => absurd h List.not_mem_nil
    upgradable_listed := fun _ h => absurd h List.not_mem_nil })]
  unique := List.nodup_singleton _

-- a description that is one space comes back empty
theorem description_trimmed : ¬ ∃ out, read spaced.print = .ok out ∧ Exact id spaced out := by
  rintro ⟨out, hread, hexact⟩
  obtain ⟨out', hread', hexact'⟩ := read_exact spaced
  obtain rfl := Except.ok.inj (hread.symm.trans hread')
  have hrecord := (hexact.listed _).mpr ⟨_, List.mem_cons_self, bash, List.mem_cons_self, rfl, rfl⟩
  obtain ⟨s, hs, e, he, -, heq⟩ := (hexact'.listed _).mp hrecord
  obtain rfl := List.mem_singleton.mp hs
  obtain rfl := List.mem_singleton.mp he
  have hdescription : some " " = some (trim " ") := congrArg Package.description heq
  revert hdescription
  decide

end Apt

end Iasql.Apt
