import Iasql.Connect

namespace Iasql

open Program Prog

section Untouched

structure SameNames (s t : Server) : Prop where
  databases : ∀ n, n ∈ t.databases ↔ n ∈ s.databases
  roles : ∀ n, n ∈ t.roles ↔ n ∈ s.roles

def Server.Associated (s : Server) (uid name : String) : Prop :=
  ∃ user, s.iasqlUser uid = some user ∧ name ∈ user.iasqlDatabases

structure Untouched (s t : Server) : Prop extends SameNames s t where
  associations : ∀ u n, s.Associated u n → t.Associated u n

variable (c : ConnectCall) (s : Server)

def LeavesUntouched : Prop :=
  ∀ e t, connect c { server := s } = (.thrown e, t) → Untouched s t.server

-- taking the new database out of the metadata takes no association with it
def Spares : Prop :=
  c.dbPregen.isSome ∨ c.fails .findUserOrFail ∨ c.fails .saveRemainingUser ∨
    ¬ s.Associated c.uid c.dbId ∧ (c.fails .removeDatabase ∨ ∀ u, ¬ s.Associated u c.dbId)

def aliasTaken : Bool :=
  (s.iasqlUser c.uid).any fun u => u.iasqlDatabases.any (s.hasAlias c.dbAlias)

def saveBlocked : Bool :=
  c.dbPregen.isNone && (c.fails .findUser || aliasTaken c s || c.fails .saveDatabase ||
    c.fails .saveUser)

def fillSteps : List ConnectStep :=
  [.connectDatabase, .migrate, .createHttp, .setUpDblink, .schedule, .schedulePurge, .createGroupRole]

def roleBlocked : Bool :=
  truthy c.dbPass && (c.fails .createRole || !truthy c.dbUser ||
    c.dbUser == some (getGroupRole c.dbId) || s.roles.contains (c.dbUser.getD ""))

def grantBlocked : Bool :=
  c.fails .grantGroupRole || !truthy c.dbUser || c.dbUser == some (getGroupRole c.dbId) ||
    !truthy c.dbPass && !s.roles.contains (c.dbUser.getD "")

def countBlocked : Bool :=
  c.fails .getDbRecCount || c.dbPregen.isNone && (c.fails .findDatabase || c.fails .saveRecordCount)

-- by the first step that throws
def Compensable : Prop :=
  if saveBlocked c s then True
  else if c.fails .connectBase then Spares c s
  else if c.fails .createDatabase || s.databases.contains c.dbId then
    c.fails .dropDatabase ∨ c.dbId ∉ s.databases ∧ Spares c s
  else if fillSteps.any c.fails then ¬ c.fails .dropDatabase ∧ Spares c s
  else if roleBlocked c s then
    ¬ c.fails .dropDatabase ∧ getGroupRole c.dbId ∈ s.roles ∧ Spares c s
  else if grantBlocked c s then
    ¬ c.fails .dropDatabase ∧ getGroupRole c.dbId ∈ s.roles ∧ ¬ truthy c.dbPass ∧ Spares c s
  else if countBlocked c then
    ¬ c.fails .dropDatabase ∧
      if c.fails .dropRoles then getGroupRole c.dbId ∈ s.roles ∧ ¬ truthy c.dbPass
      else getGroupRole c.dbId ∉ s.roles ∧ truthy c.dbPass ∧ Spares c s
  else ¬ c.fails .closeBase ∧ ¬ c.fails .closeDatabase

end Untouched

section Steps

variable {c : ConnectCall} {Q : Unit → Connecting → Prop} {R : Connecting → Prop}
  {t : Connecting} {P : Server → Prop}

theorem wp_awaits (step : ConnectStep) :
    Wp (awaits c step) Q (fun _ => R) t ↔ if c.fails step then R t else Q () t := by
  unfold awaits ConnectCall.fails
  cases c.fault step <;> exact Iff.rfl

theorem wp_awaits_each (steps : List ConnectStep) :
    Wp (Prog.each (awaits c) steps) Q (fun _ => R) t ↔
      if steps.any c.fails then R t else Q () t := by
  induction steps with
  | nil => exact Iff.rfl
  | cons step steps ih =>
    rw [Prog.each, wp_bind, wp_awaits, List.any_cons]
    cases c.fails step with
    | true => simp
    | false => simpa using ih

theorem wp_onServer (f : Server → Server) :
    Wp (onServer f) Q (fun _ => R) t ↔ Q () { t with server := f t.server } := Iff.rfl

theorem wp_closeAll : Wp (closeAll c) (fun _ u => P u.server) (fun _ u => P u.server) t ↔
    P t.server := by
  simp only [closeAll, wp_bind, wp_reads, wp_runIf, wp_awaits]
  cases t.conn1 <;> cases t.conn2 <;> simp

theorem wp_closeAll_thrown (h1 : t.conn1 = true) (h2 : t.conn2 = true) :
    Wp (closeAll c) (fun _ _ => True) (fun _ u => P u.server) t ↔
      (c.fails .closeBase ∨ c.fails .closeDatabase → P t.server) := by
  simp only [closeAll, wp_bind, wp_reads, wp_runIf, wp_awaits, h1, h2, if_true]
  cases c.fails .closeBase <;> cases c.fails .closeDatabase <;> simp

end Steps

section Metadata

variable {c : ConnectCall} {s r : Server} {Q : Unit → Connecting → Prop} {R : Connecting → Prop}
  {t : Connecting}

def withDatabase (c : ConnectCall) (s : Server) : Server :=
  s.saveDatabase c.dbId { dbAlias := c.dbAlias, pgUser := c.dbUser.getD "" }

def withUser (c : ConnectCall) (s : Server) : Server :=
  let user := (s.iasqlUser c.uid).getD { email := c.email, iasqlDatabases := [] }
  (withDatabase c s).saveUser c.uid { user with iasqlDatabases := user.iasqlDatabases ++ [c.dbId] }

theorem wp_saveDb : Wp (saveDb c) Q (fun _ => R) t ↔
    if c.fails .findUser || aliasTaken c t.server || c.fails .saveDatabase then R t
    else if c.fails .saveUser then R { t with server := withDatabase c t.server }
    else Q () { t with server := withUser c t.server } := by
  simp only [saveDb, wp_bind, wp_awaits, wp_reads, wp_ite, wp_fail, wp_onServer]
  cases c.fails .findUser with
  | true => simp
  | false =>
    cases htaken : aliasTaken c t.server <;> unfold aliasTaken at htaken <;>
      cases c.fails .saveDatabase <;> simp [htaken, withDatabase, withUser]

-- what the metadata are from saveDb to the end
structure Within (c : ConnectCall) (s r : Server) : Prop where
  known : c.dbPregen.isNone → ∃ user, r.iasqlUser c.uid = some user ∧
    c.dbId ∈ user.iasqlDatabases ∧
    ∀ n ∈ user.iasqlDatabases, r.hasAlias c.dbAlias n = true ↔ n = c.dbId
  associated : ∀ u n, r.Associated u n ↔
    s.Associated u n ∨ c.dbPregen.isNone ∧ u = c.uid ∧ n = c.dbId

theorem within_of_pregen (h : c.dbPregen.isNone = false) : Within c s s :=
  ⟨by simp [h], by simp [h]⟩

theorem within_withUser (hpre : c.dbPregen.isNone = true) (htaken : aliasTaken c s = false) :
    Within c s (withUser c s) where
  known _ := by
    refine ⟨_, Function.update_self _ _ _, by simp, fun n hn => ?_⟩
    by_cases hname : n = c.dbId
    · simp [hname, Server.hasAlias, withUser, withDatabase, Server.saveUser, Server.saveDatabase]
    · have hold : ∃ user, s.iasqlUser c.uid = some user ∧ n ∈ user.iasqlDatabases := by
        cases huser : s.iasqlUser c.uid with
        | none => simp [huser, hname] at hn
        | some user => exact ⟨user, rfl, by simpa [huser, hname] using hn⟩
      obtain ⟨user, huser, hin⟩ := hold
      have hfree : s.hasAlias c.dbAlias n = false := by
        simp only [aliasTaken, huser, Option.any_some, List.any_eq_false] at htaken
        simpa using htaken n hin
      have hsame : (withUser c s).hasAlias c.dbAlias n = s.hasAlias c.dbAlias n := by
        simp [Server.hasAlias, withUser, withDatabase, Server.saveUser, Server.saveDatabase,
          Function.update_of_ne hname]
      simp [hsame, hfree, hname]
  associated u n := by
    by_cases hu : u = c.uid
    · subst hu
      cases huser : s.iasqlUser c.uid <;>
        simp [Server.Associated, withUser, Server.saveUser, huser, hpre]
    · simp [Server.Associated, withUser, withDatabase, Server.saveUser, Server.saveDatabase, hu]

theorem Within.kept (h : Within c s r) (hnames : SameNames s r) : Untouched s r :=
  ⟨hnames, fun u n hn => (h.associated u n).mpr (.inl hn)⟩

theorem Within.untouched_iff (h : Within c s r) : Untouched s r ↔ SameNames s r :=
  ⟨fun hr => hr.toSameNames, h.kept⟩

theorem associated_saveUser {id u n : String} {user : IasqlUser} :
    (r.saveUser id user).Associated u n ↔
      if u = id then n ∈ user.iasqlDatabases else r.Associated u n := by
  split
  · next hu =>
    subst hu
    simp [Server.Associated, Server.saveUser]
  · next hu => simp [Server.Associated, Server.saveUser, hu]

theorem associated_removeDatabase {name u n : String} :
    (r.removeDatabase name).Associated u n ↔ r.Associated u n ∧ n ≠ name := by
  simp only [Server.Associated, Server.removeDatabase, Option.map_eq_some_iff]
  constructor
  · rintro ⟨_, ⟨user, huser, rfl⟩, hn⟩
    have hmem := List.mem_filter.mp hn
    exact ⟨⟨user, huser, hmem.1⟩, by simpa using hmem.2⟩
  · rintro ⟨⟨user, huser, hn⟩, hne⟩
    exact ⟨_, ⟨user, huser, rfl⟩, List.mem_filter.mpr ⟨hn, by simpa using hne⟩⟩

def remainingUser (c : ConnectCall) (r : Server) (user : IasqlUser) : IasqlUser where
  email := user.email
  iasqlDatabases := user.iasqlDatabases.filter fun n => !r.hasAlias c.dbAlias n

theorem Within.forgets (h : Within c s r) (hpre : c.dbPregen.isNone = true) {user : IasqlUser}
    (huser : r.iasqlUser c.uid = some user)
    (honly : ∀ n ∈ user.iasqlDatabases, r.hasAlias c.dbAlias n = true ↔ n = c.dbId) {u n : String} :
    (r.saveUser c.uid (remainingUser c r user)).Associated u n ↔
      s.Associated u n ∧ ¬ (u = c.uid ∧ n = c.dbId) := by
  rw [associated_saveUser]
  split
  · next hu =>
    subst hu
    have hin : n ∈ user.iasqlDatabases ↔ s.Associated c.uid n ∨ n = c.dbId := by
      have hassoc := h.associated c.uid n
      simpa [Server.Associated, huser, hpre] using hassoc
    rw [remainingUser, List.mem_filter]
    constructor
    · rintro ⟨hn, halias⟩
      have hne : n ≠ c.dbId := fun heq => by
        rw [(honly n hn).mpr heq] at halias
        cases halias
      exact ⟨(hin.mp hn).resolve_right hne, fun hboth => hne hboth.2⟩
    · rintro ⟨hn, hnot⟩
      have hne : n ≠ c.dbId := fun heq => hnot ⟨rfl, heq⟩
      have hmem : n ∈ user.iasqlDatabases := hin.mpr (.inl hn)
      refine ⟨hmem, ?_⟩
      cases halias : r.hasAlias c.dbAlias n with
      | false => rfl
      | true => exact absurd ((honly n hmem).mp halias) hne
  · next hu =>
    rw [h.associated]
    simp [hu]

theorem wp_delDb (h : Within c s t.server) (hpre : c.dbPregen.isNone = true) :
    Wp (delDb c) (fun _ u => Untouched s u.server) (fun _ u => Untouched s u.server) t ↔
      SameNames s t.server ∧ Spares c s := by
  obtain ⟨user, huser, hin, honly⟩ := h.known hpre
  have hfind : user.iasqlDatabases.find? (t.server.hasAlias c.dbAlias) = some c.dbId := by
    cases hfound : user.iasqlDatabases.find? (t.server.hasAlias c.dbAlias) with
    | none => exact absurd ((honly _ hin).mpr rfl) (List.find?_eq_none.mp hfound _ hin)
    | some n =>
      have hn := List.mem_of_find?_eq_some hfound
      rw [(honly n hn).mp (List.find?_some hfound)]
  simp only [delDb, wp_bind, wp_awaits, wp_reads, wp_onServer, huser, hfind, Spares]
  have hsome : c.dbPregen.isSome = false := by simpa using hpre
  cases c.fails .findUserOrFail with
  | true => simp [h.untouched_iff]
  | false =>
    cases c.fails .saveRemainingUser with
    | true => simp [h.untouched_iff]
    | false =>
      have hforgets := fun u n => h.forgets hpre huser honly (u := u) (n := n)
      have hkept : Untouched s (t.server.saveUser c.uid (remainingUser c t.server user)) ↔
          SameNames s t.server ∧ ¬ s.Associated c.uid c.dbId := by
        constructor
        · intro hsame
          refine ⟨⟨hsame.databases, hsame.roles⟩, fun hassoc => ?_⟩
          exact ((hforgets _ _).mp (hsame.associations _ _ hassoc)).2 ⟨rfl, rfl⟩
        · rintro ⟨hnames, hnot⟩
          refine ⟨⟨hnames.databases, hnames.roles⟩, fun u n hn => (hforgets u n).mpr ⟨hn, ?_⟩⟩
          rintro ⟨rfl, rfl⟩
          exact hnot hn
      have hgone : Untouched s
          ((t.server.saveUser c.uid (remainingUser c t.server user)).removeDatabase c.dbId) ↔
          SameNames s t.server ∧ ∀ u, ¬ s.Associated u c.dbId := by
        constructor
        · intro hsame
          refine ⟨⟨hsame.databases, hsame.roles⟩, fun u hassoc => ?_⟩
          exact (associated_removeDatabase.mp (hsame.associations _ _ hassoc)).2 rfl
        · rintro ⟨hnames, hnot⟩
          refine ⟨⟨hnames.databases, hnames.roles⟩, fun u n hn => ?_⟩
          have hne : n ≠ c.dbId := by
            rintro rfl
            exact hnot u hn
          exact associated_removeDatabase.mpr ⟨(hforgets u n).mpr ⟨hn, fun hboth => hne hboth.2⟩, hne⟩
      have hall : (∀ u, ¬ s.Associated u c.dbId) → ¬ s.Associated c.uid c.dbId := fun hu => hu _
      cases c.fails .removeDatabase with
      | true =>
        simp only [Bool.false_eq_true, ↓reduceIte, hsome, false_or, true_or, and_true]
        exact hkept
      | false =>
        simp only [Bool.false_eq_true, ↓reduceIte, hsome, false_or]
        exact hgone.trans ⟨fun hg => ⟨hg.1, hall hg.2, hg.2⟩, fun hg => ⟨hg.1, hg.2.2⟩⟩

end Metadata

section Recovery

variable {c : ConnectCall} {s : Server} {t : Connecting}

def Recovers (c : ConnectCall) (s : Server) (t : Connecting) : Prop :=
  Wp (dropAll c) (fun _ u => Untouched s u.server) (fun _ u => Untouched s u.server) t

theorem recovers_unsaved (hs : t.dbSaved = false) (hg : t.roleGranted = false) :
    Recovers c s t ↔ Untouched s t.server := by
  simp only [Recovers, dropAll, wp_bind, wp_reads, wp_runIf, hs, hg, Bool.false_and, Bool.and_false,
    Bool.false_eq_true, ↓reduceIte]

theorem wp_forget (h : Within c s t.server) :
    Wp (runIf c.dbPregen.isNone (delDb c)) (fun _ u => Untouched s u.server)
      (fun _ u => Untouched s u.server) t ↔ SameNames s t.server ∧ Spares c s := by
  rw [wp_runIf]
  cases hpre : c.dbPregen.isNone with
  | true => simpa using wp_delDb h hpre
  | false =>
    have hsome : c.dbPregen.isSome = true := by
      cases hgen : c.dbPregen with
      | none => simp [hgen] at hpre
      | some gen => rfl
    simp [Spares, hsome, h.untouched_iff]

theorem recovers_unconnected (h : Within c s t.server) (hs : t.dbSaved = true)
    (hc : t.conn1 = false) : Recovers c s t ↔ SameNames s t.server ∧ Spares c s := by
  simp only [Recovers, dropAll, wp_bind, wp_reads, hs, hc, Bool.and_false, Bool.true_and]
  exact wp_forget h

theorem runIf_true (p : Prog Connecting Thrown Unit) : runIf true p = p := rfl

theorem runIf_false (p : Prog Connecting Thrown Unit) : runIf false p = pure () := rfl

theorem recovers_ungranted (h : Within c s t.server) (hs : t.dbSaved = true) (hc : t.conn1 = true)
    (hg : t.roleGranted = false) : Recovers c s t ↔
      if c.fails .dropDatabase then SameNames s t.server
      else SameNames s (t.server.dropDatabase c.dbId) ∧ Spares c s := by
  have hdropped : Within c s (t.server.dropDatabase c.dbId) := ⟨h.known, h.associated⟩
  simp only [Recovers, dropAll, dropDatabase, wp_bind, wp_reads, hs, hc, hg, Bool.true_and,
    Bool.and_true, Bool.and_false, runIf_true, runIf_false, wp_awaits, wp_onServer, wp_pure]
  rw [wp_forget hdropped, h.untouched_iff]

theorem recovers_granted (h : Within c s t.server) (hs : t.dbSaved = true) (hc : t.conn1 = true)
    (hg : t.roleGranted = true) (hu : truthy t.dbUser = true) : Recovers c s t ↔
      if c.fails .dropDatabase then SameNames s t.server
      else if c.fails .dropRoles then SameNames s (t.server.dropDatabase c.dbId)
      else SameNames s ((t.server.dropDatabase c.dbId).dropRoles
        [c.dbUser.getD "", getGroupRole c.dbId]) ∧ Spares c s := by
  let roles := [c.dbUser.getD "", getGroupRole c.dbId]
  have hdropped : Within c s (t.server.dropDatabase c.dbId) := ⟨h.known, h.associated⟩
  have hroles : Within c s ((t.server.dropDatabase c.dbId).dropRoles roles) :=
    ⟨h.known, h.associated⟩
  simp only [Recovers, dropAll, dropDatabase, dropPostgresRole, wp_bind, wp_reads, hs, hc, hg, hu,
    Bool.and_true, Bool.true_and, runIf_true, wp_awaits, wp_onServer]
  rw [wp_forget hroles, h.untouched_iff, hdropped.untouched_iff]

end Recovery

section Names

variable {s : Server} {name user group : String}

theorem sameNames_drop : SameNames s (s.dropDatabase name) ↔ name ∉ s.databases := by
  constructor
  · intro h hname
    have hkept := (h.databases name).mpr hname
    simp [Server.dropDatabase] at hkept
  · intro h
    refine ⟨fun n => ?_, fun n => Iff.rfl⟩
    rw [Server.dropDatabase, List.mem_filter]
    constructor
    · exact fun hn => hn.1
    · intro hn
      refine ⟨hn, ?_⟩
      rw [bne_iff_ne]
      rintro rfl
      exact h hn

theorem mem_createRole {n : String} : n ∈ (s.createRole user).roles ↔ n ∈ s.roles ∨ n = user := by
  rw [Server.createRole]
  split
  · next h =>
    constructor
    · exact .inl
    · rintro (hn | rfl)
      · exact hn
      · exact h
  · simp

end Names

section Body

variable {c : ConnectCall} {s : Server} {Q : Unit → Connecting → Prop} {R : Connecting → Prop}
  {t : Connecting}

def afterSave (c : ConnectCall) (s : Server) : Server :=
  if c.dbPregen.isNone then withUser c s else s

theorem within_afterSave (h : saveBlocked c s = false) : Within c s (afterSave c s) := by
  unfold afterSave
  cases hpre : c.dbPregen.isNone with
  | false => exact within_of_pregen hpre
  | true =>
    refine within_withUser hpre ?_
    simp only [saveBlocked, hpre, Bool.true_and, Bool.or_eq_false_iff] at h
    exact h.1.1.2

theorem wp_saving (hR : R t) (hrow : R { t with server := withDatabase c t.server }) :
    Wp (runIf c.dbPregen.isNone (saveDb c)) Q (fun _ => R) t ↔
      if saveBlocked c t.server then True
      else Q () { t with server := afterSave c t.server } := by
  rw [wp_runIf, wp_saveDb, saveBlocked, afterSave]
  cases c.dbPregen.isNone with
  | false => simp
  | true =>
    cases c.fails .findUser <;> cases aliasTaken c t.server <;> cases c.fails .saveDatabase <;>
      cases c.fails .saveUser <;> simp [hR, hrow]

theorem wp_createDatabase : Wp (createDatabase c) Q (fun _ => R) t ↔
    if c.fails .createDatabase || t.server.databases.contains c.dbId then R t
    else Q () { t with server := t.server.createDatabase c.dbId } := by
  simp only [createDatabase, wp_bind, wp_awaits, wp_reads, wp_ite, wp_fail, wp_onServer]
  cases c.fails .createDatabase <;> simp

theorem truthy_iff {text : Option String} : truthy text = true ↔ text.getD "" ≠ "" := by
  cases text <;> simp [truthy]

theorem wp_newRole : Wp (runIf (truthy c.dbPass) (newPostgresRole c)) Q (fun _ => R) t ↔
    if truthy c.dbPass && (c.fails .createRole || !truthy c.dbUser ||
      t.server.roles.contains (c.dbUser.getD "")) then R t
    else Q () { t with server := if truthy c.dbPass then t.server.createRole (c.dbUser.getD "")
                                 else t.server } := by
  simp only [newPostgresRole, wp_runIf, wp_bind, wp_awaits, wp_reads, wp_ite, wp_fail, wp_onServer]
  cases truthy c.dbPass with
  | false => simp
  | true =>
    cases c.fails .createRole with
    | true => simp
    | false =>
      cases huser : truthy c.dbUser with
      | true => simp [truthy_iff.mp huser]
      | false =>
        have hempty : c.dbUser.getD "" = "" := by
          by_contra hne
          rw [truthy_iff.mpr hne] at huser
          cases huser
        simp [hempty]

theorem wp_grant : Wp (grantPostgresGroupRole c) Q (fun _ => R) t ↔
    if c.fails .grantGroupRole || !truthy c.dbUser || c.dbUser == some (getGroupRole c.dbId) ||
      !t.server.roles.contains (c.dbUser.getD "") then R t
    else Q () t := by
  simp only [grantPostgresGroupRole, wp_bind, wp_awaits, wp_reads]
  cases c.fails .grantGroupRole with
  | true => simp
  | false =>
    cases huser : c.dbUser with
    | none => simp [truthy, wp_fail]
    | some user =>
      simp only [wp_ite, wp_fail, wp_pure, truthy, Option.any_some, Option.getD_some]
      by_cases hempty : user = "" <;> by_cases hgroup : user = getGroupRole c.dbId <;>
        by_cases hin : user ∈ t.server.roles <;> simp [hempty, hgroup, hin]

theorem leaves_iff : LeavesUntouched c s ↔
    Wp (connectBody c)
      (fun _ => Wp (closeAll c) (fun _ _ => True) fun _ u => Untouched s u.server)
      (fun _ => Recovers c s) { server := s } := by
  have hclose : Wp (closeAll c) (fun _ u => Untouched s u.server) (fun _ u => Untouched s u.server) =
      fun t => Untouched s t.server := funext fun _ => propext wp_closeAll
  rw [LeavesUntouched, forall_thrown_iff, connect, wp_lastly, wp_bind, wp_attempt, hclose]
  refine wp_congr (fun _ _ => Iff.rfl) fun e t => ?_
  rw [wp_bind]
  rfl

end Body

section Verdict

variable {c : ConnectCall} {s : Server}

theorem sameNames_created {t : Server} (h : c.dbId ∉ s.databases) (ht : c.dbId ∈ t.databases) :
    ¬ SameNames s t := fun hsame => h ((hsame.databases _).mp ht)

theorem sameNames_dropped {t : Server} (h : c.dbId ∉ s.databases)
    (ht : t.databases = s.databases ++ [c.dbId]) :
    SameNames s (t.dropDatabase c.dbId) ↔ ∀ n, n ∈ t.roles ↔ n ∈ s.roles := by
  constructor
  · exact fun hsame => hsame.roles
  · refine fun hroles => ⟨fun n => ?_, hroles⟩
    simp only [Server.dropDatabase, ht, List.mem_filter, List.mem_append, List.mem_singleton,
      bne_iff_ne]
    constructor
    · rintro ⟨hn | hn, hne⟩
      · exact hn
      · exact absurd hn hne
    · intro hn
      refine ⟨.inl hn, ?_⟩
      rintro rfl
      exact h hn

def SameRoles (s t : Server) : Prop := ∀ n, n ∈ t.roles ↔ n ∈ s.roles

theorem recovers_created {t : Connecting} (h : Within c s t.server) (hnew : c.dbId ∉ s.databases)
    (hdb : t.server.databases = s.databases ++ [c.dbId]) (hs : t.dbSaved = true)
    (hc : t.conn1 = true) (hg : t.roleGranted = false) : Recovers c s t ↔
      ¬ c.fails .dropDatabase ∧ SameRoles s t.server ∧ Spares c s := by
  have hin : c.dbId ∈ t.server.databases := by simp [hdb]
  rw [recovers_ungranted h hs hc hg, sameNames_dropped hnew hdb]
  cases c.fails .dropDatabase with
  | true => simpa using sameNames_created hnew hin
  | false => simp [SameRoles]

theorem recovers_granted_created {t : Connecting} (h : Within c s t.server)
    (hnew : c.dbId ∉ s.databases) (hdb : t.server.databases = s.databases ++ [c.dbId])
    (hs : t.dbSaved = true) (hc : t.conn1 = true) (hg : t.roleGranted = true)
    (hu : truthy t.dbUser = true) : Recovers c s t ↔ ¬ c.fails .dropDatabase ∧
      if c.fails .dropRoles then SameRoles s t.server
      else SameRoles s (t.server.dropRoles [c.dbUser.getD "", getGroupRole c.dbId]) ∧
        Spares c s := by
  have hin : c.dbId ∈ t.server.databases := by simp [hdb]
  have hdropped : SameNames s ((t.server.dropDatabase c.dbId).dropRoles
      [c.dbUser.getD "", getGroupRole c.dbId]) ↔
      SameRoles s (t.server.dropRoles [c.dbUser.getD "", getGroupRole c.dbId]) := by
    have hboth := sameNames_dropped hnew hdb
    constructor
    · exact fun hsame => hsame.roles
    · intro hroles
      have hdatabases : SameNames s ({ t.server with roles := s.roles }.dropDatabase c.dbId) :=
        (sameNames_dropped (t := { t.server with roles := s.roles }) hnew hdb).mpr fun _ => Iff.rfl
      exact ⟨hdatabases.databases, hroles⟩
  rw [recovers_granted h hs hc hg hu, sameNames_dropped hnew hdb, hdropped]
  cases c.fails .dropDatabase with
  | true => simpa using sameNames_created hnew hin
  | false => simp [SameRoles]

-- the roles after the user's role is created, or found
structure Enrolled (c : ConnectCall) (s r : Server) : Prop where
  roles : ∀ n, n ∈ r.roles ↔
    n ∈ s.roles ∨ n = getGroupRole c.dbId ∨ truthy c.dbPass ∧ n = c.dbUser.getD ""
  fresh : truthy c.dbPass → c.dbUser.getD "" ∉ s.roles ∧ c.dbUser.getD "" ≠ getGroupRole c.dbId

theorem Enrolled.sameRoles_iff {r : Server} (h : Enrolled c s r) :
    SameRoles s r ↔ getGroupRole c.dbId ∈ s.roles ∧ ¬ truthy c.dbPass := by
  constructor
  · intro hsame
    refine ⟨(hsame _).mp ((h.roles _).mpr (.inr (.inl rfl))), fun hpass => ?_⟩
    exact (h.fresh hpass).1 ((hsame _).mp ((h.roles _).mpr (.inr (.inr ⟨hpass, rfl⟩))))
  · rintro ⟨hgroup, hpass⟩ n
    rw [h.roles]
    constructor
    · rintro (hn | rfl | ⟨hp, -⟩)
      · exact hn
      · exact hgroup
      · exact absurd hp hpass
    · exact .inl

theorem Enrolled.dropped_iff {r : Server} (h : Enrolled c s r)
    (hin : truthy c.dbPass ∨ c.dbUser.getD "" ∈ s.roles) :
    SameRoles s (r.dropRoles [c.dbUser.getD "", getGroupRole c.dbId]) ↔
      getGroupRole c.dbId ∉ s.roles ∧ truthy c.dbPass := by
  have hroles : ∀ n, n ∈ (r.dropRoles [c.dbUser.getD "", getGroupRole c.dbId]).roles ↔
      n ∈ s.roles ∧ n ≠ c.dbUser.getD "" ∧ n ≠ getGroupRole c.dbId := by
    intro n
    simp only [Server.dropRoles, List.mem_filter, h.roles, List.mem_cons, List.not_mem_nil, or_false,
      decide_eq_true_eq, not_or]
    constructor
    · rintro ⟨hn | hn | ⟨-, hn⟩, hne⟩
      · exact ⟨hn, hne⟩
      · exact absurd hn hne.2
      · exact absurd hn hne.1
    · exact fun hn => ⟨.inl hn.1, hn.2⟩
  constructor
  · intro hsame
    refine ⟨fun hgroup => ?_, ?_⟩
    · exact ((hroles _).mp ((hsame _).mpr hgroup)).2.2 rfl
    · rcases hin with hpass | huser
      · exact hpass
      · exact absurd rfl ((hroles _).mp ((hsame _).mpr huser)).2.1
  · rintro ⟨hgroup, hpass⟩ n
    rw [hroles]
    constructor
    · exact fun hn => hn.1
    · intro hn
      refine ⟨hn, ?_, ?_⟩
      · rintro rfl
        exact (h.fresh hpass).1 hn
      · rintro rfl
        exact hgroup hn

theorem user_eq {role : String} (hu : truthy c.dbUser = true) :
    c.dbUser.getD "" = role ↔ c.dbUser = some role := by
  cases huser : c.dbUser with
  | none => simp [huser, truthy] at hu
  | some user => simp

theorem roleBlocked_eq {r : Server}
    (hgroup : ∀ n, n ∈ r.roles ↔ n ∈ s.roles ∨ n = getGroupRole c.dbId) :
    (truthy c.dbPass && (c.fails .createRole || !truthy c.dbUser ||
      r.roles.contains (c.dbUser.getD ""))) = roleBlocked c s := by
  unfold roleBlocked
  cases hu : truthy c.dbUser with
  | false => simp
  | true =>
    have hcontains : r.roles.contains (c.dbUser.getD "") =
        (c.dbUser == some (getGroupRole c.dbId) || s.roles.contains (c.dbUser.getD "")) := by
      rw [Bool.eq_iff_iff, List.contains_iff_mem, hgroup, user_eq hu, Bool.or_eq_true,
        List.contains_iff_mem, beq_iff_eq]
      exact or_comm
    rw [hcontains, Bool.or_assoc _ (c.dbUser == _)]

theorem enrolled_of_open {r : Server}
    (hgroup : ∀ n, n ∈ r.roles ↔ n ∈ s.roles ∨ n = getGroupRole c.dbId)
    (hopen : roleBlocked c s = false) :
    Enrolled c s (if truthy c.dbPass then r.createRole (c.dbUser.getD "") else r) := by
  unfold roleBlocked at hopen
  cases hpass : truthy c.dbPass with
  | false =>
    refine ⟨fun n => ?_, fun hp => ?_⟩
    · simp [hgroup, hpass]
    · simp [hpass] at hp
  | true =>
    simp only [hpass, Bool.true_and, Bool.or_eq_false_iff, Bool.not_eq_false'] at hopen
    obtain ⟨⟨⟨-, hu⟩, hne⟩, hnew⟩ := hopen
    refine ⟨fun n => ?_, fun _ => ⟨by simpa using hnew, fun heq => ?_⟩⟩
    · rw [if_pos rfl, mem_createRole, hgroup, or_assoc]
      simp [hpass]
    · rw [(user_eq hu).mp heq] at hne
      simp at hne

theorem grantBlocked_eq {r : Server} (h : Enrolled c s r) :
    (c.fails .grantGroupRole || !truthy c.dbUser || c.dbUser == some (getGroupRole c.dbId) ||
      !r.roles.contains (c.dbUser.getD "")) = grantBlocked c s := by
  unfold grantBlocked
  cases hu : truthy c.dbUser with
  | false => simp
  | true =>
    cases hgroup : c.dbUser == some (getGroupRole c.dbId) with
    | true => simp
    | false =>
      have hne : c.dbUser.getD "" ≠ getGroupRole c.dbId := by
        intro heq
        rw [(user_eq hu).mp heq] at hgroup
        simp at hgroup
      have hcontains : r.roles.contains (c.dbUser.getD "") =
          (truthy c.dbPass || s.roles.contains (c.dbUser.getD "")) := by
        rw [Bool.eq_iff_iff, List.contains_iff_mem, h.roles, Bool.or_eq_true, List.contains_iff_mem]
        simp [hne, or_comm]
      rw [hcontains, Bool.not_or]

theorem wp_counting {Q : Connected → Connecting → Prop} {R : Connecting → Prop} {t : Connecting}
    {connected : Connected} (h : Within c s t.server)
    (hQ : ∀ u : Connecting, u.conn1 = t.conn1 → u.conn2 = t.conn2 →
      u.server.databases = t.server.databases → (Q connected u ↔ Q connected t)) :
    Wp (awaits c .getDbRecCount) (fun _ => Wp (runIf c.dbPregen.isNone (updateRecordCount c) >>=
      fun _ => pure connected) Q fun _ => R) (fun _ => R) t ↔
      if countBlocked c then R t else Q connected t := by
  rw [wp_awaits, wp_bind, wp_runIf]
  by_cases hpre : c.dbPregen.isNone = true
  · obtain ⟨user, huser, hin, honly⟩ := h.known hpre
    have hrow : ∃ db, t.server.iasqlDatabase c.dbId = some db := by
      have halias := (honly c.dbId hin).mpr rfl
      unfold Server.hasAlias at halias
      cases hdb : t.server.iasqlDatabase c.dbId with
      | none => simp [hdb] at halias
      | some db => exact ⟨db, rfl⟩
    obtain ⟨db, hdb⟩ := hrow
    let counted := t.server.saveDatabase c.dbId { db with recordCount := c.recCount }
    have hcounted := hQ { t with server := counted } rfl rfl rfl
    simp only [updateRecordCount, countBlocked, hpre, wp_bind, wp_awaits, wp_reads, hdb, wp_onServer,
      Bool.true_and, ↓reduceIte]
    rw [← ite_or_iff]
    refine ite_iff (fun _ => Iff.rfl) fun _ => ?_
    rw [← ite_or_iff]
    exact ite_iff (fun _ => Iff.rfl) fun _ => ite_iff (fun _ => Iff.rfl) fun _ => hcounted
  · simp only [countBlocked, hpre, Bool.false_and, Bool.or_false, Bool.false_eq_true, ↓reduceIte]
    exact Iff.rfl

theorem connect_leaves_untouched_iff : LeavesUntouched c s ↔ Compensable c s := by
  have hunsaved : ∀ r, r.databases = s.databases → r.roles = s.roles → r.iasqlUser = s.iasqlUser →
      Recovers c s { server := r, dbUser := c.dbUser } := by
    intro r hdatabases hroles husers
    refine (recovers_unsaved rfl rfl).mpr ⟨⟨fun n => by rw [hdatabases], fun n => by rw [hroles]⟩, ?_⟩
    intro u n hn
    simpa [Server.Associated, husers] using hn
  rw [leaves_iff, connectBody, wp_bind, wp_writes, wp_bind, wp_saving (hunsaved _ rfl rfl rfl)
    (hunsaved _ rfl rfl rfl), Compensable]
  refine ite_iff (fun _ => Iff.rfl) fun hsave => ?_
  have hwithin := within_afterSave (eq_false_of_ne_true hsave)
  have hdatabases : (afterSave c s).databases = s.databases := by
    unfold afterSave; split <;> rfl
  have hroles : (afterSave c s).roles = s.roles := by
    unfold afterSave; split <;> rfl
  generalize afterSave c s = r at hwithin hdatabases hroles
  have hsame : SameNames s r := ⟨fun n => by rw [hdatabases], fun n => by rw [hroles]⟩
  rw [wp_bind, wp_writes, wp_bind, wp_awaits]
  refine ite_iff (fun _ => ?_) fun _ => ?_
  · rw [recovers_unconnected hwithin rfl rfl]
    exact and_iff_right hsame
  rw [wp_bind, wp_writes, wp_bind, wp_createDatabase]
  simp only [hdatabases]
  refine ite_iff (fun _ => ?_) fun hcreate => ?_
  · rw [recovers_ungranted hwithin rfl rfl rfl]
    have hdrop : SameNames s (r.dropDatabase c.dbId) ↔ c.dbId ∉ s.databases := by
      rw [← sameNames_drop]
      constructor
      · exact fun h => ⟨fun n => by simpa [Server.dropDatabase, hdatabases] using h.databases n,
          fun _ => Iff.rfl⟩
      · exact fun h => ⟨fun n => by simpa [Server.dropDatabase, hdatabases] using h.databases n,
          hsame.roles⟩
    cases c.fails .dropDatabase with
    | true => simp [hsame]
    | false => simp [hdrop]
  have hnew : c.dbId ∉ s.databases := by
    intro hin
    exact hcreate (by simp [hin])
  have hdb : (r.createDatabase c.dbId).databases = s.databases ++ [c.dbId] := by
    rw [← hdatabases]; rfl
  have hcreated : Within c s (r.createDatabase c.dbId) := ⟨hwithin.known, hwithin.associated⟩
  have hfill : fillSteps.any c.fails = (c.fails .connectDatabase ||
      [ConnectStep.migrate, .createHttp, .setUpDblink, .schedule, .schedulePurge].any c.fails ||
      c.fails .createGroupRole) := by
    simp [fillSteps, Bool.or_assoc]
  rw [wp_bind, wp_awaits, recovers_created hcreated hnew hdb rfl rfl rfl, wp_bind, wp_writes, wp_bind,
    wp_awaits_each, recovers_created hcreated hnew hdb rfl rfl rfl, wp_bind, wp_awaits,
    recovers_created hcreated hnew hdb rfl rfl rfl, ite_or_iff, ite_or_iff, hfill, Bool.or_assoc]
  refine ite_iff (fun _ => ?_) fun _ => ?_
  · exact and_congr_right fun _ => and_iff_right hsame.roles
  rw [wp_bind, wp_onServer, wp_bind, wp_newRole]
  have hgroup : ∀ n, n ∈ ((r.createDatabase c.dbId).createRole (getGroupRole c.dbId)).roles ↔
      n ∈ s.roles ∨ n = getGroupRole c.dbId := by
    intro n
    rw [mem_createRole, ← hroles]
    rfl
  rw [roleBlocked_eq hgroup]
  refine ite_iff (fun _ => ?_) fun hopen => ?_
  · rw [recovers_created ⟨hwithin.known, hwithin.associated⟩ hnew hdb rfl rfl rfl]
    have honly : SameRoles s ((r.createDatabase c.dbId).createRole (getGroupRole c.dbId)) ↔
        getGroupRole c.dbId ∈ s.roles := by
      constructor
      · exact fun h => (h _).mp ((hgroup _).mpr (.inr rfl))
      · rintro h n
        rw [hgroup]
        constructor
        · rintro (hn | rfl)
          · exact hn
          · exact h
        · exact .inl
    rw [honly]
  have henrolled := enrolled_of_open hgroup (eq_false_of_ne_true hopen)
  let grouped := (r.createDatabase c.dbId).createRole (getGroupRole c.dbId)
  obtain ⟨r', hr'⟩ : ∃ r', r' =
      if truthy c.dbPass then grouped.createRole (c.dbUser.getD "") else grouped := ⟨_, rfl⟩
  rw [← hr'] at henrolled
  have hlast : Within c s r' ∧ r'.databases = s.databases ++ [c.dbId] := by
    rw [hr']
    split
    · exact ⟨⟨hwithin.known, hwithin.associated⟩, hdb⟩
    · exact ⟨⟨hwithin.known, hwithin.associated⟩, hdb⟩
  obtain ⟨hcreated', hdb'⟩ := hlast
  simp only [← hr', grouped]
  rw [wp_bind, wp_grant, grantBlocked_eq henrolled]
  refine ite_iff (fun _ => ?_) fun hgrant => ?_
  · rw [recovers_created hcreated' hnew hdb' rfl rfl rfl, henrolled.sameRoles_iff, and_assoc]
  simp only [wp_bind, wp_writes]
  have hkept : ∀ u : Connecting, u.conn1 = true → u.conn2 = true →
      u.server.databases = s.databases ++ [c.dbId] →
      (Wp (closeAll c) (fun _ _ => True) (fun _ u => Untouched s u.server) u ↔
        ¬ c.fails .closeBase ∧ ¬ c.fails .closeDatabase) := by
    intro u h1 h2 h3
    have hno : ¬ Untouched s u.server := fun h => sameNames_created hnew (by simp [h3]) h.toSameNames
    rw [wp_closeAll_thrown h1 h2]
    simp [hno]
  refine Iff.trans (wp_counting (s := s) ?_ ?_) ?_
  · exact hcreated'
  · intro u h1 h2 h3
    exact (hkept u h1 h2 (h3.trans hdb')).trans (hkept _ rfl rfl hdb').symm
  refine ite_iff (fun _ => ?_) fun _ => hkept _ rfl rfl hdb'
  have huser : truthy c.dbUser = true ∧ (truthy c.dbPass ∨ c.dbUser.getD "" ∈ s.roles) := by
    simp only [grantBlocked, Bool.or_eq_true, Bool.and_eq_true, Bool.not_eq_true', not_or, not_and,
      Bool.not_eq_false, List.contains_iff_mem] at hgrant
    refine ⟨hgrant.1.1.2, ?_⟩
    cases hpass : truthy c.dbPass with
    | true => exact .inl rfl
    | false => exact .inr (hgrant.2 hpass)
  rw [recovers_granted_created hcreated' hnew hdb' rfl rfl rfl huser.1, henrolled.sameRoles_iff,
    henrolled.dropped_iff huser.2, and_assoc]

-- without multiUser the identifier is the alias, which another user has taken
def takenAlias : ConnectCall where
  dbAlias := "db"
  uid := "bob"
  email := "bob@iasql.com"
  dbId := genDbId false "0123456789abcdef" "db"
  generated := ("qwertyui", "secret")
  fault _ := none

def takenServer : Server where
  databases := ["postgres", "iasql_metadata", "db"]
  roles := ["asdfghjk", "group_role_db"]
  iasqlDatabase := Function.update (fun _ => none) "db" (some { dbAlias := "db", pgUser := "asdfghjk" })
  iasqlUser := Function.update (fun _ => none) "alice"
    (some { email := "alice@iasql.com", iasqlDatabases := ["db"] })

theorem taken_alias_drops_database : ¬ LeavesUntouched takenAlias takenServer := by
  intro h
  have hrun : (connect takenAlias { server := takenServer }).1 =
      .thrown (.error "database \"db\" already exists") := by decide +kernel
  have hkept := ((h _ _ (run_eq hrun)).databases "db").mpr (by decide +kernel)
  revert hkept
  decide +kernel

end Verdict

end Iasql
