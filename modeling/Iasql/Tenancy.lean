import Iasql.Disconnect

namespace Iasql.Lifecycle

open Program Prog Frame Runs

section Servers

variable {s : Server} {n m u : String}

theorem getGroupRole_inj (h : getGroupRole n = getGroupRole m) : n = m := by
  have hlist : ("group_role_" ++ n).toList = ("group_role_" ++ m).toList :=
    congrArg String.toList h
  rwa [String.toList_append, String.toList_append, List.append_cancel_left_eq,
    String.toList_inj] at hlist

theorem hasAlias_iff {dbAlias : String} : s.hasAlias dbAlias n = true ↔
    ∃ db, s.iasqlDatabase n = some db ∧ db.dbAlias = dbAlias := by
  rw [Server.hasAlias]
  cases s.iasqlDatabase n <;> simp

theorem associated_saveDatabase {db : IasqlDatabase} :
    (s.saveDatabase m db).Associated u n ↔ s.Associated u n := Iff.rfl

theorem saveDatabase_get {db : IasqlDatabase} :
    (s.saveDatabase m db).iasqlDatabase n = if n = m then some db else s.iasqlDatabase n :=
  Function.update_apply ..

theorem removeDatabase_get : (s.removeDatabase m).iasqlDatabase n =
    if n = m then none else s.iasqlDatabase n := Function.update_apply ..

end Servers

section Ledgers

variable {s t : Server} {c : ConnectCall} {n : String}

theorem Ledger.shrink (h : Ledger s) (hrows : t.iasqlDatabase = s.iasqlDatabase)
    (hsub : ∀ u n, t.Associated u n → s.Associated u n) : Ledger t where
  joined u n hn := by
    rw [hrows]
    exact h.joined u n (hsub u n hn)
  logins := by
    rw [hrows]
    exact h.logins
  distinct := by
    rw [hrows]
    exact h.distinct
  aliases u n m db db' hn hm := by
    rw [hrows]
    exact h.aliases u n m db db' (hsub u n hn) (hsub u m hm)

theorem Ledger.remove (h : Ledger s) : Ledger (s.removeDatabase n) := by
  have hkept : ∀ m db, (s.removeDatabase n).iasqlDatabase m = some db →
      s.iasqlDatabase m = some db := by
    intro m db hm
    rw [removeDatabase_get] at hm
    split at hm
    · cases hm
    · exact hm
  constructor
  · intro u m hm
    obtain ⟨hm, hne⟩ := associated_removeDatabase.mp hm
    rw [removeDatabase_get, if_neg hne]
    exact h.joined u m hm
  · exact fun m db hm => h.logins m db (hkept m db hm)
  · exact fun m m' db db' hm hm' => h.distinct m m' db db' (hkept m db hm) (hkept m' db' hm')
  · intro u m m' db db' hu hu' hm hm'
    exact h.aliases u m m' db db' (associated_removeDatabase.mp hu).1
      (associated_removeDatabase.mp hu').1 (hkept m db hm) (hkept m' db' hm')

-- only the number of records changes
theorem Ledger.recount {db : IasqlDatabase} (h : Ledger s) (hdb : s.iasqlDatabase n = some db)
    (count : Nat) : Ledger (s.saveDatabase n { db with recordCount := count }) := by
  have hkept : ∀ m row, (s.saveDatabase n { db with recordCount := count }).iasqlDatabase m =
      some row → ∃ old, s.iasqlDatabase m = some old ∧ old.pgUser = row.pgUser ∧
        old.dbAlias = row.dbAlias := by
    intro m row hm
    rw [saveDatabase_get] at hm
    split at hm
    · next heq =>
      cases hm
      exact ⟨db, heq ▸ hdb, rfl, rfl⟩
    · exact ⟨row, hm, rfl, rfl⟩
  constructor
  · intro u m hm
    have hsome := h.joined u m hm
    rw [saveDatabase_get]
    split
    · rfl
    · exact hsome
  · intro m row hm
    obtain ⟨old, hold, huser, -⟩ := hkept m row hm
    exact huser ▸ h.logins m old hold
  · intro m m' row row' hm hm' heq
    obtain ⟨old, hold, huser, -⟩ := hkept m row hm
    obtain ⟨old', hold', huser', -⟩ := hkept m' row' hm'
    exact h.distinct m m' old old' hold hold' (by rw [huser, huser', heq])
  · intro u m m' row row' hu hu' hm hm' heq
    obtain ⟨old, hold, -, halias⟩ := hkept m row hm
    obtain ⟨old', hold', -, halias'⟩ := hkept m' row' hm'
    exact h.aliases u m m' old old' hu hu' hold hold' (by rw [halias, halias', heq])

theorem dbUser_of_fresh (h : Fresh c s) : c.dbUser.getD "" = c.generated.1 := by
  simp [ConnectCall.dbUser, ConnectCall.dbGen, h.pregen]

theorem Ledger.withDatabase (h : Ledger s) (hfresh : Fresh c s) : Ledger (withDatabase c s) := by
  have hrow : ∀ m row, (Iasql.withDatabase c s).iasqlDatabase m = some row →
      m = c.dbId ∧ row.pgUser = c.generated.1 ∨ m ≠ c.dbId ∧ s.iasqlDatabase m = some row := by
    intro m row hm
    rw [Iasql.withDatabase, saveDatabase_get] at hm
    split at hm
    · next heq =>
      cases hm
      exact .inl ⟨heq, dbUser_of_fresh hfresh⟩
    · next hne => exact .inr ⟨hne, hm⟩
  constructor
  · intro u m hm
    have hsome := h.joined u m hm
    rw [Iasql.withDatabase, saveDatabase_get]
    split
    · rfl
    · exact hsome
  · intro m row hm
    rcases hrow m row hm with ⟨-, huser⟩ | ⟨-, hm⟩
    · exact fun k => huser ▸ hfresh.group k
    · exact h.logins m row hm
  · intro m m' row row' hm hm' heq
    rcases hrow m row hm with ⟨rfl, huser⟩ | ⟨-, hm⟩ <;>
      rcases hrow m' row' hm' with ⟨rfl, huser'⟩ | ⟨-, hm'⟩
    · rfl
    · exact absurd (heq.symm.trans huser) (hfresh.user m' row' hm')
    · exact absurd (heq.trans huser') (hfresh.user m row hm)
    · exact h.distinct m m' row row' hm hm' heq
  · intro u m m' row row' hu hu' hm hm' heq
    have hne : ∀ k, s.Associated u k → k ≠ c.dbId := by
      rintro k hk rfl
      have hsome := h.joined u c.dbId hk
      rw [hfresh.row] at hsome
      cases hsome
    rcases hrow m row hm with ⟨hm, -⟩ | ⟨-, hm⟩
    · exact absurd hm (hne m hu)
    · rcases hrow m' row' hm' with ⟨hm', -⟩ | ⟨-, hm'⟩
      · exact absurd hm' (hne m' hu')
      · exact h.aliases u m m' row row' hu hu' hm hm' heq

theorem associated_withUser {u : String} : (withUser c s).Associated u n ↔
    s.Associated u n ∨ u = c.uid ∧ n = c.dbId := by
  rw [withUser, associated_saveUser]
  split
  · next hu =>
    subst hu
    cases huser : s.iasqlUser c.uid <;> simp [Server.Associated, huser]
  · next hu => simp [hu, Iasql.withDatabase, associated_saveDatabase]

theorem aliasTaken_iff : aliasTaken c s = true ↔
    ∃ n, s.Associated c.uid n ∧ s.hasAlias c.dbAlias n = true := by
  rw [aliasTaken, Option.any_eq_true]
  simp only [List.any_eq_true, Server.Associated]
  constructor
  · rintro ⟨user, huser, n, hn, halias⟩
    exact ⟨n, ⟨user, huser, hn⟩, halias⟩
  · rintro ⟨n, ⟨user, huser, hn⟩, halias⟩
    exact ⟨user, huser, n, hn, halias⟩

theorem Ledger.withUser (h : Ledger s) (hfresh : Fresh c s) (htaken : aliasTaken c s = false) :
    Ledger (withUser c s) := by
  have hbase := h.withDatabase hfresh
  have hget : ∀ m, (Iasql.withUser c s).iasqlDatabase m =
      (Iasql.withDatabase c s).iasqlDatabase m := fun _ => rfl
  have hnew : (Iasql.withDatabase c s).iasqlDatabase c.dbId =
      some { dbAlias := c.dbAlias, pgUser := c.dbUser.getD "" } := by
    rw [Iasql.withDatabase, saveDatabase_get, if_pos rfl]
  -- no other database of the user has the alias
  have hold : ∀ m row, s.Associated c.uid m →
      (Iasql.withDatabase c s).iasqlDatabase m = some row → row.dbAlias ≠ c.dbAlias := by
    intro m row hm hrow halias
    have hne : m ≠ c.dbId := by
      rintro rfl
      have hsome := h.joined c.uid c.dbId hm
      rw [hfresh.row] at hsome
      cases hsome
    rw [Iasql.withDatabase, saveDatabase_get, if_neg hne] at hrow
    have htrue := aliasTaken_iff.mpr ⟨m, hm, hasAlias_iff.mpr ⟨row, hrow, halias⟩⟩
    rw [htaken] at htrue
    cases htrue
  constructor
  · intro u m hm
    rw [hget]
    rcases associated_withUser.mp hm with hm | ⟨-, rfl⟩
    · exact hbase.joined u m hm
    · rw [hnew]
      rfl
  · exact hbase.logins
  · exact hbase.distinct
  · intro u m m' row row' hu hu' hm hm' heq
    rw [hget] at hm hm'
    rcases associated_withUser.mp hu with hu | ⟨rfl, rfl⟩ <;>
      rcases associated_withUser.mp hu' with hu' | ⟨hu'', rfl⟩
    · exact hbase.aliases u m m' row row' hu hu' hm hm' heq
    · subst hu''
      rw [hnew] at hm'
      cases hm'
      exact absurd heq (hold m row hu hm)
    · rw [hnew] at hm
      cases hm
      exact absurd heq.symm (hold m' row' hu' hm')
    · rfl

end Ledgers

section Frames

-- what a call makes of the server alone
def atServer (F : Frame Server) : Frame Connecting where
  rel s t := F.rel s.server t.server
  refl s := F.refl s.server
  trans h h' := F.trans h h'

variable {F : Frame Server} {c : ConnectCall} {s : Server} {t : Connecting}

theorem keeps_awaits {F : Frame Connecting} (step : ConnectStep) : F.Keeps (awaits c step) := by
  unfold awaits
  split
  · exact keeps_fail _
  · exact keeps_pure ()

theorem keeps_onServer {f : Server → Server} (h : ∀ s, F.rel s (f s)) :
    (atServer F).Keeps (onServer f) := keeps_writes fun s => h s.server

theorem keeps_flags {f : Connecting → Connecting} (h : ∀ s, (f s).server = s.server) :
    (atServer F).Keeps (Prog.writes f : Prog Connecting Thrown Unit) := keeps_writes fun s => by
  change F.rel s.server (f s).server
  rw [h]
  exact F.refl _

theorem keeps_runIf {F : Frame Connecting} {p : Prog Connecting Thrown Unit} (b : Bool)
    (h : F.Keeps p) : F.Keeps (Prog.runIf b p) := keeps_ite h (keeps_pure ())

-- what connect does to the server once the metadata are saved
structure Tolerates (F : Frame Server) (c : ConnectCall) : Prop where
  createDatabase : ∀ s, F.rel s (s.createDatabase c.dbId)
  dropDatabase : ∀ s, F.rel s (s.dropDatabase c.dbId)
  createGroup : ∀ s, F.rel s (s.createRole (getGroupRole c.dbId))
  createLogin : ∀ s, F.rel s (s.createRole (c.dbUser.getD ""))
  dropRoles : ∀ s, F.rel s (s.dropRoles [c.dbUser.getD "", getGroupRole c.dbId])
  count : (atServer F).Keeps (updateRecordCount c)
  delDb : (atServer F).Keeps (Iasql.delDb c)

theorem Tolerates.dropAll (h : Tolerates F c) : (atServer F).Keeps (Iasql.dropAll c) := by
  refine keeps_bind (keeps_reads _) fun s => ?_
  refine keeps_bind (keeps_runIf _ ?_) fun _ => keeps_bind (keeps_runIf _ ?_) fun _ =>
    keeps_runIf _ h.delDb
  · exact keeps_bind (keeps_awaits _) fun _ => keeps_onServer h.dropDatabase
  · exact keeps_bind (keeps_awaits _) fun _ => keeps_onServer h.dropRoles

theorem keeps_closeAll : (atServer F).Keeps (closeAll c) :=
  keeps_bind (keeps_reads _) fun _ =>
    keeps_bind (keeps_runIf _ (keeps_awaits _)) fun _ => keeps_runIf _ (keeps_awaits _)

theorem Tolerates.creating (h : Tolerates F c) : (atServer F).Keeps (Iasql.createDatabase c) := by
  refine keeps_bind (keeps_awaits _) fun _ => keeps_bind (keeps_reads _) fun _ => ?_
  exact keeps_ite (keeps_fail _) (keeps_onServer h.createDatabase)

theorem Tolerates.login (h : Tolerates F c) : (atServer F).Keeps (newPostgresRole c) := by
  refine keeps_bind (keeps_awaits _) fun _ => keeps_bind (keeps_reads _) fun _ => ?_
  exact keeps_ite (keeps_fail _) (keeps_ite (keeps_fail _) (keeps_onServer h.createLogin))

theorem keeps_grant : (atServer F).Keeps (grantPostgresGroupRole c) := by
  refine keeps_bind (keeps_awaits _) fun _ => keeps_bind (keeps_reads _) fun _ => ?_
  split
  · exact keeps_fail _
  · exact keeps_ite (keeps_fail _) (keeps_pure ())

theorem ends_still {α : Type} {P Q : Connecting → Prop} {p : Prog Connecting Thrown α}
    (h : (Frame.ofField id).Keeps p) (hQ : ∀ s, P s → Q s) : Ends P p (fun _ => P) Q := by
  have hends : Ends P p (fun _ => P) P := ends_of_keeps h fun s t hs ht => by
    rw [show t = s from ht]
    exact hs
  exact hends.mono (fun _ h => h) (fun _ _ h => h) hQ

theorem ends_awaits {P Q : Connecting → Prop} {step : ConnectStep} (hQ : ∀ s, P s → Q s) :
    Ends P (awaits c step) (fun _ => P) Q := ends_still (keeps_awaits step) hQ

theorem ends_saveDb (st : Connecting) : Ends (· = st) (saveDb c)
    (fun _ u => aliasTaken c st.server = false ∧ u = { st with server := withUser c st.server })
    (fun u => u = st ∨ aliasTaken c st.server = false ∧
      u = { st with server := withDatabase c st.server }) := by
  refine ends_bind (ends_awaits fun u hu => .inl hu) fun _ => ?_
  intro u hu
  rw [hu, Prog.reads_bind_apply]
  cases htaken : aliasTaken c st.server with
  | true =>
    rw [aliasTaken] at htaken
    rw [if_pos htaken]
    exact .inl rfl
  | false =>
    have hnot : ¬ ((st.server.iasqlUser c.uid).any fun u =>
        u.iasqlDatabases.any (st.server.hasAlias c.dbAlias)) = true := by
      simpa [aliasTaken] using htaken
    rw [if_neg hnot]
    have hrest : Ends (· = st) (do
        awaits c .saveDatabase
        onServer fun s => s.saveDatabase c.dbId
          { dbAlias := c.dbAlias, pgUser := c.dbUser.getD "" }
        awaits c .saveUser
        let saved := (st.server.iasqlUser c.uid).getD { email := c.email, iasqlDatabases := [] }
        onServer fun s => s.saveUser c.uid
          { saved with iasqlDatabases := saved.iasqlDatabases ++ [c.dbId] })
        (fun _ u => u = { st with server := withUser c st.server })
        (fun u => u = st ∨ u = { st with server := withDatabase c st.server }) := by
      refine ends_bind (ends_awaits fun u hu => .inl hu) fun _ => ?_
      refine ends_bind (R := fun _ u => u = { st with server := withDatabase c st.server }) ?_
        fun _ => ends_bind (ends_awaits fun u hu => .inr hu) fun _ => ?_
      · rintro _ rfl
        rfl
      · rintro _ rfl
        rfl
    refine (hrest.mono (fun _ h => h) (fun _ u hu => ⟨rfl, hu⟩) fun u hu => ?_) st rfl
    exact hu.imp_right fun h => ⟨rfl, h⟩

-- where the metadata are saved, or nothing is there to be undone
def Underway (F : Frame Server) (c : ConnectCall) (s : Server) (t : Connecting) : Prop :=
  F.rel s t.server ∧ (aliasTaken c s = false ∨ t.dbSaved = false ∧ t.roleGranted = false)

theorem underway_of_keeps {α : Type} {p : Prog Connecting Thrown α} (h : (atServer F).Keeps p) :
    Ends (fun t => F.rel s t.server ∧ aliasTaken c s = false) p
      (fun _ t => F.rel s t.server ∧ aliasTaken c s = false) (Underway F c s) := by
  have hends : Ends (fun t => F.rel s t.server ∧ aliasTaken c s = false) p
      (fun _ t => F.rel s t.server ∧ aliasTaken c s = false)
      (fun t => F.rel s t.server ∧ aliasTaken c s = false) :=
    ends_of_keeps h fun _ _ hs hrel => ⟨F.trans hs.1 hrel, hs.2⟩
  exact hends.mono (fun _ h => h) (fun _ _ h => h) fun _ h => ⟨h.1, .inl h.2⟩

theorem ends_connectBody (hpre : c.dbPregen = none)
    (h : aliasTaken c s = false → Tolerates F c)
    (hdb : aliasTaken c s = false → F.rel s (withDatabase c s))
    (huser : aliasTaken c s = false → F.rel s (withUser c s)) :
    Ends (· = { server := s }) (connectBody c) (fun _ => Underway F c s) (Underway F c s) := by
  refine ends_bind (R := fun _ t => t = { server := s, dbUser := c.dbUser }) ?_ fun _ => ?_
  · rintro _ rfl
    rfl
  have hsave : Ends (· = { server := s, dbUser := c.dbUser })
      (Prog.runIf c.dbPregen.isNone (saveDb c))
      (fun _ t => F.rel s t.server ∧ aliasTaken c s = false) (Underway F c s) := by
    rw [hpre]
    refine (ends_saveDb _).mono (fun _ ht => ht) ?_ ?_
    · rintro - _ ⟨htaken, rfl⟩
      exact ⟨huser htaken, htaken⟩
    · rintro _ (rfl | ⟨htaken, rfl⟩)
      · exact ⟨F.refl s, .inr ⟨rfl, rfl⟩⟩
      · exact ⟨hdb htaken, .inl htaken⟩
  refine ends_bind hsave fun _ => ?_
  cases htaken : aliasTaken c s with
  | true =>
    rintro t ⟨-, hfalse⟩
    cases hfalse
  | false =>
    have htol := h htaken
    have hrest : (atServer F).Keeps (do
        Prog.writes fun s => { s with dbSaved := true }
        awaits c .connectBase
        Prog.writes fun s => { s with conn1 := true }
        createDatabase c
        awaits c .connectDatabase
        Prog.writes fun s => { s with conn2 := true }
        Prog.each (awaits c) [.migrate, .createHttp, .setUpDblink, .schedule, .schedulePurge]
        awaits c .createGroupRole
        onServer fun s => s.createRole (getGroupRole c.dbId)
        Prog.runIf (truthy c.dbPass) (newPostgresRole c)
        grantPostgresGroupRole c
        Prog.writes fun s => { s with roleGranted := true }
        awaits c .getDbRecCount
        Prog.runIf c.dbPregen.isNone (updateRecordCount c)
        return ({ user := c.dbUser, password := c.dbPass, recordCount := c.recCount,
                  dbAlias := c.dbAlias, id := c.dbId } : Connected)) := by
      refine keeps_bind (keeps_flags fun _ => rfl) fun _ => ?_
      refine keeps_bind (keeps_awaits _) fun _ => keeps_bind (keeps_flags fun _ => rfl) fun _ => ?_
      refine keeps_bind htol.creating fun _ => keeps_bind (keeps_awaits _) fun _ => ?_
      refine keeps_bind (keeps_flags fun _ => rfl) fun _ => ?_
      refine keeps_bind (keeps_each fun step _ => keeps_awaits step) fun _ => ?_
      refine keeps_bind (keeps_awaits _) fun _ => ?_
      refine keeps_bind (keeps_onServer htol.createGroup) fun _ => ?_
      refine keeps_bind (keeps_runIf _ htol.login) fun _ => keeps_bind keeps_grant fun _ => ?_
      refine keeps_bind (keeps_flags fun _ => rfl) fun _ => keeps_bind (keeps_awaits _) fun _ => ?_
      exact keeps_bind (keeps_runIf _ htol.count) fun _ => keeps_pure _
    have hends := underway_of_keeps (s := s) (c := c) hrest
    rw [htaken] at hends
    exact hends.mono (fun _ h => h) (fun _ t ht => ⟨ht.1, .inl htaken⟩) fun _ h => h

theorem dropAll_unsaved (hsaved : t.dbSaved = false) (hgranted : t.roleGranted = false) :
    dropAll c t = (.returned (), t) := by
  unfold dropAll
  rw [Prog.reads_bind_apply, hsaved, hgranted]
  simp only [Bool.false_and, Bool.and_false]
  rfl

-- what a call of connect does to the server, whatever fails
theorem rel_connect (hpre : c.dbPregen = none) (h : aliasTaken c s = false → Tolerates F c)
    (hdb : aliasTaken c s = false → F.rel s (withDatabase c s))
    (huser : aliasTaken c s = false → F.rel s (withUser c s)) :
    F.rel s (connect c { server := s }).2.server := by
  have hbody : Underway F c s (connectBody c { server := s }).2 :=
    (ends_connectBody hpre h hdb huser).snd rfl
  have hattempt : (atServer F).rel { server := s } ((connectBody c).attempt { server := s }).2 :=
    rel_attempt.mpr hbody.1
  refine rel_lastly (F := atServer F) (rel_bind hattempt fun r t hrun => ?_) keeps_closeAll
  cases r with
  | ok connected => exact (atServer F).refl t
  | error e =>
    have hthrown := attempt_error.mp hrun
    rw [hthrown] at hbody
    refine rel_bind ?_ fun _ u _ => (atServer F).refl u
    rcases hbody.2 with htaken | ⟨hsaved, hgranted⟩
    · exact (h htaken).dropAll t
    · change F.rel t.server (dropAll c t).2.server
      rw [dropAll_unsaved hsaved hgranted]
      exact F.refl _

end Frames

section Calls

variable {F : Frame Server} {c : ConnectCall} {s : Server} {t : Connecting}

-- a database that a user knows by an alias
def Known (s : Server) (uid dbAlias name : String) (db : IasqlDatabase) : Prop :=
  s.Associated uid name ∧ s.iasqlDatabase name = some db ∧ db.dbAlias = dbAlias

theorem known_of_found {user : IasqlUser} {uid dbAlias : String} {p : String × IasqlDatabase}
    (huser : s.iasqlUser uid = some user) (h : found s user dbAlias = some p) :
    Known s uid dbAlias p.1 p.2 := by
  have halias := List.find?_some h
  obtain ⟨n, hn, hrow⟩ := List.mem_filterMap.mp (List.mem_of_find?_eq_some h)
  obtain ⟨db, hdb, rfl⟩ := Option.map_eq_some_iff.mp hrow
  exact ⟨⟨user, huser, hn⟩, hdb, by simpa using halias⟩

-- a user without the databases of an alias
def forgotten (s : Server) (c : ConnectCall) (user : IasqlUser) : Server :=
  s.saveUser c.uid (remainingUser c s user)

theorem ends_delDb (st : Connecting) : Ends (· = st) (delDb c)
    (fun _ t => ∃ user n db, st.server.iasqlUser c.uid = some user ∧
      Known st.server c.uid c.dbAlias n db ∧
      t.server = (forgotten st.server c user).removeDatabase n)
    (fun t => t.server = st.server ∨
      ∃ user, st.server.iasqlUser c.uid = some user ∧ t.server = forgotten st.server c user) := by
  refine ends_bind (ends_awaits fun u hu => .inl (congrArg _ hu)) fun _ => ?_
  intro t ht
  rw [ht, Prog.reads_bind_apply]
  cases huser : st.server.iasqlUser c.uid with
  | none => exact .inl rfl
  | some user =>
    cases hfind : user.iasqlDatabases.find? (st.server.hasAlias c.dbAlias) with
    | none =>
      simp only [hfind]
      exact .inl rfl
    | some n =>
      simp only [hfind]
      obtain ⟨db, hdb, halias⟩ := hasAlias_iff.mp (List.find?_some hfind)
      have hknown : Known st.server c.uid c.dbAlias n db :=
        ⟨⟨user, huser, List.mem_of_find?_eq_some hfind⟩, hdb, halias⟩
      have hrest : Ends (· = st) (do
          awaits c .saveRemainingUser
          onServer fun s => s.saveUser c.uid { user with
            iasqlDatabases := user.iasqlDatabases.filter fun n =>
              !st.server.hasAlias c.dbAlias n }
          awaits c .removeDatabase
          onServer fun s => s.removeDatabase n)
          (fun _ t => t.server = (forgotten st.server c user).removeDatabase n)
          (fun t => t.server = st.server ∨ t.server = forgotten st.server c user) := by
        refine ends_bind (ends_awaits fun u hu => .inl (congrArg _ hu)) fun _ => ?_
        refine ends_bind (R := fun _ u => u.server = forgotten st.server c user) ?_ fun _ =>
          ends_bind (ends_awaits fun u hu => .inr hu) fun _ => ?_
        · rintro _ rfl
          rfl
        · intro u hu
          change u.server.removeDatabase n = _
          rw [hu]
      refine (hrest.mono (fun _ h => h) (fun _ u hu => ?_) fun u hu => ?_) st rfl
      · exact ⟨user, n, db, rfl, hknown, hu⟩
      · exact hu.imp_right fun h => ⟨user, rfl, h⟩

theorem rel_delDb (hforget : ∀ s user, s.iasqlUser c.uid = some user → F.rel s (forgotten s c user))
    (hremove : ∀ s user n db, s.iasqlUser c.uid = some user → Known s c.uid c.dbAlias n db →
      F.rel s ((forgotten s c user).removeDatabase n)) : (atServer F).Keeps (delDb c) := by
  intro st
  refine ((ends_delDb (c := c) st).mono (fun _ h => h) ?_ ?_).snd rfl
  · rintro - u ⟨user, n, db, huser, hknown, hu⟩
    change F.rel st.server u.server
    rw [hu]
    exact hremove _ user n db huser hknown
  · rintro u (hu | ⟨user, huser, hu⟩)
    · change F.rel st.server u.server
      rw [hu]
      exact F.refl _
    · change F.rel st.server u.server
      rw [hu]
      exact hforget _ user huser

theorem keeps_count (h : ∀ s db, s.iasqlDatabase c.dbId = some db →
    F.rel s (s.saveDatabase c.dbId { db with recordCount := c.recCount })) :
    (atServer F).Keeps (updateRecordCount c) := by
  refine keeps_bind (keeps_awaits _) fun _ => ?_
  intro st
  rw [Prog.reads_bind_apply]
  cases hdb : st.server.iasqlDatabase c.dbId with
  | none => exact (atServer F).refl st
  | some db =>
    refine rel_bind (keeps_awaits _ _) fun _ u hu => ?_
    have hsame : u = st := by
      unfold awaits at hu
      cases hfault : c.fault .saveRecordCount <;> rw [hfault] at hu <;> cases hu
      rfl
    subst hsame
    exact h _ db hdb

variable {d : DisconnectCall}

theorem ends_getDb (st : Connecting) : Ends (· = st) (getDb d)
    (fun p t => t = st ∧ Known st.server d.uid d.dbAlias p.1 p.2) (· = st) := by
  intro t ht
  rw [ht, getDb]
  cases d.fault .getDb with
  | some e => rfl
  | none =>
    rw [Prog.check_none_bind, Prog.reads_bind_apply]
    cases huser : st.server.iasqlUser d.uid with
    | none => rfl
    | some user =>
      cases hfound : found st.server user d.dbAlias with
      | none =>
        simp only [hfound]
        rfl
      | some p =>
        simp only [hfound]
        exact ⟨rfl, known_of_found huser hfound⟩

-- what disconnect does to the server once it knows the database
structure Releases (F : Frame Server) (d : DisconnectCall) (n : String) (db : IasqlDatabase) :
    Prop where
  dropDatabase : ∀ s, F.rel s (s.dropDatabase n)
  dropRoles : ∀ s, F.rel s (s.dropRoles [db.pgUser, getGroupRole n])
  delDb : (atServer F).Keeps (delDb d.deletion)

theorem keeps_requireDatabase {F : Frame Connecting} (n : String) : F.Keeps (requireDatabase n) :=
  keeps_bind (keeps_reads _) fun _ => keeps_ite (keeps_pure ()) (keeps_fail _)

theorem keeps_requireRole {F : Frame Connecting} (n : String) : F.Keeps (requireRole n) :=
  keeps_bind (keeps_reads _) fun _ => keeps_ite (keeps_pure ()) (keeps_fail _)

theorem rel_disconnect (h : ∀ n db, Known s d.uid d.dbAlias n db → Releases F d n db) :
    F.rel s (disconnect d { server := s }).2.server := by
  have hends : Ends (· = { server := s }) (disconnect d) (fun _ t => F.rel s t.server)
      (fun t => F.rel s t.server) := by
    refine ends_bind ((ends_getDb _).mono (fun _ h => h) (fun _ _ h => h) ?_) fun p => ?_
    · rintro _ rfl
      exact F.refl s
    rintro _ ⟨rfl, hknown⟩
    have hrel := h p.1 p.2 hknown
    have hrest : (atServer F).Keeps (do
        Prog.check (d.fault .connectBase)
        Prog.check (d.fault .createConn)
        requireDatabase p.1
        Prog.check (d.fault .revokeConnect)
        requireRole p.2.pgUser
        Prog.check (d.fault .terminateBackends)
        Prog.check (d.fault .dropDatabase)
        onServer fun s => s.dropDatabase p.1
        Prog.check (d.fault .dropRoles)
        onServer fun s => s.dropRoles [p.2.pgUser, getGroupRole p.1]
        Iasql.delDb d.deletion
        return p.1) := by
      refine keeps_bind (keeps_check _) fun _ => keeps_bind (keeps_check _) fun _ => ?_
      refine keeps_bind (keeps_requireDatabase _) fun _ => keeps_bind (keeps_check _) fun _ => ?_
      refine keeps_bind (keeps_requireRole _) fun _ => keeps_bind (keeps_check _) fun _ => ?_
      refine keeps_bind (keeps_check _) fun _ => ?_
      refine keeps_bind (keeps_onServer hrel.dropDatabase) fun _ => ?_
      refine keeps_bind (keeps_check _) fun _ => ?_
      refine keeps_bind (keeps_onServer hrel.dropRoles) fun _ => ?_
      exact keeps_bind hrel.delDb fun _ => keeps_pure _
    refine ends_of_snd (P := fun t => t = { server := s }) (fun t ht => ?_) _ rfl
    subst ht
    exact hrest { server := s }
  exact hends.snd rfl

theorem rel_cleanDbs {c : InitCall} (h : ∀ t n, n ∉ s.databases → t.databases = s.databases →
    F.rel t (t.removeDatabase n)) : F.rel s (cleanDbs c { server := s }).2.server := by
  have hends : Ends (fun t : Connecting => F.rel s t.server ∧ t.server.databases = s.databases)
      (Prog.each (fun name =>
        if name ∈ s.databases then pure ()
        else do
          Prog.check (c.fault name)
          onServer fun s => s.removeDatabase name) c.expectedDbs)
      (fun _ t => F.rel s t.server ∧ t.server.databases = s.databases)
      (fun t => F.rel s t.server ∧ t.server.databases = s.databases) := by
    refine ends_each (fun _ (t : Connecting) =>
      F.rel s t.server ∧ t.server.databases = s.databases) ?_
    intro before name after _ t ht
    by_cases hname : name ∈ s.databases
    · rw [if_pos hname]
      exact ht
    · rw [if_neg hname]
      cases c.fault name with
      | some e => exact ht
      | none => exact ⟨F.trans ht.1 (h t.server name hname ht.2), ht.2⟩
  exact (hends.snd ⟨F.refl s, rfl⟩).1

end Calls

end Iasql.Lifecycle
