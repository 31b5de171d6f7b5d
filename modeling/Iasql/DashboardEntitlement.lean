import Iasql.Dashboard
import Mathlib.Tactic.Common

namespace Iasql.Dashboard

open Program Prog

section Entitlement

variable {Stmt : Type} (env : DashboardEnv Stmt) (req : RunRequest)

def Verified (username email : String) : Prop :=
  if env.auth then
    ∃ kid key payload, env.jwtDecode ((extractTokenFromHeader req).getD "") = some kid ∧
      env.getSigningKey kid = .returned key ∧
      env.jwtVerify ((extractTokenFromHeader req).getD "") key = .ok payload ∧
      payload.sub = some username ∧ email = payload.email.getD "hello@iasql.com"
  else username = env.iasqlUid ∧ email = s!"hello+{env.iasqlUid}@iasql.com"

def emailDomain (email : String) : String := (email.splitOn "@").getLastD ""

def Paid (uid email : String) : Prop :=
  env.stripe = none ∨
    (∃ stripe, env.stripe = some stripe ∧ emailDomain email ∈ stripe.whitelistedDomains) ∨
    ∃ session ∈ env.sessions, session.customer = true ∧ session.status = "complete" ∧
      session.madeFor = some uid

def Entitled (dbId : String) : Prop :=
  ∃ username email dbAlias sql, Verified env req username email ∧ Paid env username email ∧
    req.body = some (dbAlias, sql) ∧ (dbId = "iasql_metadata" ∧ dbAlias = "iasql_metadata" ∨
      { iasqlUserId := username, dbAlias, pgName := dbId : UserDatabase } ∈
        env.userDatabases .runSqlLookup)

structure Safe : Prop where
  entitled : ∀ x ∈ (run env req).executed, Entitled env req x.1
  once : (run env req).answers.length = 1

-- what a step of the handler ends with, whenever the timer and the clients' errors come
def outcomeOf {α : Type} (p : Prog RunState Thrown α) : Outcome Thrown α := (p {}).1

-- the steps before the check of the customer
def admission : Prog RunState Thrown (UserData × String × String) := do
  let tokenInfo ← validateToken env ((extractTokenFromHeader req).getD "")
  match req.body with
  | none => Prog.fail (.error "TypeError")
  | some (dbAlias, sql) => do
    let user ← getUserData env tokenInfo dbAlias
    return (user, dbAlias, sql)

def Connects (n : Nat) (stmt : Stmt) : Prop :=
  env.connect n = .returned () ∧ ∃ statement, env.deparse stmt = .ok statement

def Completes (n : Nat) (stmt : Stmt) : Prop :=
  Connects env n stmt ∧ (∃ queryRes, env.query n = .returned queryRes) ∧ env.close n = .returned ()

-- no client that is made emits an error
def Uninterrupted : Nat → List Stmt → Prop
  | _, [] => True
  | n, stmt :: rest =>
    env.interruptions n = [] ∧ (Completes env n stmt → Uninterrupted (n + 1) rest)

def Sends (n : Nat) : List Stmt → Prop
  | [] => False
  | stmt :: _ => Connects env n stmt

def Admissible : Prop :=
  ∀ user dbAlias sql, outcomeOf (admission env req) = .returned (user, dbAlias, sql) →
    outcomeOf (isCustomer env user.username user.email) ≠ .returned false ∧
    (outcomeOf (isCustomer env user.username user.email) = .returned true →
      ∀ dbId stmts, outcomeOf (targetDatabase env dbAlias user.username) = .returned dbId →
        env.parse sql = .ok stmts →
          Uninterrupted env 0 stmts ∧ (Sends env 0 stmts → Paid env user.username user.email))

end Entitlement

section Charges

variable {Stmt α β : Type} {env : DashboardEnv Stmt} {s : RunState}

-- the answers given or due, less the one that until gives
def charge (s : RunState) : Int :=
  s.answers.length + s.pending.length - if s.finished then 1 else 0

theorem charge_expire (s : RunState) : charge (expire s) = charge s := by
  unfold expire
  split
  · rfl
  · rfl
  · split
    · rfl
    · next hfinished =>
      have hopen : s.finished = false := eq_false_of_ne_true hfinished
      simp only [charge, List.length_append, List.length_singleton, hopen, Bool.false_eq_true,
        ↓reduceIte]
      omega

theorem charge_tick (s : RunState) : charge (tick s) = charge s := by
  have hsplit : (s.pending.filter (·.1 == 0)).length + (s.pending.filter (·.1 != 0)).length =
      s.pending.length := by
    induction s.pending with
    | nil => rfl
    | cons e rest ih =>
      by_cases hzero : e.1 = 0
      · simp only [List.filter_cons, hzero, BEq.rfl, bne_self_eq_false, ↓reduceIte, List.length_cons,
          Bool.false_eq_true]
        omega
      · have hne : (e.1 != 0) = true := by simpa using hzero
        simp only [List.filter_cons, hne, beq_eq_false_iff_ne.mpr hzero, ↓reduceIte,
          List.length_cons, Bool.false_eq_true]
        omega
  rw [tick, charge_expire]
  simp only [charge, List.length_append, List.length_map]
  omega

theorem executed_expire (s : RunState) : (expire s).executed = s.executed := by
  unfold expire
  split
  · rfl
  · rfl
  · split <;> rfl

theorem executed_tick (s : RunState) : (tick s).executed = s.executed := executed_expire _

theorem awaited_apply (o : Outcome Thrown α) (s : RunState) : awaited o s = (o, tick s) := by
  cases o <;> rfl

def quiet : Frame RunState := Frame.ofField fun s => (charge s, s.executed)

-- a step that only waits
structure Calm (p : Prog RunState Thrown α) : Prop where
  outcome : ∀ s, (p s).1 = outcomeOf p
  keeps : quiet.Keeps p

theorem calm_pure (a : α) : Calm (pure a) := ⟨fun _ => rfl, Frame.keeps_pure a⟩

theorem calm_fail (e : Thrown) : Calm (Prog.fail e : Prog RunState Thrown α) :=
  ⟨fun _ => rfl, Frame.keeps_fail e⟩

theorem calm_ofExcept (x : Except Thrown α) : Calm (ofExcept x) := by
  cases x with
  | ok a => exact calm_pure a
  | error e => exact calm_fail e

theorem calm_awaited (o : Outcome Thrown α) : Calm (awaited o) := by
  refine ⟨fun s => ?_, fun s => ?_⟩
  · rw [outcomeOf, awaited_apply, awaited_apply]
  · rw [awaited_apply]
    exact Prod.ext (charge_tick s) (executed_tick s)

theorem bind_outcome {p : Prog RunState Thrown α} {k : α → Prog RunState Thrown β} (hp : Calm p)
    (hk : ∀ a, Calm (k a)) (s : RunState) : ((p >>= k) s).1 = match outcomeOf p with
      | .returned a => outcomeOf (k a)
      | .thrown e => .thrown e
      | .diverged => .diverged := by
  rw [← hp.outcome s]
  rcases hrun : p s with ⟨o, t⟩
  cases o with
  | returned a =>
    rw [bind_of_returned hrun]
    exact (hk a).outcome t
  | thrown e => rw [bind_of_thrown hrun]
  | diverged => rw [bind_of_diverged hrun]

theorem calm_bind {p : Prog RunState Thrown α} {k : α → Prog RunState Thrown β} (hp : Calm p)
    (hk : ∀ a, Calm (k a)) : Calm (p >>= k) := by
  refine ⟨fun s => ?_, Frame.keeps_bind hp.keeps fun a => (hk a).keeps⟩
  rw [outcomeOf, bind_outcome hp hk, bind_outcome hp hk]

theorem outcomeOf_bind {p : Prog RunState Thrown α} {k : α → Prog RunState Thrown β} (hp : Calm p)
    (hk : ∀ a, Calm (k a)) {b : β} (h : outcomeOf (p >>= k) = .returned b) :
    ∃ a, outcomeOf p = .returned a ∧ outcomeOf (k a) = .returned b := by
  rw [outcomeOf, bind_outcome hp hk] at h
  cases hrun : outcomeOf p with
  | returned a =>
    rw [hrun] at h
    exact ⟨a, rfl, h⟩
  | thrown e =>
    rw [hrun] at h
    cases h
  | diverged =>
    rw [hrun] at h
    cases h

theorem calm_attempt {p : Prog RunState Thrown α} (hp : Calm p) : Calm p.attempt := by
  refine ⟨fun s => ?_, Frame.keeps_attempt hp.keeps⟩
  have hsame := (hp.outcome s).trans (hp.outcome {}).symm
  unfold outcomeOf Prog.attempt
  rcases hs : p s with ⟨o, t⟩
  rcases h0 : p {} with ⟨o', t'⟩
  rw [hs, h0] at hsame
  obtain rfl : o = o' := hsame
  cases o <;> rfl

theorem calm_runIf {b : Bool} {p : Prog RunState Thrown Unit} (hp : Calm p) : Calm (runIf b p) := by
  cases b with
  | true => exact hp
  | false => exact calm_pure ()

end Charges

section Steps

variable {Stmt : Type} {env : DashboardEnv Stmt} {req : RunRequest} {s : RunState}

theorem calm_validateToken (token : String) : Calm (validateToken env token) := by
  unfold validateToken
  split
  · exact calm_pure _
  · split
    · exact calm_fail _
    · refine calm_bind (calm_awaited _) fun pubKey => ?_
      split
      · exact calm_fail _
      · exact calm_ofExcept _

theorem calm_findDbId (lookup : MetaQuery) (username dbAlias : String) :
    Calm (findDbId env lookup username dbAlias) := by
  refine calm_bind (calm_awaited _) fun _ => ?_
  split
  · exact calm_pure _
  · exact calm_fail _

theorem calm_grantGroupRole (maxTries : Nat) : Calm (grantGroupRole env maxTries) := by
  induction maxTries with
  | zero => exact calm_pure ()
  | succ maxTries ih =>
    refine calm_bind (calm_attempt (calm_awaited _)) fun done => ?_
    cases done with
    | ok _ => exact calm_pure ()
    | error e => exact ih

theorem calm_getUserData (tokenInfo : JwtPayload) (dbAlias : String) :
    Calm (getUserData env tokenInfo dbAlias) := by
  refine calm_bind (calm_ofExcept _) fun user => calm_bind (calm_awaited _) fun _ => ?_
  refine calm_bind (calm_runIf ?_) fun _ => calm_pure _
  exact calm_bind (calm_findDbId _ _ _) fun _ => calm_grantGroupRole _

theorem calm_admission : Calm (admission env req) := by
  refine calm_bind (calm_validateToken _) fun tokenInfo => ?_
  split
  · exact calm_fail _
  · exact calm_bind (calm_getUserData _ _) fun user => calm_pure _

theorem calm_findSession (uid : String) (sessions : List CheckoutSession) :
    Calm (findSession env uid sessions) := by
  induction sessions with
  | nil => exact calm_bind (calm_awaited _) fun _ => calm_pure false
  | cons session rest ih =>
    refine calm_bind (calm_awaited _) fun _ => ?_
    split
    · exact calm_pure true
    · exact ih

theorem calm_isCustomer (uid email : String) : Calm (isCustomer env uid email) := by
  unfold isCustomer
  split
  · exact calm_pure true
  · split
    · exact calm_pure true
    · exact calm_findSession _ _

theorem calm_targetDatabase (dbAlias username : String) :
    Calm (targetDatabase env dbAlias username) := by
  unfold targetDatabase
  split
  · exact calm_pure _
  · exact calm_findDbId _ _ _

theorem outcomeOf_ofExcept {α : Type} {x : Except Thrown α} {a : α}
    (h : outcomeOf (ofExcept x) = .returned a) : x = .ok a := by
  cases x <;> cases h
  rfl

theorem validateToken_returned {token : String} {payload : JwtPayload}
    (h : outcomeOf (validateToken env token) = .returned payload) (hauth : env.auth = true) :
    ∃ kid key, env.jwtDecode token = some kid ∧ env.getSigningKey kid = .returned key ∧
      env.jwtVerify token key = .ok payload := by
  simp only [validateToken, hauth, Bool.not_true, Bool.false_eq_true, ↓reduceIte] at h
  split at h
  · cases h
  · next kid hkid =>
    have hcalm : ∀ pubKey, Calm (if pubKey = "" then Prog.fail (.error "No key in header")
        else ofExcept (env.jwtVerify token pubKey)) := by
      intro pubKey
      split
      · exact calm_fail _
      · exact calm_ofExcept _
    obtain ⟨key, hkey, hverify⟩ := outcomeOf_bind (calm_awaited _) hcalm h
    rw [outcomeOf, awaited_apply] at hkey
    split at hverify
    · cases hverify
    · exact ⟨kid, key, hkid, hkey, outcomeOf_ofExcept hverify⟩

theorem getUserData_returned {tokenInfo : JwtPayload} {dbAlias : String} {user : UserData}
    (h : outcomeOf (getUserData env tokenInfo dbAlias) = .returned user) :
    usernameAndEmail env tokenInfo = .ok (user.username, user.email) := by
  have hgrant : ∀ who : String × String, Calm (grantOnDatabase env who.1 dbAlias) := fun who =>
    calm_bind (calm_findDbId _ _ _) fun _ => calm_grantGroupRole _
  obtain ⟨who, hwho, hrest⟩ := outcomeOf_bind (calm_ofExcept _) (fun who => calm_bind
    (calm_awaited _) fun _ => calm_bind (calm_runIf (hgrant who)) fun _ => calm_pure _) h
  obtain ⟨_, -, hlast⟩ := outcomeOf_bind (calm_awaited _)
    (fun _ => calm_bind (calm_runIf (hgrant who)) fun _ => calm_pure _) hrest
  obtain ⟨_, -, hreturn⟩ := outcomeOf_bind (calm_runIf (hgrant who)) (fun _ => calm_pure _) hlast
  cases hreturn
  exact outcomeOf_ofExcept hwho

theorem verified_of_admission {user : UserData} {dbAlias sql : String}
    (h : outcomeOf (admission env req) = .returned (user, dbAlias, sql)) :
    Verified env req user.username user.email ∧ req.body = some (dbAlias, sql) := by
  obtain ⟨tokenInfo, htoken, hrest⟩ := outcomeOf_bind (calm_validateToken _) (fun tokenInfo => by
    split
    · exact calm_fail _
    · exact calm_bind (calm_getUserData _ _) fun user => calm_pure _) h
  split at hrest
  · cases hrest
  · next dbAlias' sql' hbody =>
    obtain ⟨user', huser, hreturn⟩ := outcomeOf_bind (calm_getUserData _ _)
      (fun user => calm_pure _) hrest
    cases hreturn
    refine ⟨?_, hbody⟩
    have hwho := getUserData_returned huser
    unfold usernameAndEmail at hwho
    unfold Verified
    split at hwho
    · next hauth =>
      obtain ⟨kid, key, hkid, hkey, hpayload⟩ := validateToken_returned htoken hauth
      rw [if_pos hauth]
      split at hwho
      · cases hwho
      · next sub hsub =>
        obtain ⟨hname, hemail⟩ := Prod.mk.inj (Except.ok.inj hwho)
        exact ⟨kid, key, tokenInfo, hkid, hkey, hpayload, hname ▸ hsub, hemail.symm⟩
    · next hauth =>
      rw [if_neg hauth]
      obtain ⟨hname, hemail⟩ := Prod.mk.inj (Except.ok.inj hwho)
      exact ⟨hname.symm, hemail.symm⟩

theorem target_associated {dbId username dbAlias : String}
    (h : outcomeOf (targetDatabase env dbAlias username) = .returned dbId) :
    dbId = "iasql_metadata" ∧ dbAlias = "iasql_metadata" ∨
      { iasqlUserId := username, dbAlias, pgName := dbId : UserDatabase } ∈
        env.userDatabases .runSqlLookup := by
  unfold targetDatabase at h
  split at h
  · next hmeta =>
    cases h
    exact .inl ⟨hmeta, hmeta⟩
  · obtain ⟨_, -, hfound⟩ := outcomeOf_bind (calm_awaited _) (fun _ => by
      split
      · exact calm_pure _
      · exact calm_fail _) h
    split at hfound
    · next d hd =>
      cases hfound
      have hmatch := List.find?_some hd
      simp only [Bool.and_eq_true, beq_iff_eq] at hmatch
      obtain ⟨rfl, rfl⟩ := hmatch
      exact .inr (List.mem_of_find?_eq_some hd)
    · cases hfound

theorem verified_unique {username email username' email' : String}
    (h : Verified env req username email) (h' : Verified env req username' email') :
    username = username' ∧ email = email' := by
  unfold Verified at h h'
  split at h
  · next hauth =>
    rw [if_pos hauth] at h'
    obtain ⟨kid, key, payload, hkid, hkey, hpayload, hsub, rfl⟩ := h
    obtain ⟨kid', key', payload', hkid', hkey', hpayload', hsub', rfl⟩ := h'
    obtain rfl : kid = kid' := Option.some.inj (hkid.symm.trans hkid')
    obtain rfl : key = key' := by
      rw [hkey] at hkey'
      cases hkey'
      rfl
    obtain rfl : payload = payload' := Except.ok.inj (hpayload.symm.trans hpayload')
    exact ⟨Option.some.inj (hsub.symm.trans hsub'), rfl⟩
  · next hauth =>
    rw [if_neg hauth] at h'
    exact ⟨h.1.trans h'.1.symm, h.2.trans h'.2.symm⟩

end Steps

section Statements

variable {Stmt : Type} {env : DashboardEnv Stmt} {sql dbId : String} {s : RunState}

structure Spends (dbId : String) (s t : RunState) (sends : Prop) (errors : Nat) : Prop where
  executed : ∃ l, t.executed = s.executed ++ l ∧ (∀ x ∈ l, x.1 = dbId) ∧ (l ≠ [] ↔ sends)
  charge : Dashboard.charge t = Dashboard.charge s + errors

theorem spends_nothing {t : RunState} {errors : Nat} (hexecuted : t.executed = s.executed)
    (hcharge : charge t = charge s + errors) : Spends dbId s t False errors :=
  ⟨⟨[], by simp [hexecuted], by simp, by simp⟩, hcharge⟩

theorem newClient_apply (n : Nat) : ∃ t, newClient env n sql s = (.returned (), t) ∧
    t.executed = s.executed ∧ charge t = charge s + (env.interruptions n).length := by
  refine ⟨_, rfl, rfl, ?_⟩
  simp only [charge, List.length_append, List.length_map]
  omega

theorem execute_lastly (n : Nat) (statement : String) :
    ∃ o t, (execute env n dbId statement).lastly (awaited (env.close n)) s = (o, t) ∧
      t.executed = s.executed ++ [(dbId, statement)] ∧ charge t = charge s ∧
      ((∃ a, o = .returned a) ↔
        (∃ a, env.query n = .returned a) ∧ env.close n = .returned ()) := by
  let sent : RunState := { s with executed := s.executed ++ [(dbId, statement)] }
  have hexecute : execute env n dbId statement s = (env.query n, tick sent) := by
    rw [execute, writes_bind_apply, awaited_apply]
  have hexecuted : ∀ t, t = tick sent ∨ t = tick (tick sent) →
      t.executed = s.executed ++ [(dbId, statement)] := by
    rintro t (rfl | rfl)
    · rw [executed_tick]
    · rw [executed_tick, executed_tick]
  have hcharge : ∀ t, t = tick sent ∨ t = tick (tick sent) → charge t = charge s := by
    rintro t (rfl | rfl)
    · rw [charge_tick]
      rfl
    · rw [charge_tick, charge_tick]
      rfl
  unfold Prog.lastly
  rw [hexecute]
  cases hquery : env.query n with
  | diverged => exact ⟨_, _, rfl, hexecuted _ (.inl rfl), hcharge _ (.inl rfl), by simp⟩
  | returned a =>
    simp only [awaited_apply]
    cases hclose : env.close n <;>
      exact ⟨_, _, rfl, hexecuted _ (.inr rfl), hcharge _ (.inr rfl), by simp⟩
  | thrown e =>
    simp only [awaited_apply]
    cases hclose : env.close n <;>
      exact ⟨_, _, rfl, hexecuted _ (.inr rfl), hcharge _ (.inr rfl), by simp⟩

theorem runStatement_spends (n : Nat) (stmt : Stmt) :
    ∃ o t, runStatement env sql dbId n stmt s = (o, t) ∧
      Spends dbId s t (Connects env n stmt) (env.interruptions n).length ∧
      ((∃ a, o = .returned a) ↔ Completes env n stmt) := by
  obtain ⟨u, hclient, hexecuted, hcharge⟩ := @newClient_apply _ env sql s n
  rw [← executed_tick u] at hexecuted
  rw [← charge_tick u] at hcharge
  rw [runStatement, bind_of_returned hclient]
  have hawait : awaited (env.connect n) u = (env.connect n, tick u) := awaited_apply _ _
  have hno : ∀ (hnot : ¬ Connects env n stmt),
      Spends dbId s (tick u) (Connects env n stmt) (env.interruptions n).length := by
    intro hnot
    rw [eq_false hnot]
    exact spends_nothing hexecuted hcharge
  cases hconnect : env.connect n with
  | thrown e =>
    rw [hconnect] at hawait
    have hnot : ¬ Connects env n stmt := fun h => by simp [Connects, hconnect] at h
    exact ⟨_, _, bind_of_thrown hawait, hno hnot, by simp [Completes, hnot]⟩
  | diverged =>
    rw [hconnect] at hawait
    have hnot : ¬ Connects env n stmt := fun h => by simp [Connects, hconnect] at h
    exact ⟨_, _, bind_of_diverged hawait, hno hnot, by simp [Completes, hnot]⟩
  | returned a =>
    rw [hconnect] at hawait
    rw [bind_of_returned hawait]
    cases hdeparse : env.deparse stmt with
    | error e =>
      have hnot : ¬ Connects env n stmt := fun h => by simp [Connects, hdeparse] at h
      exact ⟨_, _, rfl, hno hnot, by simp [Completes, hnot]⟩
    | ok statement =>
      have hyes : Connects env n stmt := ⟨hconnect, statement, hdeparse⟩
      obtain ⟨o, t, hlast, hsent, hsame, hreturns⟩ :=
        @execute_lastly _ env dbId (tick u) n statement
      have hspends : Spends dbId s t (Connects env n stmt) (env.interruptions n).length := by
        refine ⟨⟨[(dbId, statement)], ?_, by simp, by simp [hyes]⟩, hsame.trans hcharge⟩
        rw [hsent, hexecuted]
      have hcompletes : (∃ a, o = .returned a) ↔ Completes env n stmt :=
        hreturns.trans ⟨fun h => ⟨hyes, h⟩, fun h => h.2⟩
      have hrest : (ofExcept (.ok statement) >>= fun statement =>
          (execute env n dbId statement).lastly (awaited (env.close n)) >>= fun queryRes =>
            pure (statement, queryRes)) (tick u) =
          ((execute env n dbId statement).lastly (awaited (env.close n)) >>= fun queryRes =>
            pure (statement, queryRes)) (tick u) := rfl
      rw [hrest]
      cases o with
      | returned queryRes =>
        refine ⟨_, t, bind_of_returned hlast, hspends, ?_⟩
        exact ⟨fun _ => hcompletes.mp ⟨queryRes, rfl⟩, fun _ => ⟨_, rfl⟩⟩
      | thrown e =>
        refine ⟨_, t, bind_of_thrown hlast, hspends, ?_⟩
        rw [← hcompletes]
        simp
      | diverged =>
        refine ⟨_, t, bind_of_diverged hlast, hspends, ?_⟩
        rw [← hcompletes]
        simp

theorem Spends.then {t u : RunState} {sends rest : Prop} {errors more : Nat}
    (h : Spends dbId s t sends errors) (hrest : Spends dbId t u rest more) (himp : rest → sends) :
    Spends dbId s u sends (errors + more) := by
  obtain ⟨l, hl, hdb, hsends⟩ := h.executed
  obtain ⟨l', hl', hdb', hrest'⟩ := hrest.executed
  refine ⟨⟨l ++ l', ?_, fun x hx => ?_, ?_⟩, ?_⟩
  · rw [hl', hl, List.append_assoc]
  · rcases List.mem_append.mp hx with hx | hx
    · exact hdb x hx
    · exact hdb' x hx
  · rw [← hsends]
    constructor
    · intro hne hnil
      subst hnil
      have hne' : l' ≠ [] := by simpa using hne
      exact hsends.mpr (himp (hrest'.mp hne')) rfl
    · exact fun hne hnil => hne (List.append_eq_nil_iff.mp hnil).1
  · have hcharge := hrest.charge
    have hfirst := h.charge
    omega

theorem runStatements_spends (n : Nat) (stmts : List Stmt) :
    ∃ errors, Spends dbId s (runStatements env sql dbId n stmts s).2 (Sends env n stmts) errors ∧
      (errors = 0 ↔ Uninterrupted env n stmts) := by
  induction stmts generalizing n s with
  | nil => exact ⟨0, spends_nothing rfl (by simp [runStatements]), by simp [Uninterrupted]⟩
  | cons stmt rest ih =>
    obtain ⟨o, t, hrun, hspends, hreturns⟩ :=
      @runStatement_spends _ env sql dbId s n stmt
    rw [runStatements]
    have hstop : ¬ Completes env n stmt →
        ((env.interruptions n).length = 0 ↔ Uninterrupted env n (stmt :: rest)) := by
      intro hnot
      rw [Uninterrupted, List.length_eq_zero_iff]
      exact ⟨fun h => ⟨h, fun hc => absurd hc hnot⟩, fun h => h.1⟩
    cases o with
    | thrown e =>
      rw [bind_of_thrown hrun]
      refine ⟨_, hspends, hstop fun hc => ?_⟩
      obtain ⟨_, ho⟩ := hreturns.mpr hc
      cases ho
    | diverged =>
      rw [bind_of_diverged hrun]
      refine ⟨_, hspends, hstop fun hc => ?_⟩
      obtain ⟨_, ho⟩ := hreturns.mpr hc
      cases ho
    | returned a =>
      have hcompletes := hreturns.mp ⟨a, rfl⟩
      obtain ⟨errors, hmore, herrors⟩ := ih (s := t) (n + 1)
      rw [bind_of_returned hrun, bind_pure_snd]
      refine ⟨(env.interruptions n).length + errors, ?_, ?_⟩
      · exact hspends.then hmore fun _ => hcompletes.1
      · rw [Uninterrupted, Nat.add_eq_zero_iff, List.length_eq_zero_iff, herrors]
        exact ⟨fun h => ⟨h.1, fun _ => h.2⟩, fun h => ⟨h.1, h.2 hcompletes⟩⟩

end Statements

section Verdict

variable {Stmt : Type} {env : DashboardEnv Stmt} {req : RunRequest}

theorem executed_settle (o : Outcome Thrown (List StatementOutput)) (s : RunState) :
    (settle o s).executed = s.executed := by
  unfold settle
  split <;> rfl

theorem answers_once_iff {o : Outcome Thrown (List StatementOutput)} {s : RunState}
    (hcharge : 0 ≤ charge s) :
    ((settle o s).answers ++ (settle o s).pending.map (·.2)).length = 1 ↔ charge s = 0 := by
  rw [List.length_append, List.length_map]
  have h := hcharge
  unfold settle
  unfold charge at h ⊢
  cases hfinished : s.finished with
  | true =>
    simp only [hfinished, ↓reduceIte] at h ⊢
    omega
  | false =>
    simp only [hfinished, Bool.false_eq_true, ↓reduceIte, List.length_append] at h ⊢
    cases o with
    | returned out =>
      cases hanswers : s.answers with
      | nil =>
        simp only [List.isEmpty_nil, ↓reduceIte, List.length_nil, List.length_singleton]
        omega
      | cons a rest =>
        simp only [List.isEmpty_cons, Bool.false_eq_true, ↓reduceIte, List.length_cons,
          List.length_nil]
        omega
    | thrown e =>
      simp only [List.length_singleton]
      omega
    | diverged =>
      simp only [List.length_singleton]
      omega

theorem safe_iff {o : Outcome Thrown (List StatementOutput)} {s : RunState}
    (hrun : handle env req { timer := env.timeout } = (o, s)) (hcharge : 0 ≤ charge s) :
    Safe env req ↔ (∀ x ∈ s.executed, Entitled env req x.1) ∧ charge s = 0 := by
  have hfinal : run env req = { settle o s with
      answers := (settle o s).answers ++ (settle o s).pending.map (·.2), pending := [] } := by
    rw [run, hrun]
  constructor
  · rintro ⟨hentitled, honce⟩
    rw [hfinal] at hentitled honce
    exact ⟨executed_settle o s ▸ hentitled, (answers_once_iff hcharge).mp honce⟩
  · rintro ⟨hentitled, hzero⟩
    refine ⟨?_, ?_⟩
    · rw [hfinal]
      exact (executed_settle o s).symm ▸ hentitled
    · rw [hfinal]
      exact (answers_once_iff hcharge).mpr hzero

theorem refuse_charge {isCust : Bool} {username : String} {s : RunState} :
    charge (refuse env isCust username s).2 = charge s + if isCust then 0 else 1 := by
  unfold refuse
  cases isCust with
  | true => simp
  | false =>
    simp only [Bool.false_eq_true, ↓reduceIte]
    unfold respond
    rw [reads_bind_apply, writes_bind_apply]
    have hone : charge { s with answers := s.answers ++ [Answer.forbidden
        "User is not a stripe customer" ((env.stripe.elim "undefined" (·.paymentLink)) ++
          s!"?client_reference_id={conformUidToStripe username}")] } = charge s + 1 := by
      simp only [charge, List.length_append, List.length_singleton]
      cases s.finished <;> omega
    split <;> exact hone

theorem Calm.run {α : Type} {p : Prog RunState Thrown α} (h : Calm p) (s : RunState) :
    ∃ t, p s = (outcomeOf p, t) ∧ charge t = charge s ∧ t.executed = s.executed := by
  have hkeeps : (charge (p s).2, (p s).2.executed) = (charge s, s.executed) := h.keeps s
  obtain ⟨hcharge, hexecuted⟩ := Prod.mk.inj hkeeps
  exact ⟨(p s).2, Prod.ext (h.outcome s) rfl, hcharge, hexecuted⟩

def afterAdmission (env : DashboardEnv Stmt) :
    UserData × String × String → Prog RunState Thrown (List StatementOutput)
  | (user, dbAlias, sql) => do
    let isCust ← isCustomer env user.username user.email
    refuse env isCust user.username
    runSql env sql dbAlias user.username

theorem handle_eq (s : RunState) :
    handle env req s = (admission env req >>= afterAdmission env) s := by
  unfold handle admission
  rw [bind_assoc_apply]
  refine bind_congr_apply (fun tokenInfo t => ?_) s
  cases req.body with
  | none => rfl
  | some body =>
    obtain ⟨dbAlias, sql⟩ := body
    let admission (user : UserData) : Prog RunState Thrown (UserData × String × String) :=
      pure (user, dbAlias, sql)
    exact (bind_assoc_apply (getUserData env tokenInfo dbAlias) admission (afterAdmission env) t).symm

theorem safe_of_untouched {o : Outcome Thrown (List StatementOutput)} {t : RunState}
    (hrun : handle env req { timer := env.timeout } = (o, t)) (hcharge : charge t = 0)
    (hexecuted : t.executed = []) : Safe env req := by
  rw [safe_iff hrun (by omega)]
  exact ⟨by simp [hexecuted], hcharge⟩

theorem runSql_spends {sql dbAlias username : String} (s : RunState) :
    ∃ errors l, charge (runSql env sql dbAlias username s).2 = charge s + (errors : Nat) ∧
      (runSql env sql dbAlias username s).2.executed = s.executed ++ l ∧
      ((∃ dbId stmts, outcomeOf (targetDatabase env dbAlias username) = .returned dbId ∧
        env.parse sql = .ok stmts ∧ (∀ x ∈ l, x.1 = dbId) ∧ (l ≠ [] ↔ Sends env 0 stmts) ∧
        (errors = 0 ↔ Uninterrupted env 0 stmts)) ∨
      errors = 0 ∧ l = [] ∧ ∀ dbId stmts,
        outcomeOf (targetDatabase env dbAlias username) = .returned dbId →
          env.parse sql ≠ .ok stmts) := by
  obtain ⟨t, htarget, hcharge, hexecuted⟩ :=
    (@calm_targetDatabase _ env dbAlias username).run s
  rw [runSql]
  cases hdb : outcomeOf (targetDatabase env dbAlias username) with
  | thrown e =>
    rw [hdb] at htarget
    rw [bind_of_thrown htarget]
    exact ⟨0, [], by simpa using hcharge, by simpa using hexecuted, .inr (by simp)⟩
  | diverged =>
    rw [hdb] at htarget
    rw [bind_of_diverged htarget]
    exact ⟨0, [], by simpa using hcharge, by simpa using hexecuted, .inr (by simp)⟩
  | returned dbId =>
    rw [hdb] at htarget
    rw [bind_of_returned htarget]
    cases hparse : env.parse sql with
    | error e =>
      exact ⟨0, [], hcharge.trans (by simp), hexecuted.trans (by simp), .inr (by simp)⟩
    | ok stmts =>
      obtain ⟨errors, hspends, herrors⟩ :=
        @runStatements_spends _ env sql dbId t 0 stmts
      obtain ⟨l, hl, hall, hsends⟩ := hspends.executed
      have hsnd : ((ofExcept (.ok stmts) >>= fun stmts => runStatements env sql dbId 0 stmts >>=
          fun out => pure (out.map statementOutput)) t).2 = (runStatements env sql dbId 0 stmts t).2 :=
        bind_pure_snd _ _ t
      rw [hsnd]
      refine ⟨errors, l, ?_, ?_, .inl ⟨dbId, stmts, rfl, rfl, hall, hsends, herrors⟩⟩
      · rw [hspends.charge, hcharge]
      · rw [hl, hexecuted]

theorem entitled_iff {user : UserData} {dbAlias sql dbId : String}
    (hadmitted : outcomeOf (admission env req) = .returned (user, dbAlias, sql))
    (htarget : outcomeOf (targetDatabase env dbAlias user.username) = .returned dbId) :
    Entitled env req dbId ↔ Paid env user.username user.email := by
  obtain ⟨hverified, hbody⟩ := verified_of_admission hadmitted
  constructor
  · rintro ⟨username, email, _, _, hverified', hpaid, -, -⟩
    obtain ⟨rfl, rfl⟩ := verified_unique hverified' hverified
    exact hpaid
  · intro hpaid
    exact ⟨_, _, _, _, hverified, hpaid, hbody, target_associated htarget⟩

theorem admissible_iff {user : UserData} {dbAlias sql : String}
    (hadmitted : outcomeOf (admission env req) = .returned (user, dbAlias, sql)) :
    Admissible env req ↔ outcomeOf (isCustomer env user.username user.email) ≠ .returned false ∧
      (outcomeOf (isCustomer env user.username user.email) = .returned true →
        ∀ dbId stmts, outcomeOf (targetDatabase env dbAlias user.username) = .returned dbId →
          env.parse sql = .ok stmts →
            Uninterrupted env 0 stmts ∧ (Sends env 0 stmts → Paid env user.username user.email)) := by
  constructor
  · exact fun h => h user dbAlias sql hadmitted
  · intro h user' dbAlias' sql' hadmitted'
    rw [hadmitted] at hadmitted'
    cases hadmitted'
    exact h

theorem refused_charge {username dbAlias sql : String} {s : RunState} (h : charge s = 0) :
    1 ≤ charge ((refuse env false username >>= fun _ => runSql env sql dbAlias username) s).2 := by
  have hrefuse := @refuse_charge _ env false username s
  simp only [Bool.false_eq_true, ↓reduceIte] at hrefuse
  rcases hrun : refuse env false username s with ⟨o, u⟩
  rw [hrun] at hrefuse
  have hcharge : charge u = charge s + 1 := hrefuse
  cases o with
  | returned a =>
    rw [bind_of_returned hrun]
    obtain ⟨errors, -, hspent, -⟩ := @runSql_spends _ env sql dbAlias username u
    omega
  | thrown e =>
    rw [bind_of_thrown hrun]
    change 1 ≤ charge u
    omega
  | diverged =>
    rw [bind_of_diverged hrun]
    change 1 ≤ charge u
    omega

theorem run_safe_iff : Safe env req ↔ Admissible env req := by
  obtain ⟨t, hadmission, hcharge, hexecuted⟩ :=
    (@calm_admission _ env req).run { timer := env.timeout }
  have hhandle := @handle_eq _ env req { timer := env.timeout }
  cases hadmitted : outcomeOf (admission env req) with
  | thrown e =>
    rw [hadmitted] at hadmission
    rw [bind_of_thrown hadmission] at hhandle
    exact iff_of_true (safe_of_untouched hhandle hcharge hexecuted)
      (fun _ _ _ h => by rw [hadmitted] at h; cases h)
  | diverged =>
    rw [hadmitted] at hadmission
    rw [bind_of_diverged hadmission] at hhandle
    exact iff_of_true (safe_of_untouched hhandle hcharge hexecuted)
      (fun _ _ _ h => by rw [hadmitted] at h; cases h)
  | returned admitted =>
    obtain ⟨user, dbAlias, sql⟩ := admitted
    rw [hadmitted] at hadmission
    rw [bind_of_returned hadmission, afterAdmission] at hhandle
    rw [admissible_iff hadmitted]
    obtain ⟨u, hcustomer, hcharge', hexecuted'⟩ :=
      (@calm_isCustomer _ env user.username user.email).run t
    have hzero : charge u = 0 := hcharge'.trans hcharge
    have hnone : u.executed = [] := hexecuted'.trans hexecuted
    cases hcust : outcomeOf (isCustomer env user.username user.email) with
    | thrown e =>
      rw [hcust] at hcustomer
      rw [bind_of_thrown hcustomer] at hhandle
      exact iff_of_true (safe_of_untouched hhandle hzero hnone) (by simp)
    | diverged =>
      rw [hcust] at hcustomer
      rw [bind_of_diverged hcustomer] at hhandle
      exact iff_of_true (safe_of_untouched hhandle hzero hnone) (by simp)
    | returned isCust =>
      rw [hcust] at hcustomer
      rw [bind_of_returned hcustomer] at hhandle
      cases isCust with
      | false =>
        have hpositive := @refused_charge _ env user.username dbAlias sql _ hzero
        rcases hlast : (refuse env false user.username >>= fun _ =>
          runSql env sql dbAlias user.username) u with ⟨o, v⟩
        rw [hlast] at hpositive
        have hpositive' : 1 ≤ charge v := hpositive
        refine iff_of_false (fun hsafe => ?_) (by simp)
        have hcharged := ((safe_iff (hhandle.trans hlast) (by omega)).mp hsafe).2
        omega
      | true =>
        obtain ⟨errors, l, hspent, hsent, hwhich⟩ := @runSql_spends _ env sql dbAlias user.username u
        rcases hlast : runSql env sql dbAlias user.username u with ⟨o, v⟩
        rw [hlast] at hspent hsent
        have hcharged : charge v = charge u + errors := hspent
        have hexecuted'' : v.executed = l := by
          have hv : v.executed = u.executed ++ l := hsent
          rw [hv, hnone, List.nil_append]
        have hend : handle env req { timer := env.timeout } = (o, v) := hhandle.trans hlast
        rw [safe_iff hend (by omega), hexecuted'']
        have herrors : charge v = 0 ↔ errors = 0 := by omega
        rw [herrors]
        rcases hwhich with ⟨dbId, stmts, htarget, hparse, hall, hsends, huninterrupted⟩ |
          ⟨rfl, rfl, hnever⟩
        · have hpaid := entitled_iff hadmitted htarget
          rw [huninterrupted]
          constructor
          · rintro ⟨hentitled, hun⟩
            refine ⟨by simp, fun _ dbId' stmts' hdb hstmts => ?_⟩
            rw [hparse] at hstmts
            cases hstmts
            refine ⟨hun, fun hsend => ?_⟩
            obtain ⟨x, hx⟩ := List.exists_mem_of_ne_nil l (hsends.mpr hsend)
            have hin := hentitled x hx
            rw [hall x hx] at hin
            exact hpaid.mp hin
          · rintro ⟨-, h⟩
            obtain ⟨hun, hsend⟩ := h rfl dbId stmts htarget hparse
            refine ⟨fun x hx => ?_, hun⟩
            rw [hall x hx]
            exact hpaid.mpr (hsend (hsends.mp (List.ne_nil_of_mem hx)))
        · refine iff_of_true (by simp) ⟨by simp, fun _ dbId stmts hdb hstmts => ?_⟩
          exact absurd hstmts (hnever dbId stmts hdb)

-- nobody has paid: the answer is 403, and the statement is executed all the same
def strangerEnv : DashboardEnv String where
  auth := true
  stripe := some { paymentLink := "https://buy.stripe.com/test", whitelistedDomains := ["iasql.com"] }
  iasqlUid := ""
  password := "secret"
  jwtDecode _ := some "kid"
  getSigningKey _ := .returned "key"
  jwtVerify _ _ := .ok { sub := some "auth0|eve", email := some "eve@example.com" }
  metaQuery _ := .returned ()
  userDatabases _ := []
  sessions := []
  sessionsEnd := .returned ()
  parse sql := .ok [sql]
  deparse statement := .ok statement
  connect _ := .returned ()
  query _ := .returned (.result "SELECT" (some 0) (some []) [])
  close _ := .returned ()
  interruptions _ := []
  errorId := "id"
  timeout := none

def strangerRequest : RunRequest where
  authorization := some "Bearer token"
  body := some ("iasql_metadata", "SELECT * FROM iasql_db_list()")

theorem refused_request_executes :
    (run strangerEnv strangerRequest).executed =
      [("iasql_metadata", "SELECT * FROM iasql_db_list()")] ∧
    (run strangerEnv strangerRequest).answers.length = 3 ∧ ¬ Safe strangerEnv strangerRequest := by
  have hlength : (run strangerEnv strangerRequest).answers.length = 3 := by decide +kernel
  refine ⟨by decide +kernel, hlength, fun hsafe => ?_⟩
  have honce := hsafe.once
  omega

end Verdict

end Iasql.Dashboard
