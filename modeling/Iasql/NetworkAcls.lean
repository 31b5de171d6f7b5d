import Iasql.Calculus.Rulesets
import Iasql.SecurityGroups
import Iasql.Tags

namespace Iasql.NetworkAcls

open Program Prog Aws SecurityGroups Tags

structure PortRange where
  fromPort : Option Int
  toPort : Option Int
deriving DecidableEq

structure IcmpTypeCode where
  code : Option Int
  type : Option Int
deriving DecidableEq

inductive RuleAction where
  | allow | deny
deriving DecidableEq

structure NetworkAclEntry where
  cidrBlock : Option String := none
  egress : Option Bool := none
  icmpTypeCode : Option IcmpTypeCode := none
  ipv6CidrBlock : Option String := none
  portRange : Option PortRange := none
  protocol : Option String := none
  ruleAction : Option RuleAction := none
  ruleNumber : Option Int := none
deriving DecidableEq

structure NetworkAcl where
  id : Option Nat := none
  networkAclId : Option String := none
  entries : Option (List NetworkAclEntry) := none
  tags : Option (Dict String String) := none
  vpc : Option Vpc := none
  region : String
deriving DecidableEq

def NetworkAcl.vpcId (e : NetworkAcl) : Option String := e.vpc.bind (·.vpcId)

def NetworkAcl.entityId (e : NetworkAcl) : String :=
  if Aws.truthy e.networkAclId && e.region != "" then generateId [e.networkAclId.getD "", e.region]
  else (e.id.map toString).getD "undefined"

def maxRuleNumber : Int := 32766

-- entries as 0 or above maxRuleNumber are default rules
def isDefaultRule (entry : NetworkAclEntry) : Bool :=
  entry.ruleNumber.getD 0 == 0 || decide (entry.ruleNumber.getD 0 > maxRuleNumber)

def userRules (entries : List NetworkAclEntry) : List NetworkAclEntry :=
  entries.filter fun entry => !isDefaultRule entry

def equals (a b : NetworkAcl) : Bool :=
  a.vpcId == b.vpcId && a.entries == b.entries && eqTags a.tags b.tags

section Ec2

-- in one direction a rule number is taken once
def NetworkAclEntry.key (entry : NetworkAclEntry) : Option Bool × Option Int :=
  (entry.egress, entry.ruleNumber)

structure AwsNetworkAcl where
  networkAclId : Option String
  vpcId : Option String
  isDefault : Bool := false
  entries : List NetworkAclEntry
  tags : Dict String String := ∅
deriving DecidableEq

-- the entries that AWS takes, the ones it gives each network ACL, and its answers
structure Service where
  accepts : NetworkAclEntry → Bool
  defaultEntries : List NetworkAclEntry
  defaults : ∀ entry ∈ defaultEntries, isDefaultRule entry = true
  createNetworkAcl : Dict String AwsNetworkAcl → String → Except Thrown String
  fresh : ∀ acls vpcId networkAclId, createNetworkAcl acls vpcId = .ok networkAclId →
    acls.get? networkAclId = none
  deleteNetworkAcl : AwsNetworkAcl → Except Thrown Unit

inductive RuleRequest where
  | create (networkAclId : Option String) (entry : NetworkAclEntry)
  | delete (networkAclId : Option String) (entry : NetworkAclEntry)
deriving DecidableEq

def RuleRequest.networkAclId : RuleRequest → Option String
  | .create networkAclId _ => networkAclId
  | .delete networkAclId _ => networkAclId

def RuleRequest.entry : RuleRequest → NetworkAclEntry
  | .create _ entry => entry
  | .delete _ entry => entry

def putEntries (acls : Dict String AwsNetworkAcl) (networkAclId : Option String) (refused : String)
    (change : List NetworkAclEntry → Option (List NetworkAclEntry)) :
    Except Thrown (Dict String AwsNetworkAcl) :=
  match networkAclId with
  | none => .error (.error "MissingParameter")
  | some id =>
    match acls.get? id with
    | none => .error (.error "InvalidNetworkAclID.NotFound")
    | some acl =>
      match change acl.entries with
      | none => .error (.error refused)
      | some entries => .ok (acls.set id { acl with entries })

def RuleRequest.answer (service : Service) (acls : Dict String AwsNetworkAcl) :
    RuleRequest → Except Thrown (Dict String AwsNetworkAcl)
  | .create networkAclId entry => putEntries acls networkAclId "NetworkAclEntryAlreadyExists"
      (Rulesets.insert NetworkAclEntry.key service.accepts entry)
  | .delete networkAclId entry => putEntries acls networkAclId "InvalidNetworkAclEntry.NotFound"
      (Rulesets.erase NetworkAclEntry.key entry.key)

-- the network ACLs of the region's client, the requests for rules, ctx.memo.cloud.NetworkAcl and
-- the saved records
structure State where
  acls : Dict String AwsNetworkAcl
  requests : List RuleRequest := []
  memo : Dict String NetworkAcl := ∅
  saved : List NetworkAcl := []

end Ec2

section Mapper

variable (vpc : String → String → Option Vpc)

-- vpc is vpc.db.read, or else vpc.cloud.read
def networkAclMapper (eg : AwsNetworkAcl) (region : String) : Option NetworkAcl :=
  if !Aws.truthy eg.networkAclId then none
  else some
    { vpc := vpc (eg.vpcId.getD "") region
      entries := some eg.entries
      tags := readTags eg.tags
      networkAclId := eg.networkAclId
      region }

end Mapper

section Crud

variable (vpc : String → String → Option Vpc) (service : Service)

def memo (e : NetworkAcl) (s : State) : State := { s with memo := s.memo.set e.entityId e }

def unmemo (e : NetworkAcl) (s : State) : State := { s with memo := s.memo.eraseAll [e.entityId] }

def save (e : NetworkAcl) (s : State) : State := { s with saved := s.saved ++ [e] }

def send (request : RuleRequest) : Prog State Thrown Unit := do
  writes fun s => { s with requests := s.requests ++ [request] }
  match ← reads fun s : State => request.answer service s.acls with
  | .error err => fail err
  | .ok acls => writes fun s => { s with acls }

def createNetworkAclEntry (networkAclId : Option String) (entry : NetworkAclEntry) :
    Prog State Thrown Unit := send service (.create networkAclId entry)

def deleteNetworkAclEntry (networkAclId : Option String) (entry : NetworkAclEntry) :
    Prog State Thrown Unit := send service (.delete networkAclId entry)

-- all tags are removed, and those of e are added
def updateTags (networkAclId : String) (tags : Option (Dict String String)) : Prog State Thrown Unit := do
  match ← reads fun s : State => s.acls.get? networkAclId with
  | none => fail (.error "InvalidNetworkAclID.NotFound")
  | some acl => writes fun s => { s with acls := s.acls.set networkAclId { acl with tags := tags.getD ∅ } }

def reread (networkAclId : String) (e : NetworkAcl) : Prog State Thrown (Option NetworkAcl) := do
  match ← reads fun s : State => s.acls.get? networkAclId with
  | none => return none
  | some rawAcl =>
    match networkAclMapper vpc rawAcl e.region with
    | none => return none
    | some newAcl => do
      let newAcl := { newAcl with id := e.id }
      writes (save newAcl)
      return some newAcl

-- the network ACL as AWS makes it
def granted (networkAclId : String) (e : NetworkAcl) : AwsNetworkAcl :=
  { networkAclId := some networkAclId
    vpcId := e.vpcId
    entries := service.defaultEntries
    tags := e.tags.getD ∅ }

-- the entries are sent as they are
def createOne (e : NetworkAcl) : Prog State Thrown (Option NetworkAcl) := do
  if !Aws.truthy e.vpcId then return none
  else
    match ← reads fun s : State => service.createNetworkAcl s.acls (e.vpcId.getD "") with
    | .error err => fail err
    | .ok networkAclId => do
      writes fun s => { s with acls := s.acls.set networkAclId (granted service networkAclId e) }
      each (createNetworkAclEntry service none) (e.entries.getD [])
      reread vpc networkAclId e

-- networkAcl.cloud.create
def create (e : NetworkAcl) : Prog State Thrown (Option NetworkAcl) := do
  writes (memo e)
  match ← attempt (createOne vpc service e) with
  | .ok newAcl => do
    writes fun s => newAcl.elim s fun newAcl => memo newAcl s
    return newAcl
  | .error err => do
    writes (unmemo e)
    fail err

-- networkAcl.cloud.delete
def delete (e : NetworkAcl) : Prog State Thrown Unit := do
  match ← reads fun s : State => s.acls.get? (e.networkAclId.getD "") with
  | none => fail (.error "InvalidNetworkAclID.NotFound")
  | some acl =>
    match service.deleteNetworkAcl acl with
    | .error err => fail err
    | .ok () => do
      writes fun s => { s with acls := s.acls.eraseAll [e.networkAclId.getD ""] }
      writes (unmemo e)

-- updateOrReplace
def replaces (a b : NetworkAcl) : Bool := !(a.vpcId == b.vpcId)

-- remove all non-default rules and recreate them
def updateEntries (cloudRecord e : NetworkAcl) : Prog State Thrown Unit := do
  each (deleteNetworkAclEntry service e.networkAclId) (userRules (cloudRecord.entries.getD []))
  each (createNetworkAclEntry service (some (e.networkAclId.getD ""))) (userRules (e.entries.getD []))

def updateInPlace (cloudRecord e : NetworkAcl) : Prog State Thrown (Option Unit) := do
  let entriesChanged := !(cloudRecord.entries == e.entries)
  let tagsChanged := !eqTags cloudRecord.tags e.tags
  runIf entriesChanged (updateEntries service cloudRecord e)
  runIf tagsChanged (updateTags (e.networkAclId.getD "") e.tags)
  runIf (entriesChanged || tagsChanged) do
    let _ ← reread vpc (e.networkAclId.getD "") e
  return none

def updateOne (e : NetworkAcl) : Prog State Thrown (Option Unit) := do
  match ← reads fun s : State => s.memo.get? e.entityId with
  | none => fail (.error "Cannot read properties of undefined (reading 'entries')")
  | some cloudRecord =>
    if replaces cloudRecord e then do
      delete service cloudRecord
      let _ ← create vpc service e
      return none
    else updateInPlace vpc service cloudRecord e

def update (es : List NetworkAcl) : Prog State Thrown Unit := do
  let _ ← forOf (updateOne vpc service) es

end Crud

section Requests

variable {service : Service} {s t : State} {acl : AwsNetworkAcl} {id refused : String}
  {mk : NetworkAclEntry → RuleRequest}
  {change : NetworkAclEntry → List NetworkAclEntry → Option (List NetworkAclEntry)}
  {rule : NetworkAclEntry} {rules : List NetworkAclEntry}

-- what a run of requests leaves behind: the entries of one network ACL, and the requests
structure Changed (s t : State) (id : String) (acl : AwsNetworkAcl) (entries : List NetworkAclEntry)
    (requests : List RuleRequest) : Prop where
  stored : t.acls.get? id = some { acl with entries }
  requests : t.requests = s.requests ++ requests
  memo : t.memo = s.memo

theorem Changed.append {u : State} {entries entries' : List NetworkAclEntry}
    {requests requests' : List RuleRequest} (h : Changed s t id acl entries requests)
    (h' : Changed t u id { acl with entries } entries' requests') :
    Changed s u id acl entries' (requests ++ requests') :=
  ⟨h'.stored, by rw [h'.requests, h.requests, List.append_assoc], h'.memo.trans h.memo⟩

theorem send_apply (hanswer : ∀ acls, (mk rule).answer service acls =
      putEntries acls (some id) refused (change rule)) (hacl : s.acls.get? id = some acl) :
    match change rule acl.entries with
    | some entries => ∃ t, send service (mk rule) s = (.returned (), t) ∧
        Changed s t id acl entries [mk rule]
    | none => ∃ err t, send service (mk rule) s = (.thrown err, t) := by
  rw [send, writes_bind_apply]
  simp only [reads_bind_apply, hanswer, putEntries, hacl]
  cases change rule acl.entries with
  | none => exact ⟨_, _, rfl⟩
  | some entries => exact ⟨_, rfl, ⟨Dict.get?_set_self, rfl, rfl⟩⟩

theorem each_send (hanswer : ∀ rule acls, (mk rule).answer service acls =
      putEntries acls (some id) refused (change rule)) (hacl : s.acls.get? id = some acl) :
    match Rulesets.changeAll change rules acl.entries with
    | some entries => ∃ t, each (fun rule => send service (mk rule)) rules s = (.returned (), t) ∧
        Changed s t id acl entries (rules.map mk)
    | none => ∃ err t, each (fun rule => send service (mk rule)) rules s = (.thrown err, t) := by
  induction rules generalizing s acl with
  | nil => exact ⟨s, rfl, hacl, (List.append_nil _).symm, rfl⟩
  | cons rule rules ih =>
    have hfirst := @send_apply service s acl id refused mk change rule (hanswer rule) hacl
    rw [Rulesets.changeAll]
    cases hchange : change rule acl.entries with
    | none =>
      rw [hchange] at hfirst
      obtain ⟨err, t, hsend⟩ := hfirst
      exact ⟨err, t, bind_of_thrown hsend⟩
    | some entries =>
      rw [hchange] at hfirst
      obtain ⟨t, hsend, hchanged⟩ := hfirst
      have hrest := @ih t { acl with entries } hchanged.stored
      have heach : each (fun rule => send service (mk rule)) (rule :: rules) s =
          each (fun rule => send service (mk rule)) rules t := bind_of_returned hsend
      rw [Option.bind_some, heach]
      cases hall : Rulesets.changeAll change rules entries with
      | none => rwa [hall] at hrest
      | some out =>
        rw [hall] at hrest
        obtain ⟨u, hrun, hchanged'⟩ := hrest
        exact ⟨u, hrun, hchanged.append hchanged'⟩

end Requests

section Rules

variable {service : Service} {entries rules out : List NetworkAclEntry} {a b : NetworkAclEntry}

def Storable (service : Service) (rules : List NetworkAclEntry) : Prop :=
  Rulesets.Storable NetworkAclEntry.key service.accepts rules

-- the user rules of the list plus the default ones
def Holds (service : Service) (entries : List NetworkAclEntry) (acl : AwsNetworkAcl) : Prop :=
  acl.entries.Perm (userRules entries ++ service.defaultEntries)

-- a network ACL as AWS keeps it
structure Ruled (service : Service) (acl : AwsNetworkAcl) : Prop where
  holds : Holds service acl.entries acl
  storable : Storable service (userRules acl.entries)

theorem mem_userRules : a ∈ userRules entries ↔ a ∈ entries ∧ isDefaultRule a = false := by
  rw [userRules, List.mem_filter, Bool.not_eq_true']

theorem isDefaultRule_congr (h : a.key = b.key) : isDefaultRule a = isDefaultRule b := by
  have hnumber : a.ruleNumber = b.ruleNumber := congrArg Prod.snd h
  rw [isDefaultRule, isDefaultRule, hnumber]

theorem key_ne_of_default (ha : isDefaultRule a = true) (hb : isDefaultRule b = false) :
    a.key ≠ b.key := fun h => by
  rw [isDefaultRule_congr h, hb] at ha
  cases ha

theorem userRules_append_default :
    (userRules entries ++ entries.filter isDefaultRule).Perm entries := by
  rw [userRules]
  exact (List.perm_append_comm.trans (List.filter_append_perm isDefaultRule entries))

-- the default rules that are left when the others are removed
theorem eraseAll_userRules (h : Storable service (userRules entries)) :
    Rulesets.eraseAll NetworkAclEntry.key (userRules entries) entries =
      some (entries.filter isDefaultRule) := by
  have hsub : ∀ a ∈ userRules entries, ∃ r ∈ entries, r.key = a.key :=
    fun a ha => ⟨a, (mem_userRules.mp ha).1, rfl⟩
  refine (Rulesets.eraseAll_eq_some hsub h.apart).trans ?_
  refine congrArg some (List.filter_congr fun r hr => ?_)
  cases hdefault : isDefaultRule r with
  | true =>
    rw [Bool.not_eq_true', List.any_eq_false]
    intro a ha hkey
    exact key_ne_of_default hdefault (mem_userRules.mp ha).2 (by simpa using hkey)
  | false =>
    rw [Bool.not_eq_false', List.any_eq_true]
    exact ⟨r, mem_userRules.mpr ⟨hr, hdefault⟩, by simp⟩

theorem insertAll_userRules :
    Rulesets.insertAll NetworkAclEntry.key service.accepts (userRules rules)
        (entries.filter isDefaultRule) = some out ↔
      out = entries.filter isDefaultRule ++ userRules rules ∧ Storable service (userRules rules) := by
  rw [Rulesets.insertAll_eq_some_iff]
  refine and_congr_right fun _ => and_iff_left fun a ha r hr => ?_
  exact key_ne_of_default (List.mem_filter.mp hr).2 (mem_userRules.mp ha).2

theorem Ruled.default_perm {acl : AwsNetworkAcl} (h : Ruled service acl) :
    (acl.entries.filter isDefaultRule).Perm service.defaultEntries :=
  (List.perm_append_left_iff (userRules acl.entries)).mp (userRules_append_default.trans h.holds)

end Rules

section Agreement

variable {vpc : String → String → Option Vpc} {service : Service} {s t : State} {e c : NetworkAcl}
  {acl : AwsNetworkAcl} {networkAclId : String}

-- every request for a rule is to the network ACL, and none for a default rule
def Addressed (networkAclId : String) (s t : State) : Prop :=
  ∃ part, t.requests = s.requests ++ part ∧
    ∀ request ∈ part, request.networkAclId = some networkAclId ∧ isDefaultRule request.entry = false

def LeadsTo {α : Type} (service : Service) (run : Prog State Thrown α) (s : State) (networkAclId : String)
    (entries : List NetworkAclEntry) : Prop :=
  ∃ a t acl, run s = (.returned a, t) ∧ t.acls.get? networkAclId = some acl ∧
    Holds service entries acl ∧ Addressed networkAclId s t

-- the VPC is there, and AWS makes a network ACL in it
structure Creatable (service : Service) (s : State) (e : NetworkAcl) (networkAclId : String) : Prop where
  vpcId : Aws.truthy e.vpcId = true
  granted : service.createNetworkAcl s.acls (e.vpcId.getD "") = .ok networkAclId

-- the record e of the database is the network ACL acl of AWS, which was read as c
structure Existing (vpc : String → String → Option Vpc) (service : Service) (s : State)
    (e c : NetworkAcl) (acl : AwsNetworkAcl) : Prop where
  memoised : s.memo.get? e.entityId = some c
  stored : s.acls.get? (e.networkAclId.getD "") = some acl
  identified : acl.networkAclId = e.networkAclId
  read : networkAclMapper vpc acl e.region = some c
  vpcId : c.vpcId = e.vpcId
  ruled : Ruled service acl

theorem granted_holds (h : e.entries.getD [] = []) :
    Holds service (e.entries.getD []) (granted service networkAclId e) := by
  rw [Holds, h]
  rfl

theorem reread_apply (hacl : s.acls.get? networkAclId = some acl)
    (hmapped : networkAclMapper vpc acl e.region = some c) :
    reread vpc networkAclId e s =
      (.returned (some { c with id := e.id }), save { c with id := e.id } s) := by
  simp only [reread, reads_bind_apply, hacl, hmapped]
  rfl

-- what the requests of the first entry do: it is sent to no network ACL
theorem createOne_cons {entry : NetworkAclEntry} {rest : List NetworkAclEntry}
    (h : Creatable service s e networkAclId) (hentries : e.entries.getD [] = entry :: rest) :
    ∃ err t, createOne vpc service e s = (.thrown err, t) ∧
      t.acls.get? networkAclId = some (granted service networkAclId e) := by
  rw [createOne, h.vpcId]
  simp only [Bool.not_true, Bool.false_eq_true, if_false, reads_bind_apply, h.granted, hentries]
  exact ⟨_, _, rfl, Dict.get?_set_self⟩

theorem createOne_nil (h : Creatable service s e networkAclId) (hentries : e.entries.getD [] = []) :
    ∃ a t, createOne vpc service e s = (.returned a, t) ∧ t.requests = s.requests ∧
      t.acls.get? networkAclId = some (granted service networkAclId e) := by
  rw [createOne, h.vpcId]
  simp only [Bool.not_true, Bool.false_eq_true, if_false, reads_bind_apply, h.granted, hentries,
    writes_bind_apply, each, pure_bind_apply]
  have hstored : (s.acls.set networkAclId (granted service networkAclId e)).get? networkAclId =
    some (granted service networkAclId e) := Dict.get?_set_self
  simp only [reread, reads_bind_apply, hstored]
  cases networkAclMapper vpc (granted service networkAclId e) e.region with
  | none => exact ⟨_, _, rfl, rfl, hstored⟩
  | some newAcl => exact ⟨_, _, rfl, rfl, hstored⟩

theorem create_acls (h : Creatable service s e networkAclId) :
    (create vpc service e s).2.acls.get? networkAclId = some (granted service networkAclId e) := by
  have h' : Creatable service (memo e s) e networkAclId := ⟨h.vpcId, h.granted⟩
  simp only [create, writes_bind_apply]
  cases hentries : e.entries.getD [] with
  | cons entry rest =>
    obtain ⟨err, t, hrun, hacl⟩ := @createOne_cons vpc _ _ _ _ entry rest h' hentries
    rw [bind_of_returned (attempt_error.mpr hrun)]
    exact hacl
  | nil =>
    obtain ⟨a, t, hrun, -, hacl⟩ := @createOne_nil vpc _ _ _ _ h' hentries
    rw [bind_of_returned (attempt_ok.mpr hrun)]
    cases a with
    | none => exact hacl
    | some newAcl => exact hacl

theorem leadsTo_create_iff (h : Creatable service s e networkAclId) :
    LeadsTo service (create vpc service e) s networkAclId (e.entries.getD []) ↔
      e.entries.getD [] = [] := by
  have h' : Creatable service (memo e s) e networkAclId := ⟨h.vpcId, h.granted⟩
  rw [LeadsTo, create]
  simp only [writes_bind_apply]
  cases hentries : e.entries.getD [] with
  | cons entry rest =>
    obtain ⟨err, t, hrun, -⟩ := @createOne_cons vpc _ _ _ _ entry rest h' hentries
    refine iff_of_false ?_ (List.cons_ne_nil entry rest)
    rintro ⟨a, u, acl, hcreate, -⟩
    rw [bind_of_returned (attempt_error.mpr hrun)] at hcreate
    cases hcreate
  | nil =>
    obtain ⟨a, t, hrun, hrequests, hstored⟩ := @createOne_nil vpc _ _ _ _ h' hentries
    refine iff_of_true ?_ rfl
    rw [bind_of_returned (attempt_ok.mpr hrun)]
    have hholds : Holds service [] (granted service networkAclId e) := hentries ▸ granted_holds hentries
    have hkept : ∀ newAcl : Option NetworkAcl,
        (newAcl.elim t fun newAcl => memo newAcl t).acls = t.acls ∧
          (newAcl.elim t fun newAcl => memo newAcl t).requests = s.requests ++ [] := by
      intro newAcl
      rw [List.append_nil]
      cases newAcl with
      | none => exact ⟨rfl, hrequests⟩
      | some newAcl => exact ⟨rfl, hrequests⟩
    obtain ⟨hacls, hsent⟩ := hkept a
    refine ⟨a, _, granted service networkAclId e, rfl, ?_, hholds, [], hsent,
      List.forall_mem_nil _⟩
    rw [hacls]
    exact hstored

theorem Existing.id (h : Existing vpc service s e c acl) :
    e.networkAclId = some (e.networkAclId.getD "") := by
  have hread := h.read
  rw [networkAclMapper, h.identified] at hread
  cases hid : e.networkAclId with
  | none =>
    rw [hid] at hread
    cases hread
  | some id => rfl

theorem Existing.entries (h : Existing vpc service s e c acl) : c.entries = some acl.entries := by
  have hread := h.read
  rw [networkAclMapper] at hread
  split at hread
  · cases hread
  · cases hread
    rfl

-- the rules are removed, and those of e are added if they can be in one network ACL
theorem updateEntries_apply (h : Existing vpc service s e c acl) :
    (Storable service (userRules (e.entries.getD [])) → ∃ t,
      updateEntries service c e s = (.returned (), t) ∧
        Changed s t (e.networkAclId.getD "") acl
          (acl.entries.filter isDefaultRule ++ userRules (e.entries.getD []))
          ((userRules acl.entries).map (.delete e.networkAclId) ++
            (userRules (e.entries.getD [])).map (.create e.networkAclId))) ∧
    (¬ Storable service (userRules (e.entries.getD [])) → ∃ err t,
      updateEntries service c e s = (.thrown err, t)) := by
  have hid := h.id
  have hdelete := @each_send service s acl (e.networkAclId.getD "") "InvalidNetworkAclEntry.NotFound"
    (.delete e.networkAclId) (fun rule => Rulesets.erase NetworkAclEntry.key rule.key)
    (userRules acl.entries) (fun _ _ => by rw [hid]; rfl) h.stored
  rw [show Rulesets.changeAll _ _ _ = _ from eraseAll_userRules h.ruled.storable] at hdelete
  obtain ⟨t, hdeleted, hchanged⟩ := hdelete
  have hcreate := @each_send service t _ (e.networkAclId.getD "") "NetworkAclEntryAlreadyExists"
    (.create e.networkAclId) (Rulesets.insert NetworkAclEntry.key service.accepts)
    (userRules (e.entries.getD [])) (fun _ _ => by rw [hid]; rfl) hchanged.stored
  have hrun : updateEntries service c e s = each (fun entry => send service
      (.create e.networkAclId entry)) (userRules (e.entries.getD [])) t := by
    rw [updateEntries, h.entries, Option.getD_some]
    refine (bind_of_returned hdeleted).trans ?_
    rw [← hid]
    rfl
  rw [hrun]
  constructor
  · intro hstorable
    rw [show Rulesets.changeAll _ _ _ = _ from insertAll_userRules.mpr ⟨rfl, hstorable⟩] at hcreate
    obtain ⟨u, hcreated, hchanged'⟩ := hcreate
    exact ⟨u, hcreated, hchanged.append hchanged'⟩
  · intro hnot
    cases hall : Rulesets.insertAll NetworkAclEntry.key service.accepts
        (userRules (e.entries.getD [])) (acl.entries.filter isDefaultRule) with
    | some out => exact absurd (insertAll_userRules.mp hall).2 hnot
    | none =>
      rw [show Rulesets.changeAll _ _ _ = _ from hall] at hcreate
      exact hcreate

-- what is left of the turn changes no rule
theorem settle_apply {tagsChanged changed : Bool} (hacl : s.acls.get? networkAclId = some acl) :
    ∃ t, (do
        runIf tagsChanged (updateTags networkAclId e.tags)
        runIf changed do
          let _ ← reread vpc networkAclId e
        return none : Prog State Thrown (Option Unit)) s = (.returned none, t) ∧
      t.acls.get? networkAclId =
        some { acl with tags := if tagsChanged then e.tags.getD ∅ else acl.tags } ∧
      t.requests = s.requests := by
  have hreread : ∀ {u : State} {acl'}, u.acls.get? networkAclId = some acl' → ∃ t,
      (do runIf changed do
            let _ ← reread vpc networkAclId e
          return none : Prog State Thrown (Option Unit)) u = (.returned none, t) ∧
        t.acls = u.acls ∧ t.requests = u.requests := by
    intro u acl' hacl'
    cases changed with
    | false => exact ⟨u, rfl, rfl, rfl⟩
    | true =>
      cases hmapped : networkAclMapper vpc acl' e.region with
      | none =>
        have hrun : reread vpc networkAclId e u = (.returned none, u) := by
          simp only [reread, reads_bind_apply, hacl', hmapped]
          rfl
        refine ⟨u, ?_, rfl, rfl⟩
        exact bind_of_returned (bind_of_returned hrun)
      | some newAcl =>
        refine ⟨save { newAcl with id := e.id } u, ?_, rfl, rfl⟩
        exact bind_of_returned (bind_of_returned (reread_apply hacl' hmapped))
  cases tagsChanged with
  | false =>
    obtain ⟨t, hrun, hacls, hrequests⟩ := hreread hacl
    exact ⟨t, hrun, by rw [hacls]; exact hacl, hrequests⟩
  | true =>
    have htags : updateTags networkAclId e.tags s = (.returned (), { s with
        acls := s.acls.set networkAclId { acl with tags := e.tags.getD ∅ } }) := by
      simp only [updateTags, reads_bind_apply, hacl]
      rfl
    obtain ⟨t, hrun, hacls, hrequests⟩ := @hreread { s with
      acls := s.acls.set networkAclId { acl with tags := e.tags.getD ∅ } } _ Dict.get?_set_self
    refine ⟨t, (bind_of_returned htags).trans hrun, ?_, hrequests⟩
    rw [hacls]
    exact Dict.get?_set_self

theorem Existing.userRules_storable (h : Existing vpc service s e c acl)
    (hsame : c.entries = e.entries) : Storable service (userRules (e.entries.getD [])) ∧
      Holds service (e.entries.getD []) acl := by
  rw [← hsame, h.entries]
  exact ⟨h.ruled.storable, h.ruled.holds⟩

-- the tags that AWS has behind the update
def pushedTags (c e : NetworkAcl) (acl : AwsNetworkAcl) : Dict String String :=
  if eqTags c.tags e.tags then acl.tags else e.tags.getD ∅

theorem updateInPlace_storable (h : Existing vpc service s e c acl)
    (hstorable : Storable service (userRules (e.entries.getD []))) : ∃ t acl',
      updateInPlace vpc service c e s = (.returned none, t) ∧
        t.acls.get? (e.networkAclId.getD "") = some acl' ∧ Holds service (e.entries.getD []) acl' ∧
        acl'.networkAclId = acl.networkAclId ∧ acl'.tags = pushedTags c e acl ∧
        Addressed (e.networkAclId.getD "") s t := by
  have htags : ∀ acl' : AwsNetworkAcl, acl'.tags = acl.tags →
      (if !eqTags c.tags e.tags then e.tags.getD ∅ else acl'.tags) = pushedTags c e acl := by
    intro acl' hkept
    rw [pushedTags, hkept]
    cases eqTags c.tags e.tags <;> rfl
  rw [updateInPlace]
  cases hentries : c.entries == e.entries with
  | true =>
    obtain ⟨t, hrun, hacl, hrequests⟩ := @settle_apply vpc s e acl
      (e.networkAclId.getD "") (!eqTags c.tags e.tags) (!true || !eqTags c.tags e.tags) h.stored
    exact ⟨t, _, hrun, hacl, (h.userRules_storable (beq_iff_eq.mp hentries)).2, rfl,
      htags acl rfl, [], by rw [hrequests, List.append_nil], List.forall_mem_nil _⟩
  | false =>
    obtain ⟨u, hupdated, hchanged⟩ := (updateEntries_apply h).1 hstorable
    obtain ⟨t, hrun, hacl, hrequests⟩ := @settle_apply vpc u e _
      (e.networkAclId.getD "") (!eqTags c.tags e.tags) (!false || !eqTags c.tags e.tags)
      hchanged.stored
    refine ⟨t, _, (bind_of_returned hupdated).trans hrun, hacl, ?_, rfl, htags acl rfl, _,
      hrequests.trans hchanged.requests, fun request hrequest => ?_⟩
    · exact (h.ruled.default_perm.append_right _).trans List.perm_append_comm
    · rw [← h.id]
      rcases List.mem_append.mp hrequest with hrequest | hrequest
      · obtain ⟨entry, hentry, rfl⟩ := List.mem_map.mp hrequest
        exact ⟨rfl, (mem_userRules.mp hentry).2⟩
      · obtain ⟨entry, hentry, rfl⟩ := List.mem_map.mp hrequest
        exact ⟨rfl, (mem_userRules.mp hentry).2⟩

theorem updateInPlace_throws (h : Existing vpc service s e c acl)
    (hnot : ¬ Storable service (userRules (e.entries.getD []))) :
    ∃ err t, updateInPlace vpc service c e s = (.thrown err, t) := by
  have hentries : (c.entries == e.entries) = false :=
    beq_eq_false_iff_ne.mpr fun hsame => hnot (h.userRules_storable hsame).1
  obtain ⟨err, t, hrun⟩ := (updateEntries_apply h).2 hnot
  refine ⟨err, t, ?_⟩
  rw [updateInPlace, hentries]
  exact bind_of_thrown hrun

theorem updateOne_apply (h : Existing vpc service s e c acl) :
    updateOne vpc service e s = updateInPlace vpc service c e s := by
  have hreplaces : replaces c e = false := by
    rw [replaces, h.vpcId, beq_self_eq_true]
    rfl
  simp only [updateOne, reads_bind_apply, h.memoised, hreplaces]
  rfl

theorem leadsTo_update_iff (h : Existing vpc service s e c acl) :
    LeadsTo service (update vpc service [e]) s (e.networkAclId.getD "") (e.entries.getD []) ↔
      Storable service (userRules (e.entries.getD [])) := by
  constructor
  · rintro ⟨_, t, acl', hupdate, -⟩
    by_contra hnot
    obtain ⟨err, u, hrun⟩ := updateInPlace_throws h hnot
    rw [← updateOne_apply h] at hrun
    rw [update, bind_of_thrown (forOf_throw hrun)] at hupdate
    cases hupdate
  · intro hstorable
    obtain ⟨t, acl', hrun, hacl, hholds, -, -, haddressed⟩ := updateInPlace_storable h hstorable
    rw [← updateOne_apply h] at hrun
    refine ⟨(), t, acl', ?_, hacl, hholds, haddressed⟩
    rw [update, bind_of_returned (forOf_next hrun)]
    rfl

-- both paths lead to the rules exactly where there are none, and the update wherever AWS can hold them
theorem rules_agree_iff (vpc : String → String → Option Vpc) (service : Service)
    (entries : Option (List NetworkAclEntry)) (s s' : State) (e d c : NetworkAcl)
    (acl : AwsNetworkAcl) (networkAclId : String)
    (h : Creatable service s { e with entries } networkAclId)
    (h' : Existing vpc service s' { d with entries } c acl) :
    (LeadsTo service (create vpc service { e with entries }) s networkAclId (entries.getD []) ∧
        LeadsTo service (update vpc service [{ d with entries }]) s' (d.networkAclId.getD "")
          (entries.getD []) ↔ entries.getD [] = []) ∧
      (LeadsTo service (update vpc service [{ d with entries }]) s' (d.networkAclId.getD "")
          (entries.getD []) ↔ Storable service (userRules (entries.getD []))) := by
  have hcreate := @leadsTo_create_iff vpc service s { e with entries } networkAclId h
  have hupdate := leadsTo_update_iff h'
  refine ⟨⟨fun hboth => hcreate.mp hboth.1, fun hnone => ⟨hcreate.mpr hnone, hupdate.mpr ?_⟩⟩, hupdate⟩
  change Storable service (userRules (entries.getD []))
  rw [hnone]
  exact ⟨List.forall_mem_nil _, .nil⟩

end Agreement

section Rows

def catchAll (egress : Bool) : NetworkAclEntry :=
  { cidrBlock := some "0.0.0.0/0"
    egress := some egress
    protocol := some "-1"
    ruleAction := some .deny
    ruleNumber := some 32767 }

def allowAt (ruleNumber : Int) : NetworkAclEntry :=
  { cidrBlock := some "10.0.0.0/16"
    egress := some false
    protocol := some "-1"
    ruleAction := some .allow
    ruleNumber := some ruleNumber }

def oneAcl : Service where
  accepts _ := true
  defaultEntries := [catchAll true, catchAll false]
  defaults := by decide
  createNetworkAcl acls _ := match acls.get? "acl-1" with
    | none => .ok "acl-1"
    | some _ => .error (.error "NetworkAclLimitExceeded")
  fresh acls _ networkAclId h := by
    split at h
    · next hnone =>
      cases h
      exact hnone
    · cases h
  deleteNetworkAcl _ := .ok ()

def mainVpc : Vpc := { vpcId := some "vpc-1", region := "us-east-1" }

def readVpc (vpcId region : String) : Option Vpc := some { vpcId := some vpcId, region }

def inserted : NetworkAcl := { id := some 1, vpc := some mainVpc, region := "us-east-1" }

def existing : NetworkAcl := { inserted with networkAclId := some "acl-1" }

def keptAcl : AwsNetworkAcl :=
  { networkAclId := some "acl-1"
    vpcId := some "vpc-1"
    entries := [allowAt 100, catchAll true, catchAll false] }

def keptRecord : NetworkAcl :=
  { networkAclId := some "acl-1"
    entries := some keptAcl.entries
    vpc := some mainVpc
    region := "us-east-1" }

def imported : State where
  acls := (∅ : Dict String AwsNetworkAcl).set "acl-1" keptAcl
  memo := (∅ : Dict String NetworkAcl).set existing.entityId keptRecord

theorem creatable_inserted (entries : Option (List NetworkAclEntry)) :
    Creatable oneAcl { acls := ∅ } { inserted with entries } "acl-1" := ⟨rfl, rfl⟩

theorem existing_imported (entries : Option (List NetworkAclEntry)) :
    Existing readVpc oneAcl imported { existing with entries } keptRecord keptAcl where
  memoised := Dict.get?_set_self
  stored := Dict.get?_set_self
  identified := rfl
  read := rfl
  vpcId := rfl
  ruled :=
    { holds := .refl _
      storable := ⟨fun _ _ => rfl, by decide⟩ }

-- a row with two other rules and the default ones is taken over by the update
theorem update_replaces_rules :
    LeadsTo oneAcl (update readVpc oneAcl
      [{ existing with entries := some [allowAt 200, allowAt 300, catchAll true, catchAll false] }])
      imported "acl-1" [allowAt 200, allowAt 300, catchAll true, catchAll false] :=
  (rules_agree_iff readVpc oneAcl (some [allowAt 200, allowAt 300, catchAll true, catchAll false])
    { acls := ∅ } imported inserted existing keptRecord keptAcl "acl-1" (creatable_inserted _)
    (existing_imported _)).2.mpr ⟨fun _ _ => rfl, by decide⟩

theorem rule_sent_nowhere :
    ¬ LeadsTo oneAcl (create readVpc oneAcl { inserted with entries := some [allowAt 100] })
      { acls := ∅ } "acl-1" [allowAt 100] :=
  fun h => absurd ((leadsTo_create_iff (creatable_inserted (some [allowAt 100]))).mp h)
    (List.cons_ne_nil _ _)

end Rows

end Iasql.NetworkAcls
