import Iasql.Calculus.Jsonb
import Iasql.ProfilesFollow

namespace Iasql.Ec2Roles

open AwsDiff CanonicalPolicy InstanceProfiles Jsonb
open Roles (IamRole allowEc2Service holds isEc2)
open OrderedMap (find)

section Source

-- a number of a document is told apart by its text
abbrev Document := Jsonb.Value JsString JsString

def object (fields : List (JsString × Option Document)) : Document := .obj (defined fields)

def ofStrings : OneOrMany JsString → Document
  | .one s => .str s
  | .many ss => .arr (ss.map .str)

def ofPrincipal : Principal → Document
  | .star => .str (js "*")
  | .kinds k => object [(js "AWS", k.aws.map ofStrings), (js "Service", k.service.map ofStrings),
      (js "Federated", k.federated.map ofStrings)]

def ofConditionValue : ConditionValue → Document
  | .str s => .str s
  | .bool b => .bool b
  | .num text => .num text

def ofConditionValues : OneOrMany ConditionValue → Document
  | .one v => ofConditionValue v
  | .many vs => .arr (vs.map ofConditionValue)

def ofCondition (condition : Condition) : Document :=
  .obj (condition.entries.map fun operator =>
    (operator.1, .obj (operator.2.entries.map fun keyVal => (keyVal.1, ofConditionValues keyVal.2))))

def ofEffect : Effect → Document
  | .allow => .str (js "Allow")
  | .deny => .str (js "Deny")

def ofStatement (s : CanonicalPolicy.Statement) : Document :=
  object [(js "Action", s.action.map ofStrings), (js "NotAction", s.notAction.map ofStrings),
    (js "Principal", s.principal.map ofPrincipal), (js "NotPrincipal", s.notPrincipal.map ofPrincipal),
    (js "Resource", s.resource.map ofStrings), (js "NotResource", s.notResource.map ofStrings),
    (js "Condition", s.condition.map ofCondition), (js "Effect", some (ofEffect s.effect)),
    (js "Sid", s.sid.map .str)]

def ofPolicy (p : Policy) : Document :=
  object [(js "Id", p.id.map .str),
    (js "Statement", some (match p.statement with
      | .one s => ofStatement s
      | .many ss => .arr (ss.map ofStatement))),
    (js "Version", some (.str p.version))]

-- '[{"Effect": "Allow", "Principal": { "Service": "ec2.amazonaws.com" }}]'
def ec2Statements : Document :=
  .arr [.obj [(js "Effect", .str (js "Allow")),
    (js "Principal", .obj [(js "Service", .str (js "ec2.amazonaws.com"))])]]

-- a row without a document is not counted
def trustsEc2 (row : IamRole) : Bool :=
  (row.assumeRolePolicyDocument.bind fun p => get (js "Statement") (ofPolicy p)).any fun statement =>
    containsTop statement ec2Statements

def checkRoleEc2 (iamRole : List IamRole) (roleName : String) : Bool :=
  let numberOfRecords := (iamRole.filter fun row => row.roleName == roleName && trustsEc2 row).length
  decide (0 < numberOfRecords)

-- String.prototype.replace, of the first place where the text is
def replace (text by_ : List Char) : List Char → List Char
  | [] => if text.isEmpty then by_ else []
  | c :: cs => if text.isPrefixOf (c :: cs) then by_ ++ (c :: cs).drop text.length else c :: replace text by_ cs

-- the profile that an instance is launched with
def iamInstanceProfile (role : IamRole) : Option String :=
  match role.arn with
  | none => none
  | some arn => if arn = "" then none
    else some (String.ofList (replace ":role/".toList ":instance-profile/".toList arn.toList))

end Source

section Agreement

-- the statement lets ec2 take the role
def AllowsEc2 (s : CanonicalPolicy.Statement) : Prop :=
  s.effect = .allow ∧ ∃ k, s.principal = some (.kinds k) ∧
    ∃ service, k.service = some service ∧ js "ec2.amazonaws.com" ∈ service.toList

-- and does so by its service alone, not in a list
def AllowsEc2Alone (s : CanonicalPolicy.Statement) : Prop :=
  s.effect = .allow ∧ ∃ k, s.principal = some (.kinds k) ∧ k.service = some (.one (js "ec2.amazonaws.com"))

def Plain (p : Policy) : Prop :=
  (∃ s ∈ p.statement.toList, AllowsEc2 s) → ∃ ss, p.statement = .many ss ∧ ∃ s ∈ ss, AllowsEc2Alone s

structure Account where
  digits : String
  isDigit : ∀ c ∈ digits.toList, c.isDigit = true

def roleArn (account : Account) (roleName : String) : String :=
  "arn:aws:iam::" ++ account.digits ++ ":role/" ++ roleName

def profileArn (account : Account) (roleName : String) : String :=
  "arn:aws:iam::" ++ account.digits ++ ":instance-profile/" ++ roleName

structure Agree (lower : LowerCase) (account : Account) (iamRole : List IamRole) (role : IamRole) : Prop where
  accepted : checkRoleEc2 iamRole role.roleName = true ↔ allowEc2Service lower role = true
  created : ∀ s : Iam, s.roles role.roleName = none → s.profiles role.roleName = none →
    ((createOne lower { createdArn := roleArn account role.roleName } role s).2.profiles role.roleName = some true ↔
      allowEc2Service lower role = true)
  derived : iamInstanceProfile { role with arn := some (roleArn account role.roleName) } =
    some (profileArn account role.roleName)

end Agreement

section Document

variable {s : CanonicalPolicy.Statement} {p : Policy}

theorem ofStrings_eq_str {service : OneOrMany JsString} {text : JsString} :
    ofStrings service = .str text ↔ service = .one text := by
  cases service <;> simp [ofStrings]

theorem ofEffect_eq_allow {effect : Effect} : ofEffect effect = .str (js "Allow") ↔ effect = .allow := by
  cases effect
  · simp [ofEffect]
  · simp only [ofEffect, Jsonb.Value.str.injEq, reduceCtorEq, iff_false]
    decide

theorem get_statement (p : Policy) : get (js "Statement") (ofPolicy p) = some (match p.statement with
    | .one s => ofStatement s
    | .many ss => .arr (ss.map ofStatement)) := by
  have hkeys : [js "Id", js "Statement", js "Version"].Nodup := by decide
  exact find_defined hkeys

theorem contains_principal {principal : Principal} :
    contains (ofPrincipal principal) (.obj [(js "Service", .str (js "ec2.amazonaws.com"))]) = true ↔
      ∃ k, principal = .kinds k ∧ k.service = some (.one (js "ec2.amazonaws.com")) := by
  cases principal with
  | star => simp [ofPrincipal, contains]
  | kinds k =>
    have hkeys : [js "AWS", js "Service", js "Federated"].Nodup := by decide
    have hfind : find (js "Service") (defined [(js "AWS", k.aws.map ofStrings),
        (js "Service", k.service.map ofStrings), (js "Federated", k.federated.map ofStrings)]) =
        k.service.map ofStrings := find_defined_of_find hkeys rfl
    rw [ofPrincipal, object, contains_obj_cons, hfind]
    simp only [contains_obj_nil, and_true, contains_str, Option.map_eq_some_iff]
    constructor
    · rintro ⟨v, ⟨service, hservice, rfl⟩, hv⟩
      exact ⟨k, rfl, by rw [hservice, ofStrings_eq_str.mp hv]⟩
    · rintro ⟨k', hk', hservice⟩
      cases hk'
      exact ⟨_, ⟨_, hservice, rfl⟩, rfl⟩

def statementFields (s : CanonicalPolicy.Statement) : List (JsString × Option Document) :=
  [(js "Action", s.action.map ofStrings), (js "NotAction", s.notAction.map ofStrings),
    (js "Principal", s.principal.map ofPrincipal), (js "NotPrincipal", s.notPrincipal.map ofPrincipal),
    (js "Resource", s.resource.map ofStrings), (js "NotResource", s.notResource.map ofStrings),
    (js "Condition", s.condition.map ofCondition), (js "Effect", some (ofEffect s.effect)),
    (js "Sid", s.sid.map .str)]

theorem contains_statement : contains (ofStatement s) (.obj [(js "Effect", .str (js "Allow")),
    (js "Principal", .obj [(js "Service", .str (js "ec2.amazonaws.com"))])]) = true ↔ AllowsEc2Alone s := by
  have hkeys : [js "Action", js "NotAction", js "Principal", js "NotPrincipal", js "Resource", js "NotResource",
    js "Condition", js "Effect", js "Sid"].Nodup := by decide
  have heffect : find (js "Effect") (defined (statementFields s)) = some (ofEffect s.effect) :=
    find_defined_of_find hkeys rfl
  have hprincipal : find (js "Principal") (defined (statementFields s)) = s.principal.map ofPrincipal :=
    find_defined_of_find hkeys rfl
  have hstatement : ofStatement s = .obj (defined (statementFields s)) := rfl
  rw [hstatement, contains_obj_cons, contains_obj_cons, heffect, hprincipal]
  simp only [contains_obj_nil, and_true, contains_str, Option.map_eq_some_iff, Option.some.injEq,
    exists_eq_left', ofEffect_eq_allow]
  refine and_congr_right fun _ => ?_
  constructor
  · rintro ⟨v, ⟨principal, hprincipal, rfl⟩, hv⟩
    obtain ⟨k, rfl, hservice⟩ := contains_principal.mp hv
    exact ⟨k, hprincipal, hservice⟩
  · rintro ⟨k, hprincipal, hservice⟩
    exact ⟨_, ⟨_, hprincipal, rfl⟩, contains_principal.mpr ⟨k, rfl, hservice⟩⟩

theorem containsTop_statement (p : Policy) :
    (get (js "Statement") (ofPolicy p)).any (fun statement => containsTop statement ec2Statements) = true ↔
      ∃ ss, p.statement = .many ss ∧ ∃ s ∈ ss, AllowsEc2Alone s := by
  rw [get_statement, Option.any_some, ec2Statements, containsTop_singleton]
  cases p.statement with
  | one s => simp [ofStatement, object]
  | many ss =>
    simp only [Jsonb.Value.arr.injEq, exists_eq_left', List.mem_map, exists_exists_and_eq_and, contains_statement,
      OneOrMany.many.injEq]

theorem checkRoleEc2_iff {iamRole : List IamRole} {role : IamRole} (hnodup : (iamRole.map IamRole.roleName).Nodup)
    (hmem : role ∈ iamRole) : checkRoleEc2 iamRole role.roleName = true ↔ trustsEc2 role = true := by
  rw [checkRoleEc2, decide_eq_true_eq, List.length_pos_iff_exists_mem]
  simp only [List.mem_filter, Bool.and_eq_true, beq_iff_eq]
  constructor
  · rintro ⟨row, hrow, hname, htrusts⟩
    rwa [← List.inj_on_of_nodup_map hnodup hrow hmem hname]
  · intro htrusts
    exact ⟨role, hmem, rfl, htrusts⟩

end Document

section Normalized

variable {lower : LowerCase} {s : CanonicalPolicy.Statement} {p : Policy}

theorem holds_one (text : JsString) : holds (js "ec2.amazonaws.com") (CanonicalPolicy.present listed (.one text)) = true ↔
    text = js "ec2.amazonaws.com" := by
  cases text with
  | nil =>
    refine iff_of_false (by decide) (by decide)
  | cons c text =>
    have hpresent : CanonicalPolicy.present listed (.one (c :: text)) = .many [c :: text] := rfl
    rw [hpresent, holds, List.contains_iff_mem, List.mem_singleton, eq_comm]

theorem holds_present (service : OneOrMany JsString) :
    holds (js "ec2.amazonaws.com") (CanonicalPolicy.present listed service) = true ↔ js "ec2.amazonaws.com" ∈ service.toList := by
  cases service with
  | one text =>
    rw [holds_one, OneOrMany.toList, List.mem_singleton, eq_comm]
  | many values =>
    have hpresent : CanonicalPolicy.present listed (.many values) = .many values := rfl
    rw [hpresent, holds, List.contains_iff_mem, OneOrMany.toList_many]

theorem isEc2_normalized (principal : Option Principal) :
    isEc2 (principal.map normalizePrincipal) = true ↔ ∃ k, principal = some (.kinds k) ∧
      ∃ service, k.service = some service ∧ js "ec2.amazonaws.com" ∈ service.toList := by
  rcases principal with _ | _ | k
  · simp [isEc2]
  · simp [isEc2, normalizePrincipal]
  · cases hservice : k.service with
    | none => simp [isEc2, normalizePrincipal, hservice]
    | some service => simp [isEc2, normalizePrincipal, hservice, holds_present]

theorem allowEc2Service_iff {role : IamRole} : allowEc2Service lower role = true ↔
    ∃ p, role.assumeRolePolicyDocument = some p ∧ ∃ s ∈ p.statement.toList, AllowsEc2 s := by
  rw [allowEc2Service, Option.any_eq_true]
  refine exists_congr fun p => and_congr_right fun _ => ?_
  rw [normalizePolicy, OneOrMany.toList_many, List.any_map, List.any_eq_true]
  refine exists_congr fun s => and_congr_right fun _ => ?_
  rw [Function.comp_apply, Bool.and_eq_true, decide_eq_true_eq]
  exact and_congr_right fun _ => isEc2_normalized s.principal

theorem allowsEc2_of_alone (h : AllowsEc2Alone s) : AllowsEc2 s := by
  obtain ⟨heffect, k, hprincipal, hservice⟩ := h
  exact ⟨heffect, k, hprincipal, _, hservice, List.mem_singleton_self _⟩

-- the two tests agree on a document exactly where it is plain
theorem agree_iff_plain {role : IamRole} (hdocument : role.assumeRolePolicyDocument = some p) :
    (trustsEc2 role = true ↔ allowEc2Service lower role = true) ↔ Plain p := by
  have htrusts : trustsEc2 role = true ↔ ∃ ss, p.statement = .many ss ∧ ∃ s ∈ ss, AllowsEc2Alone s := by
    rw [trustsEc2, hdocument, Option.bind_some, containsTop_statement]
  have hallows : allowEc2Service lower role = true ↔ ∃ s ∈ p.statement.toList, AllowsEc2 s := by
    rw [allowEc2Service_iff, hdocument]
    simp only [Option.some.injEq, exists_eq_left']
  rw [htrusts, hallows]
  constructor
  · intro h
    exact h.mpr
  · intro h
    refine ⟨?_, h⟩
    rintro ⟨ss, hstatement, s, hs, halone⟩
    exact ⟨s, hstatement ▸ hs, allowsEc2_of_alone halone⟩

end Normalized

section Profile

variable {lower : LowerCase} {role : IamRole} {s : Iam}

def roleText : List Char := ":role/".toList

def profileText : List Char := ":instance-profile/".toList

theorem roleText_chars : roleText = [':', 'r', 'o', 'l', 'e', '/'] := rfl

theorem replace_start {text : List Char} (h : text ≠ []) (by_ after : List Char) :
    replace text by_ (text ++ after) = by_ ++ after := by
  cases text with
  | nil => exact absurd rfl h
  | cons c text =>
    have hfound : (c :: text).isPrefixOf (c :: (text ++ after)) = true :=
      List.isPrefixOf_iff_prefix.mpr (List.prefix_append (c :: text) after)
    rw [List.cons_append, replace, if_pos hfound, ← List.cons_append, List.drop_left]

theorem replace_skip {c : Char} {cs : List Char} (h : roleText.isPrefixOf (c :: cs) = false) :
    replace roleText profileText (c :: cs) = c :: replace roleText profileText cs := by
  rw [replace, if_neg (by rw [h]; decide)]

theorem replace_digits {digits : List Char} (h : ∀ c ∈ digits, c.isDigit = true) (after : List Char) :
    replace roleText profileText (digits ++ (roleText ++ after)) = digits ++ (profileText ++ after) := by
  induction digits with
  | nil => exact replace_start (by decide) profileText after
  | cons c digits ih =>
    obtain ⟨hc, hdigits⟩ := List.forall_mem_cons.mp h
    have hcolon : c ≠ ':' := by
      rintro rfl
      exact absurd hc (by decide)
    have hskip : roleText.isPrefixOf (c :: (digits ++ (roleText ++ after))) = false := by
      simp [roleText_chars, List.isPrefixOf, hcolon.symm]
    rw [List.cons_append, replace_skip hskip, ih hdigits, List.cons_append]

-- the colon before the account's digits is not the one before role/
theorem replace_arn {digits : List Char} (h : ∀ c ∈ digits, c.isDigit = true) (after : List Char) :
    replace roleText profileText ("arn:aws:iam::".toList ++ (digits ++ (roleText ++ after))) =
      "arn:aws:iam::".toList ++ (digits ++ (profileText ++ after)) := by
  have hlast : roleText.isPrefixOf (':' :: (digits ++ (roleText ++ after))) = false := by
    cases digits with
    | nil => simp [roleText_chars, List.isPrefixOf]
    | cons c digits =>
      have hr : c ≠ 'r' := by
        rintro rfl
        exact absurd (h 'r' List.mem_cons_self) (by decide)
      simp [roleText_chars, List.isPrefixOf, hr.symm]
  have hhead : "arn:aws:iam::".toList = ['a', 'r', 'n', ':', 'a', 'w', 's', ':', 'i', 'a', 'm', ':', ':'] := rfl
  rw [hhead]
  simp only [List.cons_append, List.nil_append]
  iterate 12 rw [replace_skip (by rfl)]
  rw [replace_skip hlast, replace_digits h after]

theorem roleArn_ne_empty (account : Account) (roleName : String) : roleArn account roleName ≠ "" := by
  intro h
  change "arn:aws:iam::" ++ account.digits ++ ":role/" ++ roleName = "" at h
  simp only [String.append_eq_empty_iff] at h
  exact absurd h.1.1.1 (by decide)

theorem iamInstanceProfile_some {arn : String} (harn : role.arn = some arn) (hne : arn ≠ "") :
    iamInstanceProfile role = some (String.ofList (replace roleText profileText arn.toList)) := by
  rw [iamInstanceProfile, harn]
  exact if_neg hne

theorem toList_arn (digits kind roleName : String) : ("arn:aws:iam::" ++ digits ++ kind ++ roleName).toList =
    "arn:aws:iam::".toList ++ (digits.toList ++ (kind.toList ++ roleName.toList)) := by
  rw [String.toList_append, String.toList_append, String.toList_append, List.append_assoc, List.append_assoc]

theorem derived_profile (account : Account) (role : IamRole) :
    iamInstanceProfile { role with arn := some (roleArn account role.roleName) } =
      some (profileArn account role.roleName) := by
  have harn : (roleArn account role.roleName).toList =
      "arn:aws:iam::".toList ++ (account.digits.toList ++ (roleText ++ role.roleName.toList)) :=
    toList_arn account.digits ":role/" role.roleName
  have hprofile : (profileArn account role.roleName).toList =
      "arn:aws:iam::".toList ++ (account.digits.toList ++ (profileText ++ role.roleName.toList)) :=
    toList_arn account.digits ":instance-profile/" role.roleName
  have hreplace := replace_arn account.isDigit role.roleName.toList
  rw [← harn, ← hprofile] at hreplace
  rw [iamInstanceProfile_some rfl (roleArn_ne_empty account role.roleName), hreplace, String.ofList_toList]

theorem createOne_profile {a : Answers} {p : Policy} (hfault : ∀ c, a.fault c = none) (harn : a.createdArn ≠ "")
    (hdocument : role.assumeRolePolicyDocument = some p) (hrole : s.roles role.roleName = none)
    (hprofile : s.profiles role.roleName = none) :
    (createOne lower a role s).2.profiles role.roleName = some true ↔ allowEc2Service lower role = true := by
  rcases createNewRole_cases a role s with ⟨err, hrun⟩ | ⟨policy, -, -, -, hrun⟩
  · have hthrow : createNewRole a role s = (.returned (), s.setRole role.roleName
        (some ⟨a.createdArn, p, role.description, [], List.nodup_nil⟩)) := by
      rw [createNewRole, hfault, Program.Prog.check_none_bind, Program.Prog.reads_bind_apply, hrole, hdocument]
      rfl
    rw [hthrow] at hrun
    cases hrun
  · rw [createOne, Program.Prog.bind_of_returned hrun]
    generalize hnew : s.setRole role.roleName _ = t at hrun ⊢
    have hexists : (t.roles role.roleName).isSome = true := by
      rw [← hnew, roles_setRole_self]
      rfl
    have hnone : t.profiles role.roleName = none := hnew ▸ hprofile
    obtain ⟨u, hsettle, hsame⟩ := @settleRole_returned lower a t role harn (fun c _ => hfault c) hexists
    rw [Program.Prog.bind_of_returned hsettle]
    have hkeeps : (same lower).Keeps (readNewRole a role) := keeps_readNewRole
    cases hec2 : allowEc2Service lower role with
    | false =>
      have hread : (readNewRole a role u).2.profiles role.roleName = none := by
        rw [(hkeeps u).profiles, hsame.profiles, hnone]
      refine iff_of_false (fun h => ?_) Bool.false_ne_true
      cases hread.symm.trans h
    | true =>
      have hgive := giveProfile_eq (hfault .createInstanceProfile) (hfault .addRoleToInstanceProfile)
        ((congrFun hsame.profiles _).trans hnone) ((hsame.isSome role.roleName).trans hexists)
      rw [Program.Prog.runIf, if_pos rfl, Program.Prog.bind_of_returned hgive, (hkeeps _).profiles]
      exact iff_of_true (profiles_setProfile_self _) rfl

end Profile

section Claim

-- a role of the table, whose document is not null
theorem ec2_tests_agree (lower : LowerCase) (account : Account) (iamRole : List IamRole)
    (hnodup : (iamRole.map IamRole.roleName).Nodup) (role : IamRole) (hmem : role ∈ iamRole) (p : Policy)
    (hdocument : role.assumeRolePolicyDocument = some p) :
    Agree lower account iamRole role ↔ Plain p := by
  rw [← agree_iff_plain hdocument, ← checkRoleEc2_iff hnodup hmem]
  constructor
  · intro h
    exact h.accepted
  · intro h
    refine ⟨h, fun s hrole hprofile => ?_, derived_profile account role⟩
    exact createOne_profile (fun _ => rfl) (roleArn_ne_empty account role.roleName) hdocument hrole hprofile

def account : Account := ⟨"257682470237", by simp⟩

def listed : Policy where
  id := none
  statement := .many [⟨some (.one (js "sts:AssumeRole")), none,
    some (.kinds ⟨none, some (.many [js "ec2.amazonaws.com"]), none⟩), none, none, none, none, .allow, none⟩]
  version := js "2012-10-17"

def worker : IamRole where
  roleName := "worker"
  assumeRolePolicyDocument := some listed

theorem ec2_tests_agree_worker : Agree InstanceProfiles.ascii account [worker] worker ↔ Plain listed :=
  ec2_tests_agree InstanceProfiles.ascii account [worker] (by simp) worker (by simp) listed rfl

-- the service in a list of one
theorem listed_service_rejected : checkRoleEc2 [worker] "worker" = false ∧
    allowEc2Service InstanceProfiles.ascii worker = true ∧ ¬ Agree InstanceProfiles.ascii account [worker] worker := by
  have hcheck : checkRoleEc2 [worker] "worker" = false := by decide +kernel
  have hallow : allowEc2Service InstanceProfiles.ascii worker = true := by decide +kernel
  refine ⟨hcheck, hallow, fun h => ?_⟩
  exact absurd (hcheck.symm.trans (h.accepted.mpr hallow)) nofun

end Claim

end Iasql.Ec2Roles
