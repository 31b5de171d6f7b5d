import Iasql.SecurityGroups
import Iasql.Tags

namespace Iasql.Edits

open Program Prog Aws SecurityGroups

section Steps

variable {A E : Type}

-- what AWS has under the id of a record, and the record in the database
structure State (A E : Type) where
  aws : A
  row : E

-- AWS applies exactly the fields of a request
def send (apply : A → A) : Prog (State A E) Thrown Unit :=
  writes fun s => { s with aws := apply s.aws }

def save (e : E) : Prog (State A E) Thrown Unit := writes fun s => { s with row := e }

theorem send_returned {apply : A → A} {s t : State A E} (h : send apply s = (.returned (), t)) :
    t = { s with aws := apply s.aws } := by
  cases h
  rfl

theorem runIf_send (b : Bool) (apply : A → A) (s : State A E) :
    runIf b (send apply) s = (.returned (), { s with aws := if b then apply s.aws else s.aws }) := by
  cases b <;> rfl

theorem save_returned {e : E} {s t : State A E} (h : save e s = (.returned (), t)) :
    t = { s with row := e } := by
  cases h
  rfl

-- an update returns, the row is what is read of AWS behind it, and that agrees with the edit
def Reaches (update : Prog (State A E) Thrown Unit) (read : A → Option E) (saved : E → E)
    (Agrees : E → A → Prop) (s : State A E) : Prop :=
  ∃ t r, update s = (.returned (), t) ∧ read t.aws = some r ∧ t.row = saved r ∧ Agrees r t.aws

variable {update : Prog (State A E) Thrown Unit} {read : A → Option E} {saved : E → E}
  {Agrees : E → A → Prop} {s t : State A E}

theorem reaches_iff (hrun : update s = (.returned (), t))
    (hrow : ∀ r, read t.aws = some r → t.row = saved r) :
    Reaches update read saved Agrees s ↔ ∃ r, read t.aws = some r ∧ Agrees r t.aws := by
  constructor
  · rintro ⟨t', r, hrun', hread, -, hagrees⟩
    obtain rfl : t = t' := congrArg Prod.snd (hrun.symm.trans hrun')
    exact ⟨r, hread, hagrees⟩
  · rintro ⟨r, hread, hagrees⟩
    exact ⟨t, r, hrun, hread, hrow r hread, hagrees⟩

theorem not_reaches {err : Thrown} (hrun : update s = (.thrown err, t)) :
    ¬ Reaches update read saved Agrees s := by
  rintro ⟨t', r, hrun', -⟩
  rw [hrun] at hrun'
  cases hrun'

end Steps

section Columns

variable {α : Type} [DecidableEq α]

def changed (new old : α) : Option α := if new = old then none else some new

theorem getD_changed (new old : α) : (changed new old).getD old = new := by
  rw [changed]
  split
  · next h => exact h.symm
  · rfl

-- a column that is emptied is sent as undefined, which AWS does not apply
theorem filter_or_changed_iff {p : α → Bool} {new old : Option α} :
    ((changed new (old.filter p)).join.or old).filter p = new ↔
      new = old.filter p ∨ ∃ n, p n = true ∧ new = some n := by
  by_cases h : new = old.filter p
  · rw [changed, if_pos h]
    exact iff_of_true h.symm (.inl h)
  · rw [changed, if_neg h]
    cases new with
    | none =>
      refine iff_of_false (Ne.symm h) ?_
      rintro (heq | ⟨n, -, hn⟩)
      · exact h heq
      · cases hn
    | some n =>
      rw [or_iff_right h]
      change (some n).filter p = some n ↔ _
      simp

theorem or_changed_iff {new old : Option α} :
    (changed new old).join.or old = new ↔ new = old ∨ new.isSome = true := by
  have hall : ∀ o : Option α, o.filter (fun _ => true) = o := fun o => by cases o <;> rfl
  have h := @filter_or_changed_iff α _ (fun _ => true) new old
  rw [hall, hall] at h
  simpa [Option.isSome_iff_exists] using h

omit [DecidableEq α] in
theorem or_eq_iff {new old : Option α} : new.or old = new ↔ new = old ∨ new.isSome = true := by
  cases new with
  | none => simp [eq_comm]
  | some n => simp

end Columns

section Groups

-- the ids that a request names
def groupIds (groups : List SecurityGroup) : List String :=
  groups.filterMap fun sg => sg.groupId.filter (· ≠ "")

def SameGroups (a b : List SecurityGroup) : Prop := ∀ id, id ∈ groupIds a ↔ id ∈ groupIds b

-- every group of a is found in b
def everyIn (a b : List SecurityGroup) : Bool :=
  a.all fun asg => (b.find? fun bsg => asg.groupId == bsg.groupId).isSome

-- the group that the database, or else AWS, has under an id that AWS gives
structure GroupReads where
  securityGroup : String → SecurityGroup
  groupId : ∀ id, (securityGroup id).groupId = some id

def GroupReads.groups (l : GroupReads) (ids : List String) : List SecurityGroup :=
  (ids.filter (· ≠ "")).map l.securityGroup

variable {l : GroupReads} {ids : List String} {id : String} {groups : List SecurityGroup}

theorem mem_groupIds_groups : id ∈ groupIds (l.groups ids) ↔ id ∈ ids ∧ id ≠ "" := by
  have hkept : ∀ id, id ≠ "" → (l.securityGroup id).groupId.filter (· ≠ "") = some id := by
    intro id hid
    rw [l.groupId]
    simpa using hid
  constructor
  · intro hmem
    obtain ⟨sg, hsg, hgroup⟩ := List.mem_filterMap.mp hmem
    obtain ⟨id', hid', rfl⟩ := List.mem_map.mp hsg
    obtain ⟨hin, hne⟩ := List.mem_filter.mp hid'
    have hne : id' ≠ "" := of_decide_eq_true hne
    obtain rfl : id' = id := Option.some.inj ((hkept id' hne).symm.trans hgroup)
    exact ⟨hin, hne⟩
  · rintro ⟨hmem, hne⟩
    refine List.mem_filterMap.mpr ⟨l.securityGroup id, List.mem_map_of_mem ?_, hkept id hne⟩
    exact List.mem_filter.mpr ⟨hmem, decide_eq_true hne⟩

theorem ne_empty_of_mem_groupIds (h : id ∈ groupIds groups) : id ≠ "" := by
  obtain ⟨sg, -, hid⟩ := List.mem_filterMap.mp h
  obtain ⟨-, hne⟩ := Option.filter_eq_some_iff.mp hid
  exact of_decide_eq_true hne

theorem sameGroups_sent : SameGroups (l.groups (groupIds groups)) groups := fun _ =>
  mem_groupIds_groups.trans (and_iff_left_of_imp ne_empty_of_mem_groupIds)

end Groups

end Iasql.Edits
