import Iasql.Calculus.Settling
import Iasql.Edits

namespace Iasql.Sns

open Program Prog Aws Edits Settling

section Mapper

inductive AttributeKey where
  | contentBasedDeduplication | deliveryPolicy | displayName | kmsMasterKeyId | policy | signatureVersion
  | tracingConfig
deriving DecidableEq

def attributeKeys : List AttributeKey :=
  [.contentBasedDeduplication, .deliveryPolicy, .displayName, .kmsMasterKeyId, .policy, .signatureVersion,
    .tracingConfig]

theorem mem_attributeKeys (key : AttributeKey) : key ∈ attributeKeys := by
  cases key <;> decide

-- column: e[key] for the keys above
structure Topic where
  id : Option Nat := none
  name : String
  column : AttributeKey → Option String := fun _ => none
  fifoTopic : Bool := false
  dataProtectionPolicy : Option String := none
  arn : Option String := none
  region : String

def equals (a b : Topic) : Bool :=
  (attributeKeys.all fun key => a.column key == b.column key) && a.fifoTopic == b.fifoTopic &&
    a.dataProtectionPolicy == b.dataProtectionPolicy

-- what AWS has under an ARN: its attributes are named by the capitalised keys
structure AwsTopic where
  attributes : AttributeKey → Option String := fun _ => none
  fifoTopic : Option String := none
  dataProtectionPolicy : Option String := none

-- the resource that an ARN names
def resource (arn : String) : String := ":".intercalate ((arn.splitOn ":").drop 5)

def mapped (attributes : AwsTopic) (arn region : String) : Topic where
  name := resource arn
  column key := (attributes.attributes key).filter (· ≠ "")
  fifoTopic := attributes.fifoTopic == some "true"
  dataProtectionPolicy :=
    if attributes.fifoTopic == some "true" then none else attributes.dataProtectionPolicy.filter (· ≠ "")
  arn := some arn
  region

def topicMapper (attributes : AwsTopic) (arn region : String) : Option Topic :=
  if arn = "" then none else some (mapped attributes arn region)

end Mapper

section Update

def setAttribute (key : AttributeKey) (value : Option String) (t : AwsTopic) : AwsTopic :=
  { t with attributes := Function.update t.attributes key value }

-- the loop over the keys: a key that is emptied ends it
def setAttributes (cloudRecord e : Topic) : List AttributeKey → Bool → Prog (State AwsTopic Topic) Thrown Bool
  | [], needUpdate => pure needUpdate
  | key :: keys, needUpdate =>
    if e.column key = cloudRecord.column key then setAttributes cloudRecord e keys needUpdate
    else if !Aws.truthy (e.column key) then do
      save { cloudRecord with id := e.id }
      return needUpdate
    else do
      send (setAttribute key (e.column key))
      setAttributes cloudRecord e keys true

-- topic.cloud.update
def update (cloudRecord e : Topic) : Prog (State AwsTopic Topic) Thrown Unit :=
  if e.arn ≠ cloudRecord.arn ∨ e.fifoTopic ≠ cloudRecord.fifoTopic ∨
      (e.fifoTopic && Aws.truthy e.dataProtectionPolicy) then
    save { cloudRecord with id := e.id }
  else do
    let protects := e.dataProtectionPolicy ≠ cloudRecord.dataProtectionPolicy ∧ Aws.truthy e.dataProtectionPolicy
    runIf protects (send fun t => { t with dataProtectionPolicy := e.dataProtectionPolicy })
    let needUpdate ← setAttributes cloudRecord e attributeKeys protects
    if needUpdate then
      match ← reads fun s : State AwsTopic Topic =>
          topicMapper s.aws (cloudRecord.arn.getD "") cloudRecord.region with
      | some updatedRecord => save { updatedRecord with id := e.id }
      | none => fail (.error "Error updating topic")
    else pure ()

def sync : Sync (State AwsTopic Topic) Topic where
  row := State.row
  read s := topicMapper s.aws (s.row.arn.getD "") s.row.region
  equals := equals
  update c s := (update c s.row s).2

end Update

section Settle

variable {s : State AwsTopic Topic} {c e : Topic}

theorem equals_iff {a b : Topic} : equals a b = true ↔ a.column = b.column ∧
    a.fifoTopic = b.fifoTopic ∧ a.dataProtectionPolicy = b.dataProtectionPolicy := by
  have hkeys : (∀ key ∈ attributeKeys, a.column key = b.column key) ↔ a.column = b.column :=
    ⟨fun h => funext fun key => h key (mem_attributeKeys key), fun h key _ => congrFun h key⟩
  simp only [equals, Bool.and_eq_true, List.all_eq_true, beq_iff_eq, hkeys, and_assoc]

theorem setAttributes_run (keys : List AttributeKey) (needUpdate : Bool) (s : State AwsTopic Topic) :
    ∃ b t, setAttributes c e keys needUpdate s = (.returned b, t) ∧
      (b = true ∨ b = needUpdate ∧ t.aws = s.aws ∧ (t.row = { c with id := e.id } ∨
        t.row = s.row ∧ ∀ key ∈ keys, e.column key = c.column key)) := by
  induction keys generalizing needUpdate s with
  | nil => exact ⟨needUpdate, s, rfl, .inr ⟨rfl, rfl, .inr ⟨rfl, List.forall_mem_nil _⟩⟩⟩
  | cons key keys ih =>
    rw [setAttributes]
    split
    · next hsame =>
      obtain ⟨b, t, hrun, hb | ⟨hb, haws, hrow | ⟨hrow, hkeys⟩⟩⟩ := ih needUpdate s
      · exact ⟨b, t, hrun, .inl hb⟩
      · exact ⟨b, t, hrun, .inr ⟨hb, haws, .inl hrow⟩⟩
      · exact ⟨b, t, hrun, .inr ⟨hb, haws, .inr ⟨hrow, List.forall_mem_cons.mpr ⟨hsame, hkeys⟩⟩⟩⟩
    · split
      · exact ⟨needUpdate, _, rfl, .inr ⟨rfl, rfl, .inl rfl⟩⟩
      · obtain ⟨b, t, hrun, ht⟩ := ih true { s with aws := setAttribute key (e.column key) s.aws }
        refine ⟨b, t, hrun, .inl ?_⟩
        rcases ht with hb | ⟨hb, -⟩
        · exact hb
        · exact hb

-- nothing differs but a data protection policy that is emptied
structure Stuck (e c : Topic) : Prop where
  column : e.column = c.column
  fifoTopic : e.fifoTopic = c.fifoTopic
  dataProtectionPolicy : Aws.truthy e.dataProtectionPolicy = false

theorem read_mapped (h : sync.read s = some c) :
    s.row.arn = c.arn ∧ ∃ arn, arn ≠ "" ∧ c = mapped s.aws arn s.row.region := by
  change topicMapper s.aws (s.row.arn.getD "") s.row.region = some c at h
  rw [topicMapper] at h
  split at h
  · cases h
  · next harn =>
    cases h
    refine ⟨?_, _, harn, rfl⟩
    cases hrow : s.row.arn with
    | none => rw [hrow] at harn; exact absurd rfl harn
    | some arn => rfl

-- the row is the record that is read of AWS
theorem agreed_of_saved {id : Option Nat} (hread : topicMapper s.aws (c.arn.getD "") c.region = some c)
    (hrow : s.row = { c with id }) : sync.Agreed s := by
  refine ⟨c, ?_, ?_⟩
  · change topicMapper s.aws (s.row.arn.getD "") s.row.region = some c
    rw [hrow]
    exact hread
  · change equals s.row c = true
    rw [hrow]
    exact equals_iff.mpr ⟨rfl, rfl, rfl⟩

theorem setAttributes_of_same (h : e.column = c.column) (keys : List AttributeKey) (needUpdate : Bool) :
    setAttributes c e keys needUpdate s = (.returned needUpdate, s) := by
  induction keys with
  | nil => rfl
  | cons key keys ih =>
    rw [setAttributes, if_pos (congrFun h key)]
    exact ih

theorem update_of_stuck (harn : s.row.arn = c.arn) (h : Stuck s.row c) : sync.update c s = s := by
  obtain ⟨hcolumn, hfifo, hprotection⟩ := h
  change (update c s.row s).2 = s
  rw [update, if_neg (by simp [harn, hfifo, hprotection])]
  simp only [hprotection, Bool.false_eq_true, and_false, decide_false]
  rw [bind_of_returned (runIf_send _ _ _), bind_of_returned (setAttributes_of_same hcolumn _ _)]
  rfl

-- the row is restored or saved anew, or nothing is done at all
theorem update_of_not_stuck (hread : sync.read s = some c) (h : ¬ Stuck s.row c) :
    sync.Agreed (sync.update c s) := by
  obtain ⟨harn, arn, hne, hc⟩ := read_mapped hread
  have hmapper : ∀ aws, topicMapper aws (c.arn.getD "") c.region = some (mapped aws arn c.region) := by
    intro aws
    rw [hc, topicMapper]
    exact if_neg hne
  have hcurrent : topicMapper s.aws (c.arn.getD "") c.region = some c := by
    rw [hmapper, hc]
    rfl
  change sync.Agreed (update c s.row s).2
  rw [update]
  split
  · exact agreed_of_saved hcurrent rfl
  · next hkept =>
    rw [not_or, not_or, not_not, not_not] at hkept
    obtain ⟨-, hfifo, -⟩ := hkept
    rw [bind_of_returned (runIf_send _ _ _)]
    generalize hprotects : decide (s.row.dataProtectionPolicy ≠ c.dataProtectionPolicy ∧
      Aws.truthy s.row.dataProtectionPolicy = true) = protects
    obtain ⟨b, t, hrun, ht⟩ := @setAttributes_run c s.row attributeKeys protects
      { s with aws := if protects then { s.aws with dataProtectionPolicy := s.row.dataProtectionPolicy }
        else s.aws }
    rw [bind_of_returned hrun]
    cases b with
    | true =>
      simp only [if_true, reads_bind_apply, hmapper]
      refine @agreed_of_saved _ (mapped t.aws arn c.region) s.row.id ?_ rfl
      change topicMapper t.aws arn c.region = some (mapped t.aws arn c.region)
      rw [topicMapper]
      exact if_neg hne
    | false =>
      rcases ht with hb | ⟨rfl, haws, hrow | ⟨hrow, hkeys⟩⟩
      · cases hb
      · refine @agreed_of_saved _ c s.row.id ?_ hrow
        change topicMapper t.aws _ _ = _
        rw [haws]
        exact hcurrent
      · have hcolumn : s.row.column = c.column := funext fun key => hkeys key (mem_attributeKeys key)
        have hprotection : s.row.dataProtectionPolicy = c.dataProtectionPolicy := by
          by_contra hne
          refine h ⟨hcolumn, hfifo, ?_⟩
          simpa [hne] using hprotects
        refine ⟨c, ?_, ?_⟩
        · change topicMapper t.aws (t.row.arn.getD "") t.row.region = some c
          rw [haws, hrow]
          exact hread
        · change equals t.row c = true
          rw [hrow]
          exact equals_iff.mpr ⟨hcolumn, hfifo, hprotection⟩

theorem settles_iff (h : sync.Differs s c) : sync.Settles s ↔ ¬ Stuck s.row c := by
  constructor
  · intro hsettles hstuck
    obtain ⟨harn, -⟩ := read_mapped h.read
    exact Sync.not_settles_of_fixed h (update_of_stuck harn hstuck) hsettles
  · exact fun hmoves => Sync.settles_of_update h (update_of_not_stuck h.read hmoves)

end Settle

end Iasql.Sns
