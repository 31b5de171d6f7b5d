import Iasql.Calculus.Dict

namespace Iasql.Tags

variable {a b : Option (Dict String String)}

-- the comparison of services/aws_macros
def eqTags (a b : Option (Dict String String)) : Bool :=
  Dict.isEqualBy (· == ·) (a.getD ∅) (b.getD ∅)

def SameTags (a b : Option (Dict String String)) : Prop :=
  ∀ key, a.bind (·.get? key) = b.bind (·.get? key)

theorem isEqualBy_beq_iff {d e : Dict String String} :
    Dict.isEqualBy (· == ·) d e = true ↔ ∀ key, d.get? key = e.get? key := by
  rw [Dict.isEqualBy_iff]
  refine forall_congr' fun key => ?_
  cases d.get? key <;> cases e.get? key <;> simp

theorem get?_getD (a : Option (Dict String String)) (key : String) :
    (a.getD ∅).get? key = a.bind (·.get? key) := by
  cases a <;> rfl

theorem eqTags_iff : eqTags a b = true ↔ SameTags a b := by
  rw [eqTags, isEqualBy_beq_iff]
  exact forall_congr' fun key => by rw [get?_getD, get?_getD]

namespace Vpc

-- the comparison of aws_vpc/mappers/tags: an object without keys is not an object left out
def eqTags : Option (Dict String String) → Option (Dict String String) → Bool
  | some d, some e => Dict.isEqualBy (· == ·) d e
  | none, none => true
  | _, _ => false

theorem sameTags_of_eqTags (h : eqTags a b = true) : SameTags a b := by
  intro key
  rcases a with _ | a <;> rcases b with _ | b <;> try cases h
  · rfl
  · exact isEqualBy_beq_iff.mp h key

end Vpc

section Retagging

variable {tags : Dict String String} {new : Option (Dict String String)}

-- updateTags of aws_rds: the keys of the new tags are removed, and the new tags added
def retag (tags : Dict String String) (new : Option (Dict String String)) : Dict String String :=
  (tags.eraseAll (new.getD ∅).keys).assign (new.getD ∅)

theorem get?_retag (tags : Dict String String) (new : Option (Dict String String)) (key : String) :
    (retag tags new).get? key = (new.bind (·.get? key)).or (tags.get? key) := by
  rw [← get?_getD, retag]
  cases h : (new.getD ∅).get? key with
  | some v => exact Dict.get?_assign_of_some _ h
  | none =>
    rw [Dict.get?_assign_of_none _ h, Dict.get?_eraseAll, if_neg (Dict.get?_eq_none.mp h)]
    rfl

def written (key value : String) : Bool := key != "" && value != ""

-- the mappers of aws_rds leave a tag out whose key or value is empty
def readTags (tagList : Dict String String) : Option (Dict String String) :=
  if tagList.entries = [] then none else some (tagList.filter written)

theorem get?_readTags (tagList : Dict String String) (key : String) :
    (readTags tagList).bind (·.get? key) = (tagList.get? key).filter (written key) := by
  rw [readTags]
  split
  · next h =>
    rw [Dict.entries_eq_nil.mp h]
    rfl
  · exact Dict.get?_filter tagList written key

-- no key of the old tags is left out, and no new tag is empty
structure Extends (new old : Option (Dict String String)) : Prop where
  keys : ∀ key, (old.bind (·.get? key)).isSome → (new.bind (·.get? key)).isSome
  written : ∀ key value, new.bind (·.get? key) = some value → written key value = true

theorem readTags_retag_iff :
    SameTags (readTags (retag tags new)) new ↔ Extends new (readTags tags) := by
  have hkey : ∀ key, (readTags (retag tags new)).bind (·.get? key) = new.bind (·.get? key) ↔
      (((readTags tags).bind (·.get? key)).isSome → (new.bind (·.get? key)).isSome) ∧
        ∀ value, new.bind (·.get? key) = some value → written key value = true := by
    intro key
    rw [get?_readTags, get?_retag, get?_readTags]
    cases hnew : new.bind (·.get? key) with
    | none => cases tags.get? key <;> simp
    | some v => simp [Option.filter]
  constructor
  · exact fun h => ⟨fun key => ((hkey key).mp (h key)).1, fun key => ((hkey key).mp (h key)).2⟩
  · exact fun h key => (hkey key).mpr ⟨h.keys key, h.written key⟩

-- the tags are pushed where they differ and may be pushed
def pushTags (mayPush : Bool) (new : Option (Dict String String)) (tags : Dict String String) :
    Dict String String :=
  if mayPush && !eqTags new (readTags tags) then retag tags new else tags

theorem readTags_pushTags_iff (mayPush : Bool) :
    SameTags (readTags (pushTags mayPush new tags)) new ↔
      SameTags (readTags tags) new ∨ mayPush = true ∧ Extends new (readTags tags) := by
  rw [pushTags]
  cases mayPush with
  | false => simp
  | true =>
    cases heq : eqTags new (readTags tags) with
    | true =>
      have hsame : SameTags (readTags tags) new := fun key => ((eqTags_iff.mp heq) key).symm
      simp [hsame]
    | false =>
      have hdiffer : ¬ SameTags (readTags tags) new := fun h => by
        rw [eqTags_iff.mpr fun key => (h key).symm] at heq
        cases heq
      simp [hdiffer, readTags_retag_iff]

end Retagging

end Iasql.Tags
