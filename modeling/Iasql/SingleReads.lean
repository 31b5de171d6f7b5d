import Iasql.CloudIds
import Iasql.EntityIds

namespace Iasql.SingleReads

open Aws EntityIds

section Reads

inductive Answer (E : Type) where
  | one (e : Option E)
  | many (es : List E)
deriving DecidableEq

-- the two ways in which a mapper reads the cloud, and the id under which what it reads is memoised
structure ReadFn (E : Type) where
  entityName : String
  entityId : E → Except Thrown String
  one : String → Except Thrown (Option E)
  all : Except Thrown (List E)

namespace ReadFn

variable {E : Type} (r : ReadFn E)

def rethrown (err : Thrown) : Thrown :=
  err.withMessage (r.entityName ++ " cloud read error: " ++ err.message.getD "")

-- Crud.read on an empty memo: an id that cannot be told is thrown as it is
def memoAll : List E → Except Thrown Unit
  | [] => .ok ()
  | e :: es =>
    match r.entityId e with
    | .error err => .error err
    | .ok _ => memoAll es

def read (id : Option String) : Except Thrown (Answer E) :=
  match id.filter (· ≠ "") with
  | some id =>
    match r.one id with
    | .error err => .error (r.rethrown err)
    | .ok none => .ok (.one none)
    | .ok (some e) => (r.memoAll [e]).map fun _ => .one (some e)
  | none =>
    match r.all with
    | .error err => .error (r.rethrown err)
    | .ok es => (r.memoAll es).map fun _ => .many es

-- the record of the full read under the id, or undefined where there is none
def Agrees (id : String) (all : List E) : Prop :=
  (∃ e ∈ all, r.entityId e = .ok id ∧ r.read (some id) = .ok (.one (some e))) ∨
    (∀ e ∈ all, r.entityId e ≠ .ok id) ∧ r.read (some id) = .ok (.one none)

variable {r} {id : String} {all : List E} {e : E}

theorem read_empty (answer : Option E) : r.read (some "") ≠ .ok (.one answer) := by
  have hfilter : (some "").filter (· ≠ "") = none := by simp
  rw [read, hfilter]
  cases r.all with
  | error err => exact nofun
  | ok es => cases hmemo : r.memoAll es <;> simp [hmemo, Except.map]

theorem read_of_ne_empty (hid : id ≠ "") : r.read (some id) =
    match r.one id with
    | .error err => .error (r.rethrown err)
    | .ok none => .ok (.one none)
    | .ok (some e) => (r.memoAll [e]).map fun _ => .one (some e) := by
  have hfilter : (some id).filter (· ≠ "") = some id := by simp [Option.filter, hid]
  rw [read, hfilter]

theorem read_none (hid : id ≠ "") : r.read (some id) = .ok (.one none) ↔ r.one id = .ok none := by
  rw [read_of_ne_empty hid]
  rcases hone : r.one id with err | _ | e
  · simp
  · simp
  · cases hmemo : r.memoAll [e] <;> simp [hmemo, Except.map]

theorem read_some (hid : id ≠ "") (he : r.entityId e = .ok id) :
    r.read (some id) = .ok (.one (some e)) ↔ r.one id = .ok (some e) := by
  rw [read_of_ne_empty hid]
  rcases hone : r.one id with err | _ | e'
  · simp
  · simp
  · simp only [Except.ok.injEq, Option.some.injEq]
    constructor
    · intro h
      cases hmemo : r.memoAll [e'] with
      | error err =>
        rw [hmemo] at h
        cases h
      | ok _ =>
        rw [hmemo] at h
        simpa [Except.map] using h
    · rintro rfl
      rw [memoAll, he]
      rfl

theorem all_of_read (h : r.read none = .ok (.many all)) : r.all = .ok all := by
  change (match r.all with
    | .error err => Except.error (r.rethrown err)
    | .ok es => (r.memoAll es).map fun _ => Answer.many es) = _ at h
  cases hall : r.all with
  | error err =>
    rw [hall] at h
    cases h
  | ok es =>
    cases hmemo : r.memoAll es with
    | error err => simp [hall, hmemo, Except.map] at h
    | ok _ => simpa [hall, hmemo, Except.map] using h

theorem agrees_iff : r.Agrees id all ↔ id ≠ "" ∧
    ((∃ e ∈ all, r.entityId e = .ok id ∧ r.one id = .ok (some e)) ∨
      (∀ e ∈ all, r.entityId e ≠ .ok id) ∧ r.one id = .ok none) := by
  by_cases hid : id = ""
  · subst hid
    refine iff_of_false ?_ fun h => h.1 rfl
    rintro (⟨e, -, -, hread⟩ | ⟨-, hread⟩)
    · exact read_empty _ hread
    · exact read_empty _ hread
  · rw [and_iff_right hid, Agrees, read_none hid]
    refine or_congr_left (exists_congr fun e => and_congr_right fun _ => ?_)
    exact and_congr_right fun he => read_some hid he

-- where every record has an id
theorem agrees_iff_of_ids {f : E → String} (hids : ∀ e, r.entityId e = .ok (f e)) :
    r.Agrees id all ↔ id ≠ "" ∧ ((∃ e ∈ all, f e = id ∧ r.one id = .ok (some e)) ∨
      (∀ e ∈ all, f e ≠ id) ∧ r.one id = .ok none) := by
  rw [agrees_iff]
  simp only [hids, ne_eq, Except.ok.injEq]

end ReadFn

end Reads

section Fields

variable {columns : CloudColumns} {primaryColumn id col : String} {i : Nat}

theorem field_idFields (h : columns.names[i]? = some col) :
    EntityIds.field ((ofColumns columns primaryColumn).idFields id) col = (split id)[i]? := by
  rw [EntityIds.field, Dict.get?_eq_some.mpr (mem_idFields.mpr ⟨i, h, rfl⟩), Option.join_some]

theorem exists_firstPart (id : String) : ∃ part, (split id)[0]? = some part ∧ Plain part := by
  cases hsplit : split id with
  | nil => simp [split] at hsplit
  | cons part parts => exact ⟨part, rfl, not_mem_of_mem_split (hsplit ▸ List.mem_cons_self)⟩

-- an id has a first part, so that it is never undefined in a template
theorem first_field (h : columns.names[0]? = some col) :
    (EntityIds.field ((ofColumns columns primaryColumn).idFields id) col).getD "undefined" =
      (split id)[0]?.getD "" := by
  obtain ⟨part, hpart, -⟩ := exists_firstPart id
  rw [field_idFields h, hpart]
  rfl

theorem field_idFields_of_not_mem (h : col ∉ columns.names) :
    EntityIds.field ((ofColumns columns primaryColumn).idFields id) col = none := by
  have hnone : ((ofColumns columns primaryColumn).idFields id).get? col = none := by
    refine Dict.get?_eq_none.mpr fun hmem => h ?_
    obtain ⟨v, hv⟩ := Dict.mem_keys.mp hmem
    obtain ⟨i, hi, -⟩ := mem_idFields.mp hv
    exact List.mem_of_getElem? hi
  rw [EntityIds.field, hnone]
  rfl

theorem split_generateId {a b : String} (ha : Plain a) (hb : Plain b) :
    split (generateId [a, b]) = [a, b] :=
  split_join (List.cons_ne_nil _ _) (by simpa using ⟨ha, hb⟩)

end Fields

end Iasql.SingleReads
