import Iasql.Calculus.OrderedMap

namespace Jsonb

open OrderedMap

-- a document over the texts of its strings and keys and its numbers
inductive Value (σ ν : Type) where
  | null
  | bool (b : Bool)
  | num (n : ν)
  | str (s : σ)
  | arr (xs : List (Value σ ν))
  | obj (fields : List (σ × Value σ ν))

section Objects

variable {σ ν : Type} [DecidableEq σ]

open Value

-- j -> key
def get (key : σ) : Value σ ν → Option (Value σ ν)
  | obj fields => find key fields
  | _ => none

-- the fields of an object that are there
def defined (fields : List (σ × Option (Value σ ν))) : List (σ × Value σ ν) :=
  fields.filterMap fun p => p.2.map fun v => (p.1, v)

variable {k : σ}

theorem find_defined {ps : List (σ × Option (Value σ ν))} (h : (keys ps).Nodup) :
    find k (defined ps) = (find k ps).join := by
  induction ps generalizing k with
  | nil => rfl
  | cons p ps ih =>
    obtain ⟨l, v⟩ := p
    obtain ⟨habsent, hrest⟩ := List.nodup_cons.mp h
    have hskip : find l (defined ps) = none := by
      rw [ih hrest, find_eq_none.mpr habsent]
      rfl
    cases v with
    | none =>
      have hdefined : defined ((l, none) :: ps) = defined ps := rfl
      rw [hdefined, find]
      split
      · next heq => rw [← heq, hskip]; rfl
      · exact ih hrest
    | some v =>
      have hdefined : defined ((l, some v) :: ps) = (l, v) :: defined ps := rfl
      rw [hdefined, find, find]
      split
      · rfl
      · exact ih hrest

theorem find_defined_of_find {ps : List (σ × Option (Value σ ν))} {v : Option (Value σ ν)} (h : (keys ps).Nodup)
    (hfind : find k ps = some v) : find k (defined ps) = v := by
  rw [find_defined h, hfind]
  rfl

end Objects

section Containment

variable {σ ν : Type} [DecidableEq σ] [DecidableEq ν]

open Value

-- an object contains an object that has some of its keys, an array one whose elements it contains
mutual
def contains : Value σ ν → Value σ ν → Bool
  | x, .obj ys =>
    match x with
    | .obj xs => containsFields xs ys
    | _ => false
  | x, .arr ys =>
    match x with
    | .arr xs => containsElements xs ys
    | _ => false
  | .null, .null => true
  | .bool a, .bool b => a == b
  | .num a, .num b => decide (a = b)
  | .str a, .str b => decide (a = b)
  | _, _ => false

def containsFields (xs : List (σ × Value σ ν)) : List (σ × Value σ ν) → Bool
  | [] => true
  | (k, y) :: ys =>
    (match find k xs with
    | some x => contains x y
    | none => false) && containsFields xs ys

def containsElements (xs : List (Value σ ν)) : List (Value σ ν) → Bool
  | [] => true
  | y :: ys => (xs.any fun x => contains x y) && containsElements xs ys
end

-- x @> y: at the top an array also contains the scalars that are its elements
def containsTop : Value σ ν → Value σ ν → Bool
  | x, .arr ys => contains x (.arr ys)
  | x, .obj ys => contains x (.obj ys)
  | .arr xs, y => xs.any fun x => contains x y
  | x, y => contains x y

variable {x : Value σ ν} {xs : List (Value σ ν)} {fields : List (σ × Value σ ν)} {s k : σ} {y : Value σ ν}

@[simp] theorem contains_str : contains x (.str s) = true ↔ x = .str s := by
  cases x <;> simp [contains]

@[simp] theorem contains_obj_nil : contains (.obj fields) (.obj []) = true := rfl

theorem contains_obj_cons {ys : List (σ × Value σ ν)} : contains (.obj fields) (.obj ((k, y) :: ys)) = true ↔
    (∃ v, find k fields = some v ∧ contains v y = true) ∧ contains (.obj fields) (.obj ys) = true := by
  simp only [contains, containsFields]
  cases find k fields with
  | none => simp
  | some v => simp

theorem containsTop_singleton {ys : List (σ × Value σ ν)} : containsTop x (.arr [.obj ys]) = true ↔
    ∃ xs, x = .arr xs ∧ ∃ v ∈ xs, contains v (.obj ys) = true := by
  cases x with
  | arr xs => simp [containsTop, contains, containsElements]
  | _ => simp [containsTop, contains]

end Containment

end Jsonb
