import Mathlib.Data.Rat.Defs
import Mathlib.Tactic.Common

namespace Iasql

inductive JsVal where
  | null
  | bool (b : Bool)
  | num (q : ℚ)
  | str (s : String)
  | arr (xs : List JsVal)
  | obj (fields : List (String × JsVal))
deriving Inhabited

namespace JsVal

mutual
def same : JsVal → JsVal → Bool
  | .null, .null => true
  | .bool a, .bool b => a == b
  | .num a, .num b => decide (a = b)
  | .str a, .str b => a == b
  | .arr xs, .arr ys => sameList xs ys
  | .obj fs, .obj gs => sameFields fs gs
  | _, _ => false

def sameList : List JsVal → List JsVal → Bool
  | [], [] => true
  | x :: xs, y :: ys => same x y && sameList xs ys
  | _, _ => false

def sameFields : List (String × JsVal) → List (String × JsVal) → Bool
  | [], [] => true
  | (k, x) :: fs, (l, y) :: gs => k == l && same x y && sameFields fs gs
  | _, _ => false
end

mutual
theorem same_iff : ∀ a b : JsVal, same a b = true ↔ a = b
  | .null, b => by cases b <;> simp [same]
  | .bool _, b => by cases b <;> simp [same]
  | .num _, b => by cases b <;> simp [same]
  | .str _, b => by cases b <;> simp [same]
  | .arr xs, b => by
    cases b with
    | arr ys => simpa [same] using sameList_iff xs ys
    | _ => simp [same]
  | .obj fs, b => by
    cases b with
    | obj gs => simpa [same] using sameFields_iff fs gs
    | _ => simp [same]

theorem sameList_iff : ∀ xs ys : List JsVal, sameList xs ys = true ↔ xs = ys
  | [], ys => by cases ys <;> simp [sameList]
  | x :: xs, ys => by
    cases ys with
    | nil => simp [sameList]
    | cons y ys => simp [sameList, same_iff x y, sameList_iff xs ys]

theorem sameFields_iff : ∀ fs gs : List (String × JsVal), sameFields fs gs = true ↔ fs = gs
  | [], gs => by cases gs <;> simp [sameFields]
  | (k, x) :: fs, gs => by
    cases gs with
    | nil => simp [sameFields]
    | cons g gs =>
      obtain ⟨l, y⟩ := g
      simp [sameFields, same_iff x y, sameFields_iff fs gs]
end

instance : DecidableEq JsVal := fun a b => decidable_of_iff _ (same_iff a b)

def truthy : JsVal → Bool
  | .null => false
  | .bool b => b
  | .num q => decide (q ≠ 0)
  | .str s => s != ""
  | .arr _ => true
  | .obj _ => true

def isArray : JsVal → Bool
  | .arr _ => true
  | _ => false

end JsVal

end Iasql
