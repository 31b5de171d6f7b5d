import Iasql.Calculus.OrderedMap
import Mathlib.Data.Fin.Basic
import Mathlib.Data.List.Lex
import Mathlib.Data.List.Sort
import Mathlib.Data.Multiset.Basic
import Mathlib.Data.Rat.Defs
import Mathlib.Order.Fin.Basic

namespace Iasql.AwsDiff

open OrderedMap

-- a string is the list of its UTF-16 code units, which === and sort compare
abbrev JsString := List (Fin 65536)

def js (s : String) : JsString :=
  s.toList.flatMap fun c =>
    if c.toNat < 0x10000 then [Fin.ofNat _ c.toNat]
    else [Fin.ofNat _ (0xD800 + (c.toNat - 0x10000) / 0x400),
      Fin.ofNat _ (0xDC00 + (c.toNat - 0x10000) % 0x400)]

-- a field can be undefined
inductive Json where
  | null
  | bool (b : Bool)
  | num (q : ℚ)
  | str (s : JsString)
  | arr (xs : List Json)
  | obj (fields : List (JsString × Option Json))

namespace Json

def isString : Json → Bool
  | str _ => true
  | _ => false

def isNull : Json → Bool
  | null => true
  | _ => false

-- typeof obj === 'object'
def isObject : Json → Bool
  | null | arr _ | obj _ => true
  | _ => false

def strings (xs : List Json) : List JsString :=
  xs.filterMap fun
    | str s => some s
    | _ => none

def isStringArray : Json → Bool
  | arr xs => xs.all isString
  | _ => false

end Json

open Json

def indexKey (i : Nat) : JsString := js (toString i)

def elements (xs : List Json) (i : Nat) : List (JsString × Option Json) :=
  (xs.zipIdx i).map fun p => (indexKey p.2, some p.1)

-- the own keys of a value, in the order of Object.keys, and what is under them
def entries : Json → List (JsString × Option Json)
  | .str s => elements (s.map fun c => .str [c]) 0
  | .arr xs => elements xs 0
  | .obj fields => fields
  | _ => []

def definedKeys (x : Json) : Nat := ((entries x).filter fun p => p.2.isSome).length

-- obj[key]; arrays and strings have a length besides their own keys
def prop (x : Json) (key : JsString) : Option Json :=
  match find key (entries x) with
  | some v => v
  | none =>
    match x with
    | .arr xs => if key = js "length" then some (.num xs.length) else none
    | .str s => if key = js "length" then some (.num s.length) else none
    | _ => none

-- v === w, for a v that is no object
def identical : Json → Option Json → Bool
  | .bool a, some (.bool b) => a == b
  | .num a, some (.num b) => decide (a = b)
  | .str a, some (.str b) => a == b
  | _, _ => false

def sorted (xs : List JsString) : List JsString := xs.insertionSort (· ≤ ·)

-- the answer where one is an array of a single string and the other a string, or both are arrays
-- of strings
def stringCase : Json → Json → Option Bool
  | .arr [.str s], .str t => some (s == t)
  | .str s, .arr [.str t] => some (t == s)
  | .arr xs, .arr ys =>
    if isStringArray (.arr xs) && isStringArray (.arr ys) then
      some (if xs.length ≠ ys.length then false else sorted (strings xs) == sorted (strings ys))
    else none
  | _, _ => none

def typeError : String := "Cannot convert undefined or null to object"

def sameUnits : List (Fin 65536) → Nat → Json → Bool
  | [], _, _ => true
  | c :: cs, i, y => identical (.str [c]) (prop y (indexKey i)) && sameUnits cs (i + 1) y

mutual
def objectsAreSame (x y : Json) : Except String Bool :=
  match stringCase x y with
  | some same => .ok same
  | none =>
    if x.isNull || y.isNull then .error typeError
    else if definedKeys x ≠ definedKeys y then .ok false
    else match x with
      | .str s => .ok (sameUnits s 0 y)
      | .arr xs => sameElements xs 0 y
      | .obj fields => sameFields fields y
      | _ => .ok true

def sameElements : List Json → Nat → Json → Except String Bool
  | [], _, _ => .ok true
  | v :: vs, i, y =>
    let w := prop y (indexKey i)
    match if v.isObject then objectsAreSame v (w.getD (.obj [])) else .ok (identical v w) with
    | .ok true => sameElements vs (i + 1) y
    | out => out

def sameFields : List (JsString × Option Json) → Json → Except String Bool
  | [], _ => .ok true
  | (key, none) :: fields, y =>
    if (prop y key).isNone then sameFields fields y else .ok false
  | (key, some v) :: fields, y =>
    let w := prop y key
    match if v.isObject then objectsAreSame v (w.getD (.obj [])) else .ok (identical v w) with
    | .ok true => sameFields fields y
    | out => out
end

end Iasql.AwsDiff
