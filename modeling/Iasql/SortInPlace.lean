import Iasql.ObjectsAreSame

namespace Iasql.AwsDiff

open OrderedMap Json

section Model

-- the answer of a call, and its arguments as it leaves them
structure Compared where
  same : Except String Bool
  left : Json
  right : Json

-- obj1.sort() and obj2.sort(), where both are arrays of strings and of one length
def sortBoth : Json → Json → Json × Json
  | .arr xs, .arr ys =>
    if isStringArray (.arr xs) && isStringArray (.arr ys) && xs.length == ys.length then
      (.arr ((sorted (strings xs)).map .str), .arr ((sorted (strings ys)).map .str))
    else (.arr xs, .arr ys)
  | x, y => (x, y)

def setElement (key : JsString) (w : Json) : List Json → Nat → List Json
  | [], _ => []
  | y :: ys, i => if indexKey i = key then w :: ys else y :: setElement key w ys (i + 1)

-- what is under the key has become w
def replaceAt (key : JsString) (w : Json) : Json → Json
  | .arr ys => .arr (setElement key w ys 0)
  | .obj fields => .obj (put key (some w) fields)
  | y => y

def writeBack (key : JsString) (w : Option Json) (right y : Json) : Json :=
  if w.isSome then replaceAt key right y else y

mutual
def objectsAreSameInPlace (x y : Json) : Compared :=
  match stringCase x y with
  | some same => ⟨.ok same, (sortBoth x y).1, (sortBoth x y).2⟩
  | none =>
    if x.isNull || y.isNull then ⟨.error typeError, x, y⟩
    else if definedKeys x ≠ definedKeys y then ⟨.ok false, x, y⟩
    else match x with
      | .str s => ⟨.ok (sameUnits s 0 y), .str s, y⟩
      | .arr xs =>
        let r := sameElementsInPlace xs 0 y
        ⟨r.1, .arr r.2.1, r.2.2⟩
      | .obj fields =>
        let r := sameFieldsInPlace fields y
        ⟨r.1, .obj r.2.1, r.2.2⟩
      | x => ⟨.ok true, x, y⟩

def sameElementsInPlace : List Json → Nat → Json → Except String Bool × List Json × Json
  | [], _, y => (.ok true, [], y)
  | v :: vs, i, y =>
    let w := prop y (indexKey i)
    if v.isObject then
      let r := objectsAreSameInPlace v (w.getD (.obj []))
      let y := writeBack (indexKey i) w r.right y
      match r.same with
      | .ok true =>
        let rest := sameElementsInPlace vs (i + 1) y
        (rest.1, r.left :: rest.2.1, rest.2.2)
      | out => (out, r.left :: vs, y)
    else if identical v w then
      let rest := sameElementsInPlace vs (i + 1) y
      (rest.1, v :: rest.2.1, rest.2.2)
    else (.ok false, v :: vs, y)

def sameFieldsInPlace : List (JsString × Option Json) → Json →
    Except String Bool × List (JsString × Option Json) × Json
  | [], y => (.ok true, [], y)
  | (key, none) :: fields, y =>
    if (prop y key).isNone then
      let rest := sameFieldsInPlace fields y
      (rest.1, (key, none) :: rest.2.1, rest.2.2)
    else (.ok false, (key, none) :: fields, y)
  | (key, some v) :: fields, y =>
    let w := prop y key
    if v.isObject then
      let r := objectsAreSameInPlace v (w.getD (.obj []))
      let y := writeBack key w r.right y
      match r.same with
      | .ok true =>
        let rest := sameFieldsInPlace fields y
        (rest.1, (key, some r.left) :: rest.2.1, rest.2.2)
      | out => (out, (key, some r.left) :: fields, y)
    else if identical v w then
      let rest := sameFieldsInPlace fields y
      (rest.1, (key, some v) :: rest.2.1, rest.2.2)
    else (.ok false, (key, some v) :: fields, y)
end

end Model

section Writes

variable {key k : JsString} {u w : Json} {ys : List Json}

theorem length_setElement (key : JsString) (w : Json) (ys : List Json) (i : Nat) :
    (setElement key w ys i).length = ys.length := by
  induction ys generalizing i with
  | nil => rfl
  | cons y ys ih =>
    rw [setElement]
    split
    · rfl
    · rw [List.length_cons, List.length_cons, ih]

theorem find_elements_cons (k : JsString) (y : Json) (ys : List Json) (i : Nat) :
    find k (elements (y :: ys) i) =
      if indexKey i = k then some (some y) else find k (elements ys (i + 1)) := by
  rw [elements_cons, find]

theorem find_setElement_ne (h : k ≠ key) (ys : List Json) (i : Nat) :
    find k (elements (setElement key w ys i) i) = find k (elements ys i) := by
  induction ys generalizing i with
  | nil => rfl
  | cons y ys ih =>
    rw [setElement, find_elements_cons]
    split
    · next hi =>
      have hne : indexKey i ≠ k := fun heq => h (heq.symm.trans hi)
      rw [find_elements_cons, if_neg hne, if_neg hne]
    · rw [find_elements_cons, ih]

theorem find_setElement_self {v : Option Json} (ys : List Json) (i : Nat)
    (h : find key (elements ys i) = some v) :
    find key (elements (setElement key w ys i) i) = some (some w) := by
  induction ys generalizing i with
  | nil => cases h
  | cons y ys ih =>
    rw [find_elements_cons] at h
    rw [setElement]
    split
    · next hi => rw [find_elements_cons, if_pos hi]
    · next hi =>
      rw [if_neg hi] at h
      rw [find_elements_cons, if_neg hi]
      exact ih (i + 1) h

theorem setElement_self (ys : List Json) (i : Nat)
    (h : ∀ v, find key (elements ys i) = some (some v) → v = w) :
    setElement key w ys i = ys := by
  induction ys generalizing i with
  | nil => rfl
  | cons y ys ih =>
    rw [find_elements_cons] at h
    rw [setElement]
    split
    · next hi =>
      rw [if_pos hi] at h
      rw [h y rfl]
    · next hi =>
      rw [if_neg hi] at h
      rw [ih (i + 1) h]

theorem put_self {fields : List (JsString × Option Json)} {v : Option Json}
    (h : find key fields = some v) : put key v fields = fields := by
  induction fields with
  | nil => cases h
  | cons p fields ih =>
    obtain ⟨l, v'⟩ := p
    rw [find] at h
    rw [put]
    split
    · next hl =>
      rw [if_pos hl] at h
      obtain rfl := Option.some.inj h
      rw [hl]
    · next hl =>
      rw [if_neg hl] at h
      rw [ih h]

theorem prop_replaceAt_ne (h : k ≠ key) (y : Json) : prop (replaceAt key w y) k = prop y k := by
  cases y with
  | arr ys =>
    have hfind : find k (entries (.arr (setElement key w ys 0))) = find k (entries (.arr ys)) :=
      find_setElement_ne h ys 0
    simp only [replaceAt, prop, hfind, length_setElement]
  | obj fields =>
    have hfind : find k (entries (.obj (put key (some w) fields))) =
        find k (entries (.obj fields)) := find_put_ne (some w) fields h
    simp only [replaceAt, prop, hfind]
  | _ => rfl

theorem object_of_prop_str {s : JsString} (h : prop (.str s) key = some u) :
    u.isObject = false := by
  unfold prop at h
  cases hfind : find key (entries (.str s)) with
  | some v =>
    rw [hfind] at h
    obtain rfl : v = some u := h
    obtain ⟨i, v, hv, heq⟩ := mem_elements.mp (mem_of_find hfind)
    obtain ⟨c, -, rfl⟩ := List.mem_map.mp (List.mem_of_getElem? hv)
    obtain rfl := Option.some.inj (Prod.mk.inj heq).2
    rfl
  | none =>
    rw [hfind] at h
    obtain ⟨-, heq⟩ := Option.ite_none_right_eq_some.mp h
    obtain rfl := Option.some.inj heq
    rfl

theorem prop_replaceAt_self {y : Json} (h : prop y key = some u) (hobject : u.isObject = true) :
    prop (replaceAt key w y) key = some w := by
  cases y with
  | str s =>
    rw [object_of_prop_str h] at hobject
    cases hobject
  | arr ys =>
    refine prop_of_find ?_
    unfold prop at h
    cases hfind : find key (entries (.arr ys)) with
    | some v => exact find_setElement_self ys 0 hfind
    | none =>
      rw [hfind] at h
      obtain ⟨-, heq⟩ := Option.ite_none_right_eq_some.mp h
      obtain rfl := Option.some.inj heq
      cases hobject
  | obj fields => exact prop_of_find (find_put_self key (some w) fields)
  | _ => cases h

theorem replaceAt_self {y : Json} (h : prop y key = some w) : replaceAt key w y = y := by
  cases y with
  | arr ys =>
    refine congrArg Json.arr (setElement_self ys 0 fun v hv => ?_)
    rw [prop_of_find (x := .arr ys) hv] at h
    exact Option.some.inj h
  | obj fields =>
    refine congrArg Json.obj (put_self ?_)
    unfold prop at h
    cases hfind : find key (entries (.obj fields)) with
    | some v =>
      rw [hfind] at h
      exact hfind.trans (congrArg some h)
    | none =>
      rw [hfind] at h
      cases h
  | _ => rfl

theorem writeBack_getD {y : Json} : writeBack key (prop y key) ((prop y key).getD u) y = y := by
  rw [writeBack]
  split
  · next hw =>
    obtain ⟨w, hw⟩ := Option.isSome_iff_exists.mp hw
    rw [hw]
    exact replaceAt_self hw
  · rfl

theorem prop_writeBack_ne {v : Option Json} (h : k ≠ key) (y : Json) :
    prop (writeBack key v w y) k = prop y k := by
  rw [writeBack]
  split
  · exact prop_replaceAt_ne h y
  · rfl

end Writes

section Loop

variable {x y : Json} {es : List (JsString × Option Json)}

theorem sameElementsInPlace_eq (xs : List Json) (i : Nat) (y : Json) :
    sameFieldsInPlace (elements xs i) y =
      ((sameElementsInPlace xs i y).1, elements (sameElementsInPlace xs i y).2.1 i,
        (sameElementsInPlace xs i y).2.2) := by
  induction xs generalizing i y with
  | nil => rfl
  | cons v vs ih =>
    rw [elements_cons, sameFieldsInPlace, sameElementsInPlace]
    by_cases hobject : v.isObject = true
    · simp only [hobject, if_true]
      split
      · simp only [ih, elements_cons]
      · simp only [elements_cons]
    · simp only [hobject, Bool.false_eq_true, if_false]
      split
      · simp only [ih, elements_cons]
      · simp only [elements_cons]

theorem elements_injective {xs ys : List Json} {i : Nat} (h : elements xs i = elements ys i) :
    xs = ys := by
  induction xs generalizing ys i with
  | nil =>
    cases ys with
    | nil => rfl
    | cons y ys => cases h
  | cons x xs ih =>
    cases ys with
    | nil => cases h
    | cons y ys =>
      rw [elements_cons, elements_cons] at h
      obtain ⟨hhead, htail⟩ := List.cons.inj h
      obtain rfl := Option.some.inj (Prod.mk.inj hhead).2
      rw [ih htail]

-- the comparison leaves both of its arguments as they were
def Untouched (p : Json × Json) : Prop :=
  (objectsAreSameInPlace p.1 p.2).left = p.1 ∧ (objectsAreSameInPlace p.1 p.2).right = p.2

-- what the loop does at one key: how the comparison of an object ends, and what is left under it
def partInPlace (v : Json) (w : Option Json) : Compared :=
  if v.isObject then objectsAreSameInPlace v (w.getD (.obj []))
  else ⟨.ok (identical v w), v, w.getD (.obj [])⟩

theorem sameFieldsInPlace_none (key : JsString) (es : List (JsString × Option Json)) (y : Json) :
    sameFieldsInPlace ((key, none) :: es) y =
      if (prop y key).isNone then
        ((sameFieldsInPlace es y).1, (key, none) :: (sameFieldsInPlace es y).2.1,
          (sameFieldsInPlace es y).2.2)
      else (.ok false, (key, none) :: es, y) := by
  rw [sameFieldsInPlace]

theorem sameFieldsInPlace_some (key : JsString) (v : Json) (es : List (JsString × Option Json))
    (y : Json) :
    sameFieldsInPlace ((key, some v) :: es) y =
      let r := partInPlace v (prop y key)
      let y' := writeBack key (prop y key) r.right y
      if r.same = .ok true then
        ((sameFieldsInPlace es y').1, (key, some r.left) :: (sameFieldsInPlace es y').2.1,
          (sameFieldsInPlace es y').2.2)
      else (r.same, (key, some r.left) :: es, y') := by
  rw [sameFieldsInPlace, partInPlace]
  by_cases hobject : v.isObject = true
  · simp only [hobject, if_true]
    split
    · next hsame => simp only [hsame, if_true]
    · next hsame => rw [if_neg hsame]
  · simp only [hobject, Bool.false_eq_true, if_false, writeBack_getD, Except.ok.injEq]
    by_cases hsame : identical v (prop y key) = true
    · simp only [hsame, if_true]
    · simp only [hsame, Bool.false_eq_true, if_false]

-- the loop writes only under the keys it goes through
theorem prop_sameFieldsInPlace {key : JsString} (h : key ∉ keys es) (y : Json) :
    prop (sameFieldsInPlace es y).2.2 key = prop y key := by
  induction es generalizing y with
  | nil => rfl
  | cons e es ih =>
    obtain ⟨k, v⟩ := e
    obtain ⟨hne, hrest⟩ := not_or.mp (List.mem_cons.not.mp h)
    cases v with
    | none =>
      rw [sameFieldsInPlace_none]
      split
      · exact ih hrest y
      · rfl
    | some v =>
      rw [sameFieldsInPlace_some]
      dsimp only
      split
      · exact (ih hrest _).trans (prop_writeBack_ne hne y)
      · exact prop_writeBack_ne hne y

theorem sameUnitsInPlace_eq (s : JsString) (i : Nat) (y : Json) :
    sameFieldsInPlace (elements (s.map fun c => .str [c]) i) y =
      (.ok (sameUnits s i y), elements (s.map fun c => .str [c]) i, y) := by
  induction s generalizing i with
  | nil => rfl
  | cons c cs ih =>
    rw [List.map_cons, elements_cons, sameFieldsInPlace_some, sameUnits]
    simp only [partInPlace, isObject, Bool.false_eq_true, if_false, writeBack_getD,
      Except.ok.injEq]
    cases identical (.str [c]) (prop y (indexKey i)) with
    | false => rfl
    | true => simp only [ih, if_true, Bool.true_and]

-- where there are no two arrays of strings, only the loop writes
theorem unopened (hstrings : ¬ Strings x y) (h : ¬ Opens (x, y)) :
    objectsAreSameInPlace x y = ⟨objectsAreSame x y, x, y⟩ := by
  rw [objectsAreSameInPlace.eq_def, objectsAreSame_eq, stringCase_eq_none.mpr hstrings]
  dsimp only
  split
  · rfl
  · next hnull =>
    rw [Bool.or_eq_true, not_or, Bool.not_eq_true, Bool.not_eq_true] at hnull
    split
    · rfl
    · next hcounts => exact absurd ⟨hstrings, hnull.1, hnull.2, not_not.mp hcounts⟩ h

theorem opened (h : Opens (x, y)) :
    (objectsAreSameInPlace x y).same = (sameFieldsInPlace (entries x) y).1 ∧
      ((objectsAreSameInPlace x y).left = x ↔
        (sameFieldsInPlace (entries x) y).2.1 = entries x) ∧
      (objectsAreSameInPlace x y).right = (sameFieldsInPlace (entries x) y).2.2 := by
  have hnull : ¬ (x.isNull || y.isNull) = true := by simp [h.left, h.right]
  have hcounts : ¬ definedKeys x ≠ definedKeys y := not_not_intro h.counts
  rw [objectsAreSameInPlace.eq_def, stringCase_eq_none.mpr h.noStrings]
  simp only [if_neg hnull, if_neg hcounts]
  cases x with
  | str s =>
    have hloop : sameFieldsInPlace (entries (.str s)) y = _ := sameUnitsInPlace_eq s 0 y
    rw [hloop]
    exact ⟨rfl, iff_of_true rfl rfl, rfl⟩
  | arr xs =>
    have hloop : sameFieldsInPlace (entries (.arr xs)) y = _ := sameElementsInPlace_eq xs 0 y
    rw [hloop]
    refine ⟨rfl, ⟨fun hleft => ?_, fun hleft => ?_⟩, rfl⟩
    · exact congrArg (elements · 0) (Json.arr.inj hleft)
    · exact congrArg Json.arr (elements_injective hleft)
  | obj fields => exact ⟨rfl, ⟨Json.obj.inj, congrArg Json.obj⟩, rfl⟩
  | _ => exact ⟨rfl, iff_of_true rfl rfl, rfl⟩

-- what can not be written to stays
theorem right_of_unwritable (h : ∀ key w, writeBack key (prop y key) w y = y)
    (hstrings : ¬ Strings x y) : (objectsAreSameInPlace x y).right = y := by
  have hloop : ∀ es, (sameFieldsInPlace es y).2.2 = y := by
    intro es
    induction es with
    | nil => rfl
    | cons e es ih =>
      obtain ⟨k, v⟩ := e
      cases v with
      | none =>
        rw [sameFieldsInPlace_none]
        split
        · exact ih
        · rfl
      | some v =>
        rw [sameFieldsInPlace_some]
        dsimp only
        rw [h]
        split
        · exact ih
        · rfl
  by_cases hopens : Opens (x, y)
  · exact (opened hopens).2.2.trans (hloop _)
  · rw [unopened hstrings hopens]

theorem strings_inPlace (h : Strings x y) :
    (objectsAreSameInPlace x y).same = objectsAreSame x y ∧
      (objectsAreSameInPlace x y).left = (sortBoth x y).1 ∧
      (objectsAreSameInPlace x y).right = (sortBoth x y).2 := by
  obtain ⟨r, hcase⟩ := strings_iff.mp h
  rw [objectsAreSameInPlace.eq_def, objectsAreSame_eq, hcase]
  exact ⟨rfl, rfl, rfl⟩

-- a missing part and a part that is no object stay what they are
theorem right_of_no_object {key : JsString} {v : Json}
    (h : ∀ w, prop y key = some w → w.isObject = false) :
    (partInPlace v (prop y key)).right = (prop y key).getD (.obj []) := by
  rw [partInPlace]
  split
  · cases hw : prop y key with
    | none =>
      refine right_of_unwritable (fun k w => rfl) ?_
      rintro ⟨⟩
    | some w =>
      have hobject := h w hw
      cases w with
      | str s =>
        by_cases hstrings : Strings v (.str s)
        · obtain ⟨-, -, hright⟩ := strings_inPlace hstrings
          cases hstrings
          exact hright
        · refine right_of_unwritable (fun k w => ?_) hstrings
          rw [writeBack]
          split <;> rfl
      | bool b => exact right_of_unwritable (fun k w => rfl) (by rintro ⟨⟩)
      | num q => exact right_of_unwritable (fun k w => rfl) (by rintro ⟨⟩)
      | _ => cases hobject
  · rfl

end Loop

section Answer

theorem loop_congr {y y' : Json} {es : List (JsString × Option Json)}
    (h : ∀ key ∈ keys es, prop y' key = prop y key) : loop y' es = loop y es := by
  induction es with
  | nil => rfl
  | cons e es ih =>
    obtain ⟨hkey, hrest⟩ := List.forall_mem_cons.mp h
    rw [loop, loop, hkey, ih hrest]

theorem loop_inPlace {es : List (JsString × Option Json)} (hkeys : (keys es).Nodup)
    (h : ∀ e ∈ es, ∀ v, e.2 = some v → v.isObject = true →
      ∀ w, (objectsAreSameInPlace v w).same = objectsAreSame v w) (y : Json) :
    (sameFieldsInPlace es y).1 = loop y es := by
  induction es generalizing y with
  | nil => rfl
  | cons e es ih =>
    obtain ⟨key, v⟩ := e
    obtain ⟨hkey, hrest⟩ := List.nodup_cons.mp hkeys
    obtain ⟨hhead, htail⟩ := List.forall_mem_cons.mp h
    cases v with
    | none =>
      rw [sameFieldsInPlace_none, loop, sameAt]
      cases prop y key with
      | none => exact ih hrest htail y
      | some w => rfl
    | some v =>
      have hpart : (partInPlace v (prop y key)).same = sameAt (some v) (prop y key) := by
        rw [partInPlace, sameAt]
        split
        · next hobject => exact hhead v rfl hobject _
        · rfl
      rw [sameFieldsInPlace_some, loop]
      dsimp only
      rw [hpart]
      split
      · next hsame =>
        rw [hsame]
        refine (ih hrest htail _).trans (loop_congr fun k hk => prop_writeBack_ne ?_ y)
        rintro rfl
        exact hkey hk
      · next hsame =>
        split
        · next heq => exact absurd heq hsame
        · rfl

-- sorting on the way does not change the answer
theorem same_inPlace {x : Json} (hx : x.distinctKeys = true) (y : Json) :
    (objectsAreSameInPlace x y).same = objectsAreSame x y := by
  induction hn : sizeOf x using Nat.strong_induction_on generalizing x y with
  | _ n ih =>
    subst hn
    by_cases hstrings : Strings x y
    · exact (strings_inPlace hstrings).1
    · by_cases hopens : Opens (x, y)
      · have hnull : ¬ (x.isNull || y.isNull) = true := by simp [hopens.left, hopens.right]
        have hcounts : ¬ definedKeys x ≠ definedKeys y := not_not_intro hopens.counts
        rw [(opened hopens).1, objectsAreSame_eq, stringCase_eq_none.mpr hstrings]
        simp only [if_neg hnull, if_neg hcounts]
        refine loop_inPlace (nodup_keys hx) ?_ y
        rintro ⟨key, -⟩ he v rfl hobject w
        exact ih _ (sizeOf_part he hobject) (distinct_of_mem hx he) w rfl
      · rw [unopened hstrings hopens]

-- two values in which the comparison finds no difference
inductive Agree : Json → Json → Prop
  | strings {x y} (strings : Strings x y) (same : Same x y) : Agree x y
  | keys {x y} (opens : Opens (x, y))
      (absent : ∀ key, (key, none) ∈ entries x → prop y key = none)
      (plain : ∀ key v, (key, some v) ∈ entries x → v.isObject = false →
        identical v (prop y key) = true)
      (objects : ∀ key v, (key, some v) ∈ entries x → v.isObject = true →
        Agree v ((prop y key).getD (.obj []))) : Agree x y

def PartAgree : Option Json → Option Json → Prop
  | none, w => w = none
  | some v, w =>
    if v.isObject then Agree v (w.getD (.obj [])) else identical v w = true

theorem agree_iff_parts {x y : Json} (hstrings : ¬ Strings x y) :
    Agree x y ↔ Opens (x, y) ∧ ∀ e ∈ entries x, PartAgree e.2 (prop y e.1) := by
  constructor
  · intro h
    cases h with
    | strings h => exact absurd h hstrings
    | keys opens absent plain objects =>
      refine ⟨opens, ?_⟩
      rintro ⟨key, v⟩ he
      cases v with
      | none => exact absent key he
      | some v =>
        rw [PartAgree]
        split
        · next hobject => exact objects key v he hobject
        · next hobject => exact plain key v he (Bool.not_eq_true _ ▸ hobject)
  · rintro ⟨opens, hparts⟩
    refine .keys opens (fun key he => hparts _ he) (fun key v he hobject => ?_)
      (fun key v he hobject => ?_)
    · simpa [PartAgree, hobject] using hparts _ he
    · simpa [PartAgree, hobject] using hparts _ he

theorem loop_iff {y : Json} {es : List (JsString × Option Json)} :
    loop y es = .ok true ↔ ∀ e ∈ es, sameAt e.2 (prop y e.1) = .ok true := by
  induction es with
  | nil => simp [loop]
  | cons e es ih =>
    rw [loop, List.forall_mem_cons, ← ih]
    split
    · next h => rw [and_iff_right h]
    · next h => exact iff_of_false (fun hout => h hout) fun hboth => h hboth.1

-- a part is compared as the comparison of what is inside of it is
theorem partAgree_iff_of {v w : Option Json} (h : ∀ u, v = some u → u.isObject = true →
    (Agree u (w.getD (.obj [])) ↔ objectsAreSame u (w.getD (.obj [])) = .ok true)) :
    PartAgree v w ↔ sameAt v w = .ok true := by
  cases v with
  | none => simp [PartAgree, sameAt]
  | some v =>
    rw [PartAgree, sameAt]
    split
    · next hobject => exact h v rfl hobject
    · rw [Except.ok.injEq]

theorem agree_iff (x y : Json) : Agree x y ↔ objectsAreSame x y = .ok true := by
  induction hn : sizeOf x using Nat.strong_induction_on generalizing x y with
  | _ n ih =>
    subst hn
    rw [objectsAreSame_eq]
    by_cases hstrings : Strings x y
    · obtain ⟨r, hcase⟩ := strings_iff.mp hstrings
      rw [hcase]
      refine Iff.trans ?_ (iff_of_eq (Except.ok.injEq r true)).symm
      rw [stringCase_right hcase]
      constructor
      · rintro (⟨-, hsame⟩ | ⟨hopens, -⟩)
        · exact hsame
        · exact absurd hstrings hopens.noStrings
      · exact .strings hstrings
    · rw [stringCase_eq_none.mpr hstrings, agree_iff_parts hstrings]
      by_cases hopens : Opens (x, y)
      · have hnull : ¬ (x.isNull || y.isNull) = true := by simp [hopens.left, hopens.right]
        have hcounts : ¬ definedKeys x ≠ definedKeys y := not_not_intro hopens.counts
        simp only [if_neg hnull, if_neg hcounts]
        rw [and_iff_right hopens, loop_iff]
        refine forall₂_congr fun e he => partAgree_iff_of fun v hv hobject => ?_
        obtain ⟨key, _⟩ := e
        subst hv
        exact ih _ (sizeOf_part he hobject) v _ rfl
      · refine iff_of_false (fun h => hopens h.1) fun h => hopens ?_
        dsimp only at h
        split at h
        · cases h
        · next hnull =>
          rw [Bool.or_eq_true, not_or, Bool.not_eq_true, Bool.not_eq_true] at hnull
          split at h
          · cases h
          · next hcounts => exact ⟨hstrings, hnull.1, hnull.2, not_not.mp hcounts⟩

theorem partAgree_iff (v w : Option Json) : PartAgree v w ↔ sameAt v w = .ok true :=
  partAgree_iff_of fun u _ _ => agree_iff u _

end Answer

section Places

-- the comparison of p comes to q, as it finds no difference before
inductive LooksInto (p q : Json × Json) : Prop
  | mk {key v before after} (opens : Opens p)
      (split : entries p.1 = before ++ (key, some v) :: after) (object : v.isObject = true)
      (sameBefore : ∀ e ∈ before, PartAgree e.2 (prop p.2 e.1))
      (args : q = (v, (prop p.2 key).getD (.obj [])))

def Reaches : Json × Json → Json × Json → Prop := Relation.ReflTransGen LooksInto

-- two arrays of strings as long as each other are in order
def InOrder (p : Json × Json) : Prop :=
  ∀ ss ts : List JsString, p = (.arr (ss.map .str), .arr (ts.map .str)) →
    ss.length = ts.length → ss.Pairwise (· ≤ ·) ∧ ts.Pairwise (· ≤ ·)

variable {p q : Json × Json}

theorem sorted_eq_self (ss : List JsString) : sorted ss = ss ↔ ss.Pairwise (· ≤ ·) := by
  constructor
  · intro h
    have hpairwise := List.pairwise_insertionSort (fun s t : JsString => s ≤ t) ss
    exact h ▸ hpairwise
  · exact List.Pairwise.insertionSort_eq

theorem strings_map (ss : List JsString) : strings (ss.map .str) = ss := by
  rw [strings, List.filterMap_map]
  exact List.filterMap_some

theorem map_str_injective {ss ts : List JsString} (h : Json.arr (ss.map .str) = .arr (ts.map .str)) :
    ss = ts := by
  have hstrings := congrArg strings (Json.arr.inj h)
  rwa [strings_map, strings_map] at hstrings

theorem sortBoth_arrays (ss ts : List JsString) :
    sortBoth (.arr (ss.map .str)) (.arr (ts.map .str)) =
      if ss.length = ts.length then (.arr ((sorted ss).map .str), .arr ((sorted ts).map .str))
      else (.arr (ss.map .str), .arr (ts.map .str)) := by
  have hall : ∀ ss : List JsString, isStringArray (.arr (ss.map .str)) = true := by
    intro ss
    simp [isStringArray, isString]
  simp only [sortBoth, hall, strings_map, List.length_map, Bool.true_and, beq_iff_eq]

theorem untouched_strings (h : Strings p.1 p.2) : Untouched p ↔ InOrder p := by
  obtain ⟨x, y⟩ := p
  obtain ⟨-, hleft, hright⟩ := strings_inPlace h
  rw [Untouched, hleft, hright]
  cases h with
  | left s t => exact iff_of_true ⟨rfl, rfl⟩ fun ss ts heq => by cases (Prod.mk.inj heq).2
  | right s t => exact iff_of_true ⟨rfl, rfl⟩ fun ss ts heq => by cases (Prod.mk.inj heq).1
  | both ss ts =>
    rw [sortBoth_arrays]
    constructor
    · intro hsame ss' ts' heq hlength
      obtain rfl := map_str_injective (Prod.mk.inj heq).1
      obtain rfl := map_str_injective (Prod.mk.inj heq).2
      rw [if_pos hlength] at hsame
      exact ⟨(sorted_eq_self ss).mp (map_str_injective hsame.1),
        (sorted_eq_self ts).mp (map_str_injective hsame.2)⟩
    · intro horder
      split
      · next hlength =>
        obtain ⟨hss, hts⟩ := horder ss ts rfl hlength
        rw [(sorted_eq_self ss).mpr hss, (sorted_eq_self ts).mpr hts]
        exact ⟨rfl, rfl⟩
      · exact ⟨rfl, rfl⟩

theorem partInPlace_object {v : Json} (hobject : v.isObject = true) (w : Option Json) :
    partInPlace v w = objectsAreSameInPlace v (w.getD (.obj [])) := if_pos hobject

-- what the loop does under one key is not undone later
theorem head_untouched {key : JsString} {v y : Json} {es : List (JsString × Option Json)}
    (hkey : key ∉ keys es) (hobject : v.isObject = true)
    (h : (sameFieldsInPlace ((key, some v) :: es) y).2 = ((key, some v) :: es, y)) :
    Untouched (v, (prop y key).getD (.obj [])) := by
  have hwrites : (partInPlace v (prop y key)).left = v ∧
      prop (writeBack key (prop y key) (partInPlace v (prop y key)).right y) key = prop y key := by
    rw [sameFieldsInPlace_some] at h
    dsimp only at h
    split at h
    · obtain ⟨hleft, hright⟩ := Prod.mk.inj h
      refine ⟨Option.some.inj (Prod.mk.inj (List.cons.inj hleft).1).2, ?_⟩
      rw [← prop_sameFieldsInPlace hkey, hright]
    · obtain ⟨hleft, hright⟩ := Prod.mk.inj h
      exact ⟨Option.some.inj (Prod.mk.inj (List.cons.inj hleft).1).2, by rw [hright]⟩
  obtain ⟨hleft, hprop⟩ := hwrites
  rw [Untouched, ← partInPlace_object hobject]
  refine ⟨hleft, ?_⟩
  by_cases hwritable : ∃ w, prop y key = some w ∧ w.isObject = true
  · obtain ⟨w, hw, hwobject⟩ := hwritable
    rw [writeBack, hw, Option.isSome_some, if_pos rfl, prop_replaceAt_self hw hwobject] at hprop
    rw [hw]
    exact Option.some.inj hprop
  · refine right_of_no_object fun w hw => ?_
    exact Bool.not_eq_true _ ▸ fun hwobject => hwritable ⟨w, hw, hwobject⟩

theorem forall_split_cons {α : Type} {A U : α → Prop} {e : α} {es : List α} :
    (∀ before f after, e :: es = before ++ f :: after → (∀ g ∈ before, A g) → U f) ↔
      U e ∧ (A e → ∀ before f after, es = before ++ f :: after → (∀ g ∈ before, A g) → U f) := by
  constructor
  · intro h
    refine ⟨h [] e es rfl (by simp), fun he before f after hsplit hbefore => ?_⟩
    refine h (e :: before) f after (by rw [hsplit, List.cons_append]) ?_
    exact List.forall_mem_cons.mpr ⟨he, hbefore⟩
  · rintro ⟨he, hrest⟩ before f after hsplit hbefore
    cases before with
    | nil =>
      obtain ⟨rfl, -⟩ := List.cons.inj hsplit
      exact he
    | cons g before =>
      obtain ⟨rfl, htail⟩ := List.cons.inj hsplit
      obtain ⟨hg, hbefore⟩ := List.forall_mem_cons.mp hbefore
      exact hrest hg before f after htail hbefore

def UntouchedAt (y : Json) (e : JsString × Option Json) : Prop :=
  ∀ v, e.2 = some v → v.isObject = true → Untouched (v, (prop y e.1).getD (.obj []))

theorem untouched_loop {es : List (JsString × Option Json)} (hkeys : (keys es).Nodup) (y : Json)
    (hsame : ∀ e ∈ es, ∀ v, e.2 = some v → v.isObject = true →
      ∀ w, (objectsAreSameInPlace v w).same = objectsAreSame v w) :
    (sameFieldsInPlace es y).2 = (es, y) ↔
      ∀ before e after, es = before ++ e :: after →
        (∀ f ∈ before, PartAgree f.2 (prop y f.1)) → UntouchedAt y e := by
  induction es with
  | nil => simp [sameFieldsInPlace]
  | cons e es ih =>
    obtain ⟨key, v⟩ := e
    obtain ⟨hkey, hrest⟩ := List.nodup_cons.mp hkeys
    obtain ⟨hhead, htail⟩ := List.forall_mem_cons.mp hsame
    rw [forall_split_cons, ← ih hrest htail]
    have hcons : ∀ p : List (JsString × Option Json) × Json, p = (es, y) ↔
        ((key, v) :: p.1, p.2) = ((key, v) :: es, y) := by
      intro p
      simp [Prod.ext_iff]
    cases v with
    | none =>
      have hnone : UntouchedAt y (key, none) := fun v hv => by cases hv
      rw [and_iff_right hnone, sameFieldsInPlace_none, PartAgree]
      cases hprop : prop y key with
      | none => exact ((hcons _).symm).trans (imp_iff_right rfl).symm
      | some w => exact iff_of_true rfl fun hw => by cases hw
    | some v =>
      have hpart : (partInPlace v (prop y key)).same = sameAt (some v) (prop y key) := by
        rw [partInPlace, sameAt]
        split
        · next hobject => exact hhead v rfl hobject _
        · rfl
      by_cases hat : UntouchedAt y (key, some v)
      · rw [and_iff_right hat, sameFieldsInPlace_some, partAgree_iff]
        dsimp only
        rw [hpart]
        have hstill : (partInPlace v (prop y key)).left = v ∧
            writeBack key (prop y key) (partInPlace v (prop y key)).right y = y := by
          by_cases hobject : v.isObject = true
          · obtain ⟨hleft, hright⟩ := hat v rfl hobject
            rw [partInPlace_object hobject, hleft, hright]
            exact ⟨rfl, writeBack_getD⟩
          · rw [partInPlace, if_neg hobject]
            exact ⟨rfl, writeBack_getD⟩
        rw [hstill.1, hstill.2]
        split
        · next hok => exact ((hcons _).symm).trans (imp_iff_right hok).symm
        · next hno => exact iff_of_true rfl fun hok => absurd hok hno
      · refine iff_of_false (fun h => hat fun w hw hobject => ?_) fun h => hat h.1
        obtain rfl := Option.some.inj hw
        exact head_untouched hkey hobject h

theorem untouched_iff (hp : Distinct p) :
    Untouched p ↔ InOrder p ∧ ∀ q, LooksInto p q → Untouched q := by
  by_cases hstrings : Strings p.1 p.2
  · rw [untouched_strings hstrings]
    refine (and_iff_left ?_).symm
    rintro q ⟨opens, -⟩
    exact absurd hstrings opens.noStrings
  · have horder : InOrder p := by
      rintro ss ts rfl
      exact absurd (.both ss ts) hstrings
    rw [and_iff_right horder]
    by_cases hopens : Opens p
    · obtain ⟨-, hleft, hright⟩ := opened hopens
      have hloop := untouched_loop (nodup_keys hp.1) p.2 fun e he v hv hobject w =>
        same_inPlace (@distinct_of_mem _ e.1 _ hp.1 (hv ▸ he)) w
      rw [Prod.ext_iff, ← hleft, ← hright] at hloop
      refine hloop.trans ⟨?_, ?_⟩
      · rintro h q ⟨-, hsplit, hobject, hbefore, rfl⟩
        exact h _ _ _ hsplit hbefore _ rfl hobject
      · rintro h before ⟨key, v⟩ after hsplit hbefore w rfl hobject
        exact h _ ⟨hopens, hsplit, hobject, hbefore, rfl⟩
    · have hsame := unopened hstrings hopens
      refine iff_of_true ?_ fun q hq => ?_
      · rw [Untouched, hsame]
        exact ⟨rfl, rfl⟩
      · obtain ⟨opens, -⟩ := hq
        exact absurd opens hopens

theorem distinct_looksInto (hp : Distinct p) (h : LooksInto p q) : Distinct q := by
  obtain @⟨key, v, before, after, -, hsplit, -, -, rfl⟩ := h
  refine distinct_under hp ?_
  rw [hsplit]
  exact List.mem_append_right _ List.mem_cons_self

theorem sizeOf_looksInto (h : LooksInto p q) : sizeOf q.1 < sizeOf p.1 := by
  obtain @⟨key, v, before, after, -, hsplit, hobject, -, rfl⟩ := h
  have hmem : (key, some v) ∈ entries p.1 := by
    rw [hsplit]
    exact List.mem_append_right _ List.mem_cons_self
  exact sizeOf_part hmem hobject

theorem untouched_of_inOrder (hp : Distinct p) (h : ∀ q, Reaches p q → InOrder q) :
    Untouched p := by
  induction hn : sizeOf p.1 using Nat.strong_induction_on generalizing p with
  | _ n ih =>
    subst hn
    refine (untouched_iff hp).mpr ⟨h p .refl, fun q hq => ?_⟩
    exact ih _ (sizeOf_looksInto hq) (distinct_looksInto hp hq) (fun r hr => h r (.head hq hr)) rfl

theorem inOrder_of_untouched (hp : Distinct p) (h : Untouched p) (hq : Reaches p q) :
    InOrder q := by
  have hboth : Distinct q ∧ Untouched q := by
    induction hq with
    | refl => exact ⟨hp, h⟩
    | tail _ hpart ih =>
      obtain ⟨hdistinct, huntouched⟩ := ih
      exact ⟨distinct_looksInto hdistinct hpart, ((untouched_iff hdistinct).mp huntouched).2 _ hpart⟩
  exact ((untouched_iff hboth.1).mp hboth.2).1

-- a comparison leaves its arguments as they were exactly when all the pairs of string arrays it
-- comes to and that are as long as each other are in order already
theorem untouched_iff_inOrder (a b : Value) :
    Untouched (a.json, b.json) ↔ ∀ q, Reaches (a.json, b.json) q → InOrder q := by
  have hdistinct : Distinct (a.json, b.json) := ⟨a.distinct, b.distinct⟩
  exact ⟨fun h q hq => inOrder_of_untouched hdistinct h hq, untouched_of_inOrder hdistinct⟩

end Places

section Touched

def pair : Json := .arr [.str (js "b"), .str (js "a")]

-- the pair is the same as itself, and both copies come back in the other order
theorem touched_pair :
    (objectsAreSameInPlace pair pair).same = .ok true ∧
      (objectsAreSameInPlace pair pair).left = .arr [.str (js "a"), .str (js "b")] ∧
      (objectsAreSameInPlace pair pair).right = .arr [.str (js "a"), .str (js "b")] ∧
      ¬ Untouched (pair, pair) := by
  refine ⟨by decide, by rfl, by rfl, ?_⟩
  intro h
  have hleft : Json.arr [.str (js "a"), .str (js "b")] = pair := h.1
  have hhead := (List.cons.inj (Json.arr.inj hleft)).1
  exact absurd (Json.str.inj hhead) (by decide)

end Touched

end Iasql.AwsDiff
