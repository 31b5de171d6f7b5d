import Iasql.JsonMeaning

namespace Iasql.AwsDiff

open OrderedMap Json

section Loop

def sameAt : Option Json → Option Json → Except String Bool
  | none, w => .ok w.isNone
  | some v, w =>
    if v.isObject then objectsAreSame v (w.getD (.obj [])) else .ok (identical v w)

def loop (y : Json) : List (JsString × Option Json) → Except String Bool
  | [] => .ok true
  | p :: ps =>
    match sameAt p.2 (prop y p.1) with
    | .ok true => loop y ps
    | out => out

theorem elements_cons (v : Json) (vs : List Json) (i : Nat) :
    elements (v :: vs) i = (indexKey i, some v) :: elements vs (i + 1) := by
  simp [elements]

theorem sameElements_eq (xs : List Json) (i : Nat) (y : Json) :
    sameElements xs i y = loop y (elements xs i) := by
  induction xs generalizing i with
  | nil => rfl
  | cons v vs ih =>
    rw [elements_cons, sameElements, loop, ih]
    rfl

theorem sameFields_eq (fields : List (JsString × Option Json)) (y : Json) :
    sameFields fields y = loop y fields := by
  induction fields with
  | nil => rfl
  | cons p fields ih =>
    obtain ⟨key, v⟩ := p
    cases v with
    | none =>
      rw [sameFields, loop, ih]
      cases hprop : prop y key with
      | none => rfl
      | some w => rfl
    | some v =>
      rw [sameFields, loop, ih]
      rfl

theorem sameUnits_eq (s : JsString) (i : Nat) (y : Json) :
    .ok (sameUnits s i y) = loop y (elements (s.map fun c => .str [c]) i) := by
  induction s generalizing i with
  | nil => rfl
  | cons c cs ih =>
    rw [List.map_cons, elements_cons, sameUnits, loop, ← ih]
    simp only [sameAt, isObject]
    cases identical (.str [c]) (prop y (indexKey i)) <;> rfl

theorem objectsAreSame_eq (x y : Json) :
    objectsAreSame x y =
      match stringCase x y with
      | some same => .ok same
      | none =>
        if x.isNull || y.isNull then .error typeError
        else if definedKeys x ≠ definedKeys y then .ok false
        else loop y (entries x) := by
  cases x with
  | str s =>
    have hloop : loop y (entries (.str s)) = .ok (sameUnits s 0 y) := (sameUnits_eq s 0 y).symm
    rw [hloop]
    exact objectsAreSame.eq_def _ _
  | arr xs =>
    have hloop : loop y (entries (.arr xs)) = sameElements xs 0 y := (sameElements_eq xs 0 y).symm
    rw [hloop]
    exact objectsAreSame.eq_def _ _
  | obj fields =>
    have hloop : loop y (entries (.obj fields)) = sameFields fields y :=
      (sameFields_eq fields y).symm
    rw [hloop]
    exact objectsAreSame.eq_def _ _
  | _ => rfl

end Loop

section Strings

theorem strings_iff {x y : Json} : Strings x y ↔ ∃ r, stringCase x y = some r := by
  constructor
  · rintro (⟨s, t⟩ | ⟨s, t⟩ | ⟨ss, ts⟩)
    · exact ⟨_, rfl⟩
    · exact ⟨_, rfl⟩
    · have hall : ∀ ss : List JsString, isStringArray (.arr (ss.map .str)) = true := by
        intro ss
        simp [isStringArray, isString]
      simp [stringCase, hall]
  · rintro ⟨r, h⟩
    unfold stringCase at h
    split at h
    · exact .left _ _
    · exact .right _ _
    · split at h
      · next hboth =>
        obtain ⟨hxs, hys⟩ := Bool.and_eq_true_iff.mp hboth
        rw [eq_map_of_isStringArray hxs, eq_map_of_isStringArray hys]
        exact .both _ _
      · cases h
    · cases h

theorem stringCase_eq_none {x y : Json} : stringCase x y = none ↔ ¬ Strings x y := by
  rw [strings_iff, ← Option.isSome_iff_exists, Bool.not_eq_true, Option.isSome_eq_false_iff,
    Option.isNone_iff_eq_none]

theorem sorted_eq_iff (ss ts : List JsString) :
    sorted ss = sorted ts ↔ (ss : Multiset JsString) = ts := by
  rw [Multiset.coe_eq_coe]
  constructor
  · intro h
    have hss := List.perm_insertionSort (· ≤ ·) ss
    have hts := List.perm_insertionSort (· ≤ ·) ts
    rw [sorted, sorted] at h
    exact hss.symm.trans (h ▸ hts)
  · intro h
    have hperm : (sorted ss).Perm (sorted ts) :=
      ((List.perm_insertionSort _ _).trans h).trans (List.perm_insertionSort _ _).symm
    have hpairwise := List.pairwise_insertionSort (fun s t : JsString => s ≤ t)
    exact hperm.eq_of_pairwise' (hpairwise ss) (hpairwise ts)

theorem stringCase_right {x y : Json} {r : Bool} (h : stringCase x y = some r) :
    r = true ↔ Same x y := by
  have hone : ∀ s : JsString, meaning (.arr [.str s]) = .single s := fun s =>
    meaning_stringArray [s]
  unfold stringCase at h
  split at h
  · next s t =>
    obtain rfl := Option.some.inj h
    rw [Same, hone, meaning, single_injective.eq_iff]
    exact beq_iff_eq
  · next s t =>
    obtain rfl := Option.some.inj h
    rw [Same, hone, meaning, single_injective.eq_iff]
    exact beq_iff_eq.trans eq_comm
  · next xs ys =>
    split at h
    · next hboth =>
      obtain ⟨hxs, hys⟩ := Bool.and_eq_true_iff.mp hboth
      have hsame : Same (.arr xs) (.arr ys) ↔ sorted (strings xs) = sorted (strings ys) := by
        have hxs' := congrArg (fun l => meaning (.arr l)) (eq_map_of_isStringArray hxs)
        have hys' := congrArg (fun l => meaning (.arr l)) (eq_map_of_isStringArray hys)
        simp only [meaning_stringArray] at hxs' hys'
        rw [Same, hxs', hys', sorted_eq_iff]
        exact ⟨Meaning.strings.inj, congrArg _⟩
      obtain rfl := Option.some.inj h
      rw [hsame]
      split
      · next hlength =>
        refine iff_of_false Bool.false_ne_true fun heq => hlength ?_
        have hcard := congrArg Multiset.card ((sorted_eq_iff _ _).mp heq)
        have hlengths := congrArg List.length (eq_map_of_isStringArray hxs)
        have hlengths' := congrArg List.length (eq_map_of_isStringArray hys)
        rw [List.length_map] at hlengths hlengths'
        rw [Multiset.coe_card, Multiset.coe_card] at hcard
        omega
      · exact beq_iff_eq
    · cases h
  · cases h

end Strings

section Parts

-- the comparison of p looks at its keys, and finds as many in both
structure Opens (p : Json × Json) : Prop where
  noStrings : ¬ Strings p.1 p.2
  left : p.1.isNull = false
  right : p.2.isNull = false
  counts : definedKeys p.1 = definedKeys p.2

-- and comes to the part q, as what is under the keys before is the same
inductive ComesToPart (p q : Json × Json) : Prop
  | mk {key v before after} (opens : Opens p)
      (split : entries p.1 = before ++ (key, some v) :: after) (object : v.isObject = true)
      (sameBefore : ∀ e ∈ before, PartSame e.2 (prop p.2 e.1))
      (args : q = (v, (prop p.2 key).getD (.obj [])))

def ComesTo : Json × Json → Json × Json → Prop := Relation.ReflTransGen ComesToPart

def Right (p : Json × Json) : Prop :=
  ∃ r, objectsAreSame p.1 p.2 = .ok r ∧ (r = true ↔ Same p.1 p.2)

def Distinct (p : Json × Json) : Prop := p.1.distinctKeys = true ∧ p.2.distinctKeys = true

def PartRight (v w : Option Json) : Prop :=
  ∃ r, sameAt v w = .ok r ∧ (r = true ↔ PartSame v w)

theorem partRight_none (w : Option Json) : PartRight none w :=
  ⟨w.isNone, rfl, Option.isNone_iff_eq_none⟩

theorem partRight_some {v : Json} {w : Option Json}
    (h : v.isObject = true → Right (v, w.getD (.obj []))) : PartRight (some v) w := by
  by_cases hobject : v.isObject = true
  · obtain ⟨r, hr, hsame⟩ := h hobject
    refine ⟨r, ?_, ?_⟩
    · rw [sameAt, if_pos hobject]
      exact hr
    · rw [PartSame, if_pos hobject]
      exact hsame
  · refine ⟨identical v w, ?_, ?_⟩
    · rw [sameAt, if_neg hobject]
    · rw [PartSame, if_neg hobject]

theorem loop_right {y : Json} {es : List (JsString × Option Json)}
    (h : ∀ before e after, es = before ++ e :: after →
      (∀ f ∈ before, PartSame f.2 (prop y f.1)) → PartRight e.2 (prop y e.1)) :
    ∃ r, loop y es = .ok r ∧ (r = true ↔ ∀ e ∈ es, PartSame e.2 (prop y e.1)) := by
  induction es with
  | nil => exact ⟨true, rfl, by simp⟩
  | cons e es ih =>
    obtain ⟨r, hr, hsame⟩ := h [] e es rfl (by simp)
    cases r with
    | false =>
      refine ⟨false, by rw [loop, hr], ?_⟩
      refine iff_of_false Bool.false_ne_true fun hall => ?_
      exact Bool.false_ne_true (hsame.mpr (hall e List.mem_cons_self))
    | true =>
      obtain ⟨r, hrest, hall⟩ := ih fun before f after hsplit hbefore =>
        h (e :: before) f after (by rw [hsplit, List.cons_append]) fun g hg => by
          rcases List.mem_cons.mp hg with rfl | hg
          · exact hsame.mp rfl
          · exact hbefore g hg
      refine ⟨r, by rw [loop, hr, hrest], ?_⟩
      rw [hall, List.forall_mem_cons]
      exact (and_iff_right (hsame.mp rfl)).symm

theorem answer_iff_keysSame {p : Json × Json} (hstrings : ¬ Strings p.1 p.2)
    (hnull : p.1.isNull = false ∧ p.2.isNull = false) (h : ∀ q, ComesToPart p q → Right q) :
    ∃ r, objectsAreSame p.1 p.2 = .ok r ∧ (r = true ↔ KeysSame p.1 p.2) := by
  have hor : ¬ (p.1.isNull || p.2.isNull) = true := by simp [hnull.1, hnull.2]
  have heq := objectsAreSame_eq p.1 p.2
  simp only [stringCase_eq_none.mpr hstrings, if_neg hor] at heq
  by_cases hcounts : definedKeys p.1 = definedKeys p.2
  · obtain ⟨r, hr, hall⟩ : ∃ r, loop p.2 (entries p.1) = .ok r ∧
        (r = true ↔ ∀ e ∈ entries p.1, PartSame e.2 (prop p.2 e.1)) := by
      refine loop_right fun before e after hsplit hbefore => ?_
      obtain ⟨key, v⟩ := e
      cases v with
      | none => exact partRight_none _
      | some v =>
        exact partRight_some fun hobject => h _
          ⟨⟨hstrings, hnull.1, hnull.2, hcounts⟩, hsplit, hobject, hbefore, rfl⟩
    refine ⟨r, ?_, ?_⟩
    · rw [heq, if_neg (not_not_intro hcounts), hr]
    · rw [hall, KeysSame]
      exact (and_iff_right hcounts).symm
  · refine ⟨false, ?_, iff_of_false Bool.false_ne_true fun hkeys => hcounts hkeys.1⟩
    rw [heq, if_pos hcounts]

theorem right_iff_reads {p : Json × Json} (hp : Distinct p) (h : ∀ q, ComesToPart p q → Right q) :
    Right p ↔ (¬ Strings p.1 p.2 → Reads p.1 p.2) := by
  by_cases hstrings : Strings p.1 p.2
  · obtain ⟨r, hcase⟩ := strings_iff.mp hstrings
    refine iff_of_true ⟨r, ?_, stringCase_right hcase⟩ (absurd hstrings)
    rw [objectsAreSame_eq, hcase]
  · by_cases hnull : p.1.isNull = false ∧ p.2.isNull = false
    · obtain ⟨r, hr, hkeys⟩ := answer_iff_keysSame hstrings hnull h
      have hreads := reads_iff hp.1 hp.2 hnull hstrings
      constructor
      · rintro ⟨r', hr', hsame⟩ -
        obtain rfl := Except.ok.inj (hr.symm.trans hr')
        exact hreads.mpr (hkeys.symm.trans hsame)
      · exact fun hread => ⟨r, hr, hkeys.trans (hreads.mp (hread hstrings))⟩
    · refine iff_of_false ?_ fun hread => hnull (hread hstrings).noNull
      rintro ⟨r, hr, -⟩
      have hor : (p.1.isNull || p.2.isNull) = true := by
        by_contra hnot
        exact hnull (by simpa using hnot)
      rw [objectsAreSame_eq, stringCase_eq_none.mpr hstrings] at hr
      simp only [hor, if_true] at hr
      cases hr

theorem distinct_under {p : Json × Json} {key : JsString} {v : Json} (hp : Distinct p)
    (hmem : (key, some v) ∈ entries p.1) : Distinct (v, (prop p.2 key).getD (.obj [])) := by
  refine ⟨distinct_of_mem hp.1 hmem, ?_⟩
  cases hw : prop p.2 key with
  | none => rfl
  | some w => exact distinct_prop hp.2 hw

theorem distinct_part {p q : Json × Json} (hp : Distinct p) (h : ComesToPart p q) : Distinct q := by
  obtain @⟨key, v, before, after, -, hsplit, -, -, rfl⟩ := h
  refine distinct_under hp ?_
  rw [hsplit]
  exact List.mem_append_right _ List.mem_cons_self

theorem distinct_of_comesTo {p q : Json × Json} (hp : Distinct p) (h : ComesTo p q) :
    Distinct q := by
  induction h with
  | refl => exact hp
  | tail _ hpart ih => exact distinct_part ih hpart

theorem sizeOf_part {x v : Json} {key : JsString} (h : (key, some v) ∈ entries x)
    (hobject : v.isObject = true) : sizeOf v < sizeOf x := by
  have helements : ∀ {xs : List Json}, (key, some v) ∈ elements xs 0 → v ∈ xs := by
    intro xs hmem
    obtain ⟨⟨w, i⟩, hw, heq⟩ := List.mem_map.mp hmem
    obtain rfl : w = v := Option.some.inj (Prod.mk.inj heq).2
    exact List.mem_of_getElem? (List.mem_zipIdx_iff_getElem?.mp hw)
  cases x with
  | str s =>
    obtain ⟨c, -, rfl⟩ := List.mem_map.mp (helements h)
    cases hobject
  | arr xs =>
    have hlt := List.sizeOf_lt_of_mem (helements h)
    simp only [Json.arr.sizeOf_spec]
    omega
  | obj fields =>
    have hlt : sizeOf (key, some v) < sizeOf fields := List.sizeOf_lt_of_mem h
    simp only [Prod.mk.sizeOf_spec, Option.some.sizeOf_spec] at hlt
    simp only [Json.obj.sizeOf_spec]
    omega
  | _ => cases h

theorem sizeOf_part_lt {p q : Json × Json} (h : ComesToPart p q) : sizeOf q.1 < sizeOf p.1 := by
  obtain @⟨key, v, before, after, -, hsplit, hobject, -, rfl⟩ := h
  have hmem : (key, some v) ∈ entries p.1 := by
    rw [hsplit]
    exact List.mem_append_right _ List.mem_cons_self
  exact sizeOf_part hmem hobject

theorem right_of_reads {p : Json × Json} (hp : Distinct p)
    (h : ∀ q, ComesTo p q → ¬ Strings q.1 q.2 → Reads q.1 q.2) : Right p := by
  induction hn : sizeOf p.1 using Nat.strong_induction_on generalizing p with
  | _ n ih =>
    subst hn
    refine (right_iff_reads hp fun q hq => ?_).mpr (h p .refl)
    exact ih _ (sizeOf_part_lt hq) (distinct_part hp hq) (fun r hr => h r (.head hq hr)) rfl

end Parts

section Misread

def object (key : String) (v : Json) : Json := .obj [(js key, some v)]

end Misread

end Iasql.AwsDiff
