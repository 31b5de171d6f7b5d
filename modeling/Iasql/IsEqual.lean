import Iasql.JsonMeaning

namespace Iasql.AwsDiff

open OrderedMap

section IsEqual

-- _.isEqual: an undefined field counts as a key
mutual
def isEqual : Json → Json → Bool
  | .null, .null => true
  | .bool a, .bool b => a == b
  | .num p, .num q => decide (p = q)
  | .str s, .str t => s == t
  | .arr xs, .arr ys => isEqualElements xs ys
  | .obj fs, .obj gs => fs.length == gs.length && isEqualFields fs gs
  | _, _ => false

def isEqualElements : List Json → List Json → Bool
  | [], [] => true
  | x :: xs, y :: ys => isEqual x y && isEqualElements xs ys
  | _, _ => false

def isEqualFields : List (JsString × Option Json) → List (JsString × Option Json) → Bool
  | [], _ => true
  | (key, none) :: fs, gs => (find key gs).any (·.isNone) && isEqualFields fs gs
  | (key, some v) :: fs, gs =>
    (match find key gs with
      | some (some w) => isEqual v w
      | _ => false) && isEqualFields fs gs
end

def isEqualAt : Option Json → Option Json → Bool
  | some x, some y => isEqual x y
  | none, none => true
  | _, _ => false

theorem isEqualFields_cons (key : JsString) (v : Option Json) (fs gs : List (JsString × Option Json)) :
    isEqualFields ((key, v) :: fs) gs =
      ((find key gs).any (isEqualAt v) && isEqualFields fs gs) := by
  cases v with
  | none =>
    rw [isEqualFields]
    rcases find key gs with _ | _ | w <;> rfl
  | some v =>
    rw [isEqualFields]
    rcases find key gs with _ | _ | w <;> rfl

theorem isEqualFields_iff {fs gs : List (JsString × Option Json)} :
    isEqualFields fs gs = true ↔ ∀ p ∈ fs, (find p.1 gs).any (isEqualAt p.2) = true := by
  induction fs with
  | nil => exact iff_of_true rfl (List.forall_mem_nil _)
  | cons p fs ih => rw [isEqualFields_cons, Bool.and_eq_true, ih, List.forall_mem_cons]

mutual
theorem isEqual_self (x : Json) (h : x.distinctKeys = true) : isEqual x x = true := by
  cases x with
  | arr xs => exact isEqualElements_self xs h
  | obj fs =>
    obtain ⟨hnodup, hfields⟩ := (Bool.and_eq_true _ _).mp h
    have hnodup : (keys fs).Nodup := of_decide_eq_true hnodup
    rw [isEqual, beq_self_eq_true, Bool.true_and, isEqualFields_iff]
    intro p hp
    rw [(find_eq_some hnodup).mpr hp]
    exact isEqualAt_self fs hfields p hp
  | _ => simp [isEqual]

theorem isEqualElements_self (xs : List Json) (h : Json.distinctElements xs = true) :
    isEqualElements xs xs = true := by
  cases xs with
  | nil => rfl
  | cons x xs =>
    obtain ⟨hx, hxs⟩ := (Bool.and_eq_true _ _).mp h
    rw [isEqualElements, isEqual_self x hx, isEqualElements_self xs hxs]
    rfl

theorem isEqualAt_self (fs : List (JsString × Option Json)) (h : Json.distinctFields fs = true) :
    ∀ p ∈ fs, isEqualAt p.2 p.2 = true := by
  cases fs with
  | nil => exact List.forall_mem_nil _
  | cons p fs =>
    obtain ⟨key, _ | v⟩ := p
    · exact List.forall_mem_cons.mpr ⟨rfl, isEqualAt_self fs h⟩
    · obtain ⟨hv, hfs⟩ := (Bool.and_eq_true _ _).mp h
      exact List.forall_mem_cons.mpr ⟨isEqual_self v hv, isEqualAt_self fs hfs⟩
end

end IsEqual

section Equivalence

variable {fs gs hs : List (JsString × Option Json)}

theorem isEqualFields_found (h : isEqualFields fs gs = true) {p : JsString × Option Json}
    (hp : p ∈ fs) : ∃ w, find p.1 gs = some w ∧ isEqualAt p.2 w = true :=
  (Option.any_eq_true _ _).mp (isEqualFields_iff.mp h p hp)

-- no key of the second is left over
theorem isEqualFields_mem (hfs : (keys fs).Nodup) (hlength : fs.length = gs.length)
    (h : isEqualFields fs gs = true) {q : JsString × Option Json} (hq : q ∈ gs) :
    ∃ p ∈ fs, p.1 = q.1 := by
  have hsubset : keys fs ⊆ keys gs := by
    intro key hkey
    obtain ⟨p, hp, rfl⟩ := List.mem_map.mp hkey
    obtain ⟨w, hfound, -⟩ := isEqualFields_found h hp
    exact List.mem_map.mpr ⟨(p.1, w), mem_of_find hfound, rfl⟩
  have hle : (keys gs).length ≤ (keys fs).length := by
    rw [keys, keys, List.length_map, List.length_map, hlength]
  have hperm := (List.subperm_of_subset hfs hsubset).perm_of_length_le hle
  exact List.mem_map.mp (hperm.symm.subset (List.mem_map_of_mem hq))

mutual
theorem isEqual_symm (x y : Json) (hx : x.distinctKeys = true) (hy : y.distinctKeys = true)
    (h : isEqual x y = true) : isEqual y x = true := by
  cases x with
  | arr xs =>
    cases y with
    | arr ys => exact isEqualElements_symm xs ys hx hy h
    | _ => simp [isEqual] at h
  | obj fs =>
    cases y with
    | obj gs =>
      obtain ⟨hfs, hfields⟩ := (Bool.and_eq_true _ _).mp hx
      obtain ⟨hgs, hfieldsY⟩ := (Bool.and_eq_true _ _).mp hy
      obtain ⟨hlength, hall⟩ := (Bool.and_eq_true _ _).mp h
      refine (Bool.and_eq_true _ _).mpr ⟨beq_iff_eq.mpr (beq_iff_eq.mp hlength).symm, ?_⟩
      refine isEqualFields_iff.mpr fun q hq => ?_
      obtain ⟨p, hp, hkey⟩ := isEqualFields_mem (of_decide_eq_true hfs) (beq_iff_eq.mp hlength) hall hq
      obtain ⟨w, hfound, hsame⟩ := isEqualFields_found hall hp
      rw [hkey, (find_eq_some (of_decide_eq_true hgs)).mpr hq] at hfound
      obtain rfl := Option.some.inj hfound
      rw [← hkey, (find_eq_some (of_decide_eq_true hfs)).mpr hp]
      refine isEqualAt_symm fs hfields p hp q.2 (fun v hv => ?_) hsame
      exact distinctFields_iff.mp hfieldsY q.1 v (hv ▸ hq)
    | _ => simp [isEqual] at h
  | _ => cases y <;> simp_all [isEqual]

theorem isEqualElements_symm (xs ys : List Json) (hx : Json.distinctElements xs = true)
    (hy : Json.distinctElements ys = true) (h : isEqualElements xs ys = true) :
    isEqualElements ys xs = true := by
  cases xs with
  | nil => cases ys <;> simp_all [isEqualElements]
  | cons x xs =>
    cases ys with
    | nil => simp [isEqualElements] at h
    | cons y ys =>
      obtain ⟨hx, hxs⟩ := (Bool.and_eq_true _ _).mp hx
      obtain ⟨hy, hys⟩ := (Bool.and_eq_true _ _).mp hy
      obtain ⟨hhead, htail⟩ := (Bool.and_eq_true _ _).mp h
      exact (Bool.and_eq_true _ _).mpr
        ⟨isEqual_symm x y hx hy hhead, isEqualElements_symm xs ys hxs hys htail⟩

theorem isEqualAt_symm (fs : List (JsString × Option Json)) (h : Json.distinctFields fs = true) :
    ∀ p ∈ fs, ∀ w, (∀ v, w = some v → v.distinctKeys = true) → isEqualAt p.2 w = true →
      isEqualAt w p.2 = true := by
  cases fs with
  | nil => exact List.forall_mem_nil _
  | cons p fs =>
    obtain ⟨key, _ | v⟩ := p
    · refine List.forall_mem_cons.mpr ⟨fun w _ hw => ?_, isEqualAt_symm fs h⟩
      cases w with
      | none => rfl
      | some w => cases hw
    · obtain ⟨hv, hfs⟩ := (Bool.and_eq_true _ _).mp h
      refine List.forall_mem_cons.mpr ⟨fun w hdistinct hw => ?_, isEqualAt_symm fs hfs⟩
      cases w with
      | none => cases hw
      | some w => exact isEqual_symm v w hv (hdistinct w rfl) hw
end

mutual
theorem isEqual_trans (x y z : Json) (h : isEqual x y = true) (h' : isEqual y z = true) :
    isEqual x z = true := by
  cases x with
  | arr xs =>
    cases y with
    | arr ys =>
      cases z with
      | arr zs => exact isEqualElements_trans xs ys zs h h'
      | _ => simp [isEqual] at h'
    | _ => simp [isEqual] at h
  | obj fs =>
    cases y with
    | obj gs =>
      cases z with
      | obj hs =>
        obtain ⟨hlength, hall⟩ := (Bool.and_eq_true _ _).mp h
        obtain ⟨hlength', hall'⟩ := (Bool.and_eq_true _ _).mp h'
        rw [beq_iff_eq] at hlength hlength'
        refine (Bool.and_eq_true _ _).mpr ⟨beq_iff_eq.mpr (hlength.trans hlength'), ?_⟩
        refine isEqualFields_iff.mpr fun p hp => ?_
        obtain ⟨w, hfound, hsame⟩ := isEqualFields_found hall hp
        obtain ⟨u, hfound', hsame'⟩ := isEqualFields_found hall' (mem_of_find hfound)
        rw [hfound']
        exact isEqualAt_trans fs p hp w u hsame hsame'
      | _ => simp [isEqual] at h'
    | _ => simp [isEqual] at h
  | null =>
    cases y with
    | null => exact h'
    | _ => simp [isEqual] at h
  | bool a =>
    cases y with
    | bool b =>
      obtain rfl := beq_iff_eq.mp h
      exact h'
    | _ => simp [isEqual] at h
  | num p =>
    cases y with
    | num q =>
      obtain rfl := of_decide_eq_true h
      exact h'
    | _ => simp [isEqual] at h
  | str s =>
    cases y with
    | str t =>
      obtain rfl := beq_iff_eq.mp h
      exact h'
    | _ => simp [isEqual] at h

theorem isEqualElements_trans (xs ys zs : List Json) (h : isEqualElements xs ys = true)
    (h' : isEqualElements ys zs = true) : isEqualElements xs zs = true := by
  cases xs with
  | nil => cases ys <;> simp_all [isEqualElements]
  | cons x xs =>
    cases ys with
    | nil => simp [isEqualElements] at h
    | cons y ys =>
      cases zs with
      | nil => simp [isEqualElements] at h'
      | cons z zs =>
        obtain ⟨hhead, htail⟩ := (Bool.and_eq_true _ _).mp h
        obtain ⟨hhead', htail'⟩ := (Bool.and_eq_true _ _).mp h'
        exact (Bool.and_eq_true _ _).mpr
          ⟨isEqual_trans x y z hhead hhead', isEqualElements_trans xs ys zs htail htail'⟩

theorem isEqualAt_trans (fs : List (JsString × Option Json)) :
    ∀ p ∈ fs, ∀ w u, isEqualAt p.2 w = true → isEqualAt w u = true → isEqualAt p.2 u = true := by
  cases fs with
  | nil => exact List.forall_mem_nil _
  | cons p fs =>
    refine List.forall_mem_cons.mpr ⟨fun w u hw hu => ?_, isEqualAt_trans fs⟩
    obtain ⟨key, _ | v⟩ := p
    · cases w with
      | none => exact hu
      | some w => cases hw
    · cases w with
      | none => cases hw
      | some w =>
        cases u with
        | none => cases hu
        | some u => exact isEqual_trans v w u hw hu
end

end Equivalence

section Columns

variable {a b : Option Value}

-- the comparison of two json columns
def sameColumn (a b : Option Value) : Bool := isEqualAt (a.map (·.json)) (b.map (·.json))

theorem sameColumn_self (a : Option Value) : sameColumn a a = true := by
  cases a with
  | none => rfl
  | some v => exact isEqual_self v.json v.distinct

theorem sameColumn_equivalence : Equivalence fun a b => sameColumn a b = true where
  refl := sameColumn_self
  symm := by
    intro a b h
    cases a with
    | none =>
      cases b with
      | none => rfl
      | some w => cases h
    | some v =>
      cases b with
      | none => cases h
      | some w => exact isEqual_symm v.json w.json v.distinct w.distinct h
  trans := by
    intro a b c h h'
    cases a with
    | none =>
      cases b with
      | none => exact h'
      | some w => cases h
    | some v =>
      cases b with
      | none => cases h
      | some w =>
        cases c with
        | none => cases h'
        | some u => exact isEqual_trans v.json w.json u.json h h'

end Columns

end Iasql.AwsDiff
