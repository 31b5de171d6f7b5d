import Iasql.AwsDiff

namespace Iasql.AwsDiff

open OrderedMap Json

section Meaning

-- what a value means once undefined fields, the order of string arrays and the array around a
-- single string are forgotten
inductive Meaning where
  | null
  | bool (b : Bool)
  | num (q : ℚ)
  | strings (ss : Multiset JsString)
  | array (xs : List Meaning)
  | object (fields : JsString → Option Meaning)

def Meaning.single (s : JsString) : Meaning := .strings {s}

open Classical in
noncomputable def Meaning.ofList (xs : List Meaning) : Meaning :=
  if h : ∃ ss : List JsString, xs = ss.map single then .strings (h.choose : Multiset JsString)
  else .array xs

mutual
noncomputable def meaning : Json → Meaning
  | .null => .null
  | .bool b => .bool b
  | .num q => .num q
  | .str s => .single s
  | .arr xs => .ofList (meanings xs)
  | .obj fields => .object (fieldMeanings fields)

noncomputable def meanings : List Json → List Meaning
  | [] => []
  | x :: xs => meaning x :: meanings xs

noncomputable def fieldMeanings : List (JsString × Option Json) → JsString → Option Meaning
  | [], _ => none
  | (key, none) :: fields, k => if k = key then none else fieldMeanings fields k
  | (key, some v) :: fields, k => if k = key then some (meaning v) else fieldMeanings fields k
end

def Same (x y : Json) : Prop := meaning x = meaning y

theorem single_injective : Function.Injective Meaning.single := by
  intro s t h
  exact Multiset.singleton_inj.mp (Meaning.strings.inj h)

theorem ofList_strings (ss : List JsString) :
    Meaning.ofList (ss.map .single) = .strings (ss : Multiset JsString) := by
  have h : ∃ ts : List JsString, ss.map Meaning.single = ts.map .single := ⟨ss, rfl⟩
  have hchosen : ss = h.choose := List.map_injective_iff.mpr single_injective h.choose_spec
  rw [Meaning.ofList, dif_pos h, ← hchosen]

theorem meanings_eq (xs : List Json) : meanings xs = xs.map meaning := by
  induction xs with
  | nil => rfl
  | cons x xs ih => rw [meanings, ih, List.map_cons]

theorem meaning_stringArray (ss : List JsString) :
    meaning (.arr (ss.map .str)) = .strings (ss : Multiset JsString) := by
  have hsingle : (ss.map Json.str).map meaning = ss.map Meaning.single := by
    rw [List.map_map]
    exact List.map_congr_left fun s _ => rfl
  rw [meaning, meanings_eq, hsingle, ofList_strings]

theorem eq_map_of_isStringArray {xs : List Json} (h : isStringArray (.arr xs) = true) :
    xs = (strings xs).map .str := by
  induction xs with
  | nil => rfl
  | cons x xs ih =>
    obtain ⟨hx, hxs⟩ := Bool.and_eq_true_iff.mp h
    cases x with
    | str s => exact congrArg (Json.str s :: ·) (ih hxs)
    | _ => cases hx

end Meaning

section Keys

mutual
def Json.distinctKeys : Json → Bool
  | .arr xs => distinctElements xs
  | .obj fields => decide (keys fields).Nodup && distinctFields fields
  | _ => true

def Json.distinctElements : List Json → Bool
  | [] => true
  | x :: xs => x.distinctKeys && distinctElements xs

def Json.distinctFields : List (JsString × Option Json) → Bool
  | [] => true
  | (_, none) :: fields => distinctFields fields
  | (_, some v) :: fields => v.distinctKeys && distinctFields fields
end

-- a value whose objects, at every depth, have each key once
structure Value where
  json : Json
  distinct : json.distinctKeys = true

variable {x y : Json} {xs ys : List Json} {key : JsString} {v w : Json}

theorem indexKey_injective : Function.Injective indexKey := by
  have hback : ∀ i, (indexKey i).map (fun u => Char.ofNat u.val) = Nat.toDigits 10 i := by
    intro i
    have hunit : ∀ c ∈ Nat.toDigits 10 i, c.toNat < 0x10000 := by
      intro c hc
      have hdigit := Nat.isDigit_of_mem_toDigits (by decide) (by decide) hc
      simp only [Char.isDigit, Bool.and_eq_true, decide_eq_true_eq] at hdigit
      have hle : c.toNat ≤ 57 := hdigit.2
      omega
    have hlist : (toString i).toList = Nat.toDigits 10 i := Nat.toList_repr
    rw [indexKey, js, hlist, List.map_flatMap]
    have hsingle : ∀ c ∈ Nat.toDigits 10 i,
        (if c.toNat < 0x10000 then [Fin.ofNat 65536 c.toNat]
          else [Fin.ofNat _ (0xD800 + (c.toNat - 0x10000) / 0x400),
            Fin.ofNat _ (0xDC00 + (c.toNat - 0x10000) % 0x400)]).map
          (fun u => Char.ofNat u.val) = [c] := by
      intro c hc
      rw [if_pos (hunit c hc)]
      simp [Nat.mod_eq_of_lt (hunit c hc)]
    rw [List.flatMap_congr hsingle]
    simp
  intro i j h
  have hdigits : Nat.toDigits 10 i = Nat.toDigits 10 j := by rw [← hback i, ← hback j, h]
  have hvalue := congrArg (fun ds => Nat.ofDigitChars 10 ds 0) hdigits
  simpa only [Nat.ofDigitChars_ten_toDigits] using hvalue

theorem mem_elements {e : JsString × Option Json} :
    e ∈ elements xs 0 ↔ ∃ i v, xs[i]? = some v ∧ e = (indexKey i, some v) := by
  simp only [elements, List.mem_map, Prod.exists, List.mem_zipIdx_iff_getElem?]
  constructor
  · rintro ⟨v, i, hv, rfl⟩
    exact ⟨i, v, hv, rfl⟩
  · rintro ⟨i, v, hv, rfl⟩
    exact ⟨v, i, hv, rfl⟩

theorem nodup_keys_elements : (keys (elements xs 0)).Nodup := by
  have hkeys : keys (elements xs 0) = (List.range' 0 xs.length).map indexKey := by
    rw [← List.zipIdx_map_snd 0 xs, keys, elements, List.map_map, List.map_map]
    rfl
  rw [hkeys]
  exact (List.nodup_range').map indexKey_injective

theorem distinctElements_iff : distinctElements xs = true ↔ ∀ v ∈ xs, v.distinctKeys = true := by
  induction xs with
  | nil => simp [distinctElements]
  | cons x xs ih => rw [distinctElements, Bool.and_eq_true, ih, List.forall_mem_cons]

theorem distinctFields_iff {fields : List (JsString × Option Json)} :
    distinctFields fields = true ↔ ∀ key v, (key, some v) ∈ fields → v.distinctKeys = true := by
  induction fields with
  | nil => simp [distinctFields]
  | cons p fields ih =>
    obtain ⟨k, _ | u⟩ := p
    · rw [distinctFields, ih]
      simp
    · rw [distinctFields, Bool.and_eq_true, ih]
      simp only [List.mem_cons, Prod.mk.injEq, Option.some.injEq]
      constructor
      · rintro ⟨hu, hrest⟩ key v (⟨-, rfl⟩ | hmem)
        · exact hu
        · exact hrest key v hmem
      · exact fun h => ⟨h k u (.inl ⟨rfl, rfl⟩), fun key v hmem => h key v (.inr hmem)⟩

theorem nodup_keys (h : x.distinctKeys = true) : (keys (entries x)).Nodup := by
  cases x with
  | str s => exact nodup_keys_elements
  | arr xs => exact nodup_keys_elements
  | obj fields =>
    rw [distinctKeys, Bool.and_eq_true, decide_eq_true_eq] at h
    exact h.1
  | _ => exact List.nodup_nil

theorem distinct_of_mem (h : x.distinctKeys = true) (hmem : (key, some v) ∈ entries x) :
    v.distinctKeys = true := by
  cases x with
  | str s =>
    obtain ⟨i, u, hu, heq⟩ := mem_elements.mp hmem
    obtain ⟨c, -, rfl⟩ := List.mem_map.mp (List.mem_of_getElem? hu)
    obtain rfl := Option.some.inj (Prod.mk.inj heq).2
    rfl
  | arr xs =>
    obtain ⟨i, u, hu, heq⟩ := mem_elements.mp hmem
    obtain rfl := Option.some.inj (Prod.mk.inj heq).2
    exact distinctElements_iff.mp h v (List.mem_of_getElem? hu)
  | obj fields =>
    rw [distinctKeys, Bool.and_eq_true] at h
    exact distinctFields_iff.mp h.2 key v hmem
  | _ => cases hmem

theorem prop_of_find {u : Option Json} (h : find key (entries x) = some u) : prop x key = u := by
  unfold prop
  rw [h]

theorem prop_of_mem (h : (keys (entries x)).Nodup) {u : Option Json}
    (hmem : (key, u) ∈ entries x) : prop x key = u :=
  prop_of_find ((find_eq_some h).mpr hmem)

theorem distinct_prop (h : x.distinctKeys = true) (hv : prop x key = some v) :
    v.distinctKeys = true := by
  cases hfind : find key (entries x) with
  | some u =>
    rw [prop_of_find hfind] at hv
    subst hv
    exact distinct_of_mem h (mem_of_find hfind)
  | none =>
    unfold prop at hv
    rw [hfind] at hv
    cases x with
    | str s =>
      obtain ⟨-, heq⟩ := Option.ite_none_right_eq_some.mp hv
      obtain rfl := Option.some.inj heq
      rfl
    | arr xs =>
      obtain ⟨-, heq⟩ := Option.ite_none_right_eq_some.mp hv
      obtain rfl := Option.some.inj heq
      rfl
    | _ => cases hv

theorem mem_entries_arr {i : Nat} (h : xs[i]? = some v) :
    (indexKey i, some v) ∈ entries (.arr xs) := mem_elements.mpr ⟨i, v, h, rfl⟩

theorem prop_arr {i : Nat} (h : xs[i]? = some v) : prop (.arr xs) (indexKey i) = some v :=
  prop_of_mem (x := .arr xs) nodup_keys_elements (mem_entries_arr h)

theorem length_elements (xs : List Json) :
    ((elements xs 0).filter fun p => p.2.isSome).length = xs.length := by
  rw [List.filter_eq_self.mpr]
  · rw [elements, List.length_map, List.length_zipIdx]
  · intro e he
    obtain ⟨i, v, -, rfl⟩ := mem_elements.mp he
    rfl

end Keys

section Parts

variable {x y : Json} {fs gs : List (JsString × Option Json)} {xs ys : List Json}

-- two arrays of strings, or a string and the array of a single one
inductive Strings : Json → Json → Prop
  | left (s t : JsString) : Strings (.arr [.str s]) (.str t)
  | right (s t : JsString) : Strings (.str s) (.arr [.str t])
  | both (ss ts : List JsString) : Strings (.arr (ss.map .str)) (.arr (ts.map .str))

-- a missing part counts as the empty object
def PartSame : Option Json → Option Json → Prop
  | none, w => w = none
  | some v, w => if v.isObject then Same v (w.getD (.obj [])) else identical v w = true

def KeysSame (x y : Json) : Prop :=
  definedKeys x = definedKeys y ∧ ∀ e ∈ entries x, PartSame e.2 (prop y e.1)

-- the right one has nothing where the left one has something
def Missing (x y : Json) : Prop := ∃ key v, (key, some v) ∈ entries x ∧ prop y key = none

-- the left one has a string where the right one has an array
def Facing (x y : Json) : Prop :=
  ∃ key s ws, (key, some (.str s)) ∈ entries x ∧ prop y key = some (.arr ws)

-- the two have different things at one place
def Shuffled (x y : Json) : Prop :=
  ∃ key v w, (key, some v) ∈ entries x ∧ prop y key = some w ∧ ¬ Same v w

def Kindred : Json → Json → Prop
  | .obj _, .obj _ | .arr _, .arr _ | .str _, .str _ => True
  -- one element against one code unit
  | .arr [_], .str [_] => True
  | .bool a, .bool b => a = b
  | .num a, .num b => a = b
  | _, _ => False

structure Reads (x y : Json) : Prop where
  noNull : x.isNull = false ∧ y.isNull = false
  kindred : Kindred x y ∨ ¬ KeysSame x y ∧ ¬ Same x y
  present : KeysSame x y → ¬ Missing x y
  aligned : Same x y → ¬ Facing x y ∧ ¬ Shuffled x y

theorem meaning_arr (xs : List Json) :
    (∃ ss : List JsString, meanings xs = ss.map .single ∧
      meaning (.arr xs) = .strings (ss : Multiset JsString)) ∨
      meaning (.arr xs) = .array (meanings xs) := by
  by_cases h : ∃ ss : List JsString, meanings xs = ss.map Meaning.single
  · obtain ⟨ss, hss⟩ := h
    exact .inl ⟨ss, hss, by rw [meaning, hss, ofList_strings]⟩
  · exact .inr (by rw [meaning, Meaning.ofList, dif_neg h])

theorem length_of_same (h : Same (.arr xs) (.arr ys)) : xs.length = ys.length := by
  have hlength : ∀ xs : List Json, (meanings xs).length = xs.length := by
    intro xs
    rw [meanings_eq, List.length_map]
  rw [Same] at h
  rw [← hlength xs, ← hlength ys]
  rcases meaning_arr xs with ⟨ss, hss, hx⟩ | hx <;> rcases meaning_arr ys with ⟨ts, hts, hy⟩ | hy
  · rw [hx, hy] at h
    have hperm := Multiset.coe_eq_coe.mp (Meaning.strings.inj h)
    rw [hss, hts, List.length_map, List.length_map, hperm.length_eq]
  · rw [hx, hy] at h
    cases h
  · rw [hx, hy] at h
    cases h
  · rw [hx, hy] at h
    rw [Meaning.array.inj h]

theorem meanings_of_single {s : JsString} (h : meaning (.arr xs) = .single s) :
    ∃ v, xs = [v] ∧ meaning v = .single s := by
  rcases meaning_arr xs with ⟨ss, hss, hx⟩ | hx <;> rw [hx] at h
  · obtain rfl := Multiset.coe_eq_singleton.mp (Meaning.strings.inj h)
    rw [meanings_eq] at hss
    obtain ⟨v, rfl, hv⟩ := List.map_eq_singleton_iff.mp hss
    exact ⟨v, rfl, hv⟩
  · cases h

theorem meaning_of_partSame {v w : Json} (h : PartSame (some v) (some w)) :
    meaning v = meaning w := by
  rw [PartSame] at h
  split at h
  · exact h
  · cases v <;> cases w <;> simp_all [identical, isObject]

theorem strings_or_array {m : Meaning} (h : meaning (.arr xs) = m) :
    (∃ ss, m = .strings ss) ∨ ∃ ms, m = .array ms := by
  rcases meaning_arr xs with ⟨ss, -, hx⟩ | hx
  · exact .inl ⟨_, h.symm.trans hx⟩
  · exact .inr ⟨_, h.symm.trans hx⟩

theorem partSame_of_meaning {v w : Json} (h : meaning v = meaning w)
    (hfacing : ∀ s ws, v = .str s → w ≠ .arr ws) : PartSame (some v) (some w) := by
  rw [PartSame]
  split
  · exact h
  · next hobject =>
    cases v with
    | null => exact absurd rfl hobject
    | arr xs => exact absurd rfl hobject
    | obj fields => exact absurd rfl hobject
    | bool b =>
      cases w with
      | arr ws => rcases strings_or_array h.symm with ⟨ss, hss⟩ | ⟨ms, hms⟩ <;> contradiction
      | bool b' => simpa [identical] using Meaning.bool.inj h
      | _ => cases h
    | num q =>
      cases w with
      | arr ws => rcases strings_or_array h.symm with ⟨ss, hss⟩ | ⟨ms, hms⟩ <;> contradiction
      | num q' => simpa [identical] using Meaning.num.inj h
      | _ => cases h
    | str s =>
      cases w with
      | arr ws => exact absurd rfl (hfacing s ws rfl)
      | str t => simpa [identical] using single_injective h
      | _ => cases h

theorem not_facing_of_keysSame (h : KeysSame x y) : ¬ Facing x y := by
  rintro ⟨key, s, ws, hmem, hws⟩
  have hpart := h.2 _ hmem
  rw [hws] at hpart
  cases hpart

theorem not_shuffled_of_keysSame (h : KeysSame x y) : ¬ Shuffled x y := by
  rintro ⟨key, v, w, hmem, hw, hnot⟩
  have hpart := h.2 _ hmem
  rw [hw] at hpart
  exact hnot (meaning_of_partSame hpart)

theorem prop_obj (fields : List (JsString × Option Json)) (key : JsString) :
    prop (.obj fields) key = (find key fields).join := by
  have hentries : entries (.obj fields) = fields := rfl
  unfold prop
  rw [hentries]
  cases find key fields <;> rfl

theorem mem_of_prop {key : JsString} {v : Json} (h : prop (.obj fs) key = some v) :
    (key, some v) ∈ fs := by
  rw [prop_obj, Option.join_eq_some_iff] at h
  exact mem_of_find h

theorem fieldMeanings_eq (fields : List (JsString × Option Json)) (key : JsString) :
    fieldMeanings fields key = (prop (.obj fields) key).map meaning := by
  rw [prop_obj]
  induction fields with
  | nil => rfl
  | cons e fields ih =>
    obtain ⟨k, v⟩ := e
    by_cases h : k = key
    · subst h
      cases v <;> simp [fieldMeanings, find]
    · have hne : ¬ key = k := fun heq => h heq.symm
      cases v <;> simp [fieldMeanings, find, h, hne, ih]

theorem same_objects_iff : Same (.obj fs) (.obj gs) ↔
    ∀ key, (prop (.obj fs) key).map meaning = (prop (.obj gs) key).map meaning := by
  simp only [← fieldMeanings_eq]
  constructor
  · exact fun h key => congrFun (Meaning.object.inj h) key
  · exact fun h => congrArg Meaning.object (funext h)

def definedNames (fields : List (JsString × Option Json)) : List JsString :=
  (fields.filter fun p => p.2.isSome).map Prod.fst

theorem mem_definedNames {key : JsString} :
    key ∈ definedNames fs ↔ ∃ v, (key, some v) ∈ fs := by
  simp [definedNames, Option.isSome_iff_exists]

theorem definedKeys_obj (fields : List (JsString × Option Json)) :
    definedKeys (.obj fields) = (definedNames fields).length := (List.length_map _).symm

theorem nodup_definedNames (h : (keys fs).Nodup) : (definedNames fs).Nodup :=
  h.sublist (List.filter_sublist.map _)

theorem same_of_keysSame_obj (hfs : (keys fs).Nodup)
    (hkeys : KeysSame (.obj fs) (.obj gs)) (hpresent : ¬ Missing (.obj fs) (.obj gs)) :
    Same (.obj fs) (.obj gs) := by
  have hsubset : definedNames fs ⊆ definedNames gs := by
    intro key hkey
    obtain ⟨v, hv⟩ := mem_definedNames.mp hkey
    cases hw : prop (.obj gs) key with
    | none => exact absurd ⟨key, v, hv, hw⟩ hpresent
    | some w => exact mem_definedNames.mpr ⟨w, mem_of_prop hw⟩
  have hperm : (definedNames fs).Perm (definedNames gs) := by
    refine (List.subperm_of_subset (nodup_definedNames hfs) hsubset).perm_of_length_le ?_
    rw [← definedKeys_obj, ← definedKeys_obj, hkeys.1]
  refine same_objects_iff.mpr fun key => ?_
  cases hw : prop (.obj gs) key with
  | none =>
    cases hv : prop (.obj fs) key with
    | none => rfl
    | some v => exact absurd ⟨key, v, mem_of_prop hv, hw⟩ hpresent
  | some w =>
    have hmem := hperm.symm.subset (mem_definedNames.mpr ⟨w, mem_of_prop hw⟩)
    obtain ⟨v, hv⟩ := mem_definedNames.mp hmem
    have hpart := hkeys.2 (key, some v) hv
    rw [hw] at hpart
    rw [prop_of_mem (x := .obj fs) hfs hv]
    exact congrArg some (meaning_of_partSame hpart)

theorem prop_of_same_obj (hfs : (keys fs).Nodup) (hsame : Same (.obj fs) (.obj gs))
    {key : JsString} {v : Json} (hv : (key, some v) ∈ fs) :
    ∃ w, prop (.obj gs) key = some w ∧ meaning v = meaning w := by
  have hprop := same_objects_iff.mp hsame key
  rw [prop_of_mem (x := .obj fs) hfs hv] at hprop
  obtain ⟨w, hw, hmeaning⟩ := Option.map_eq_some_iff.mp hprop.symm
  exact ⟨w, hw, hmeaning.symm⟩

theorem keysSame_of_same_obj (hfs : (keys fs).Nodup) (hgs : (keys gs).Nodup)
    (hsame : Same (.obj fs) (.obj gs)) (hfacing : ¬ Facing (.obj fs) (.obj gs)) :
    KeysSame (.obj fs) (.obj gs) := by
  constructor
  · have hperm : (definedNames fs).Perm (definedNames gs) := by
      refine (List.perm_ext_iff_of_nodup (nodup_definedNames hfs)
        (nodup_definedNames hgs)).mpr fun key => ?_
      rw [mem_definedNames, mem_definedNames]
      constructor
      · rintro ⟨v, hv⟩
        obtain ⟨w, hw, -⟩ := prop_of_same_obj hfs hsame hv
        exact ⟨w, mem_of_prop hw⟩
      · rintro ⟨w, hw⟩
        obtain ⟨v, hv, -⟩ := prop_of_same_obj hgs hsame.symm hw
        exact ⟨v, mem_of_prop hv⟩
    rw [definedKeys_obj, definedKeys_obj, hperm.length_eq]
  · rintro ⟨key, v⟩ hmem
    cases v with
    | none =>
      have hprop := same_objects_iff.mp hsame key
      rw [prop_of_mem (x := .obj fs) hfs hmem] at hprop
      exact Option.map_eq_none_iff.mp hprop.symm
    | some v =>
      obtain ⟨w, hw, hmeaning⟩ := prop_of_same_obj hfs hsame hmem
      rw [hw]
      refine partSame_of_meaning hmeaning fun s ws hs hws => hfacing ?_
      exact ⟨key, s, ws, hs ▸ hmem, hws ▸ hw⟩

def units (s : JsString) : List Json := s.map fun c => .str [c]

theorem prop_of_elements (hy : entries y = elements ys 0) {i : Nat} {w : Json}
    (h : ys[i]? = some w) : prop y (indexKey i) = some w := by
  refine prop_of_mem ?_ ?_
  · rw [hy]
    exact nodup_keys_elements
  · rw [hy]
    exact mem_elements.mpr ⟨i, w, h, rfl⟩

theorem definedKeys_of_elements (hx : entries x = elements xs 0) : definedKeys x = xs.length := by
  rw [definedKeys, hx, length_elements]

theorem keysSame_iff_forall₂ (hx : entries x = elements xs 0) (hy : entries y = elements ys 0) :
    KeysSame x y ↔ List.Forall₂ (fun v w => PartSame (some v) (some w)) xs ys := by
  rw [KeysSame, definedKeys_of_elements hx, definedKeys_of_elements hy, List.forall₂_iff_get]
  refine and_congr_right fun hlength => ?_
  constructor
  · intro hparts i hi hi'
    have hmem : (indexKey i, some (xs.get ⟨i, hi⟩)) ∈ entries x := by
      rw [hx]
      exact mem_elements.mpr ⟨i, _, List.getElem?_eq_getElem hi, rfl⟩
    have hpart := hparts _ hmem
    rw [prop_of_elements hy (List.getElem?_eq_getElem hi')] at hpart
    exact hpart
  · intro hparts e he
    rw [hx] at he
    obtain ⟨i, v, hv, rfl⟩ := mem_elements.mp he
    obtain ⟨hi, rfl⟩ := List.getElem?_eq_some_iff.mp hv
    rw [prop_of_elements hy (List.getElem?_eq_getElem (hlength ▸ hi))]
    exact hparts i hi (hlength ▸ hi)

theorem not_missing_of_elements (hx : entries x = elements xs 0) (hy : entries y = elements ys 0)
    (h : KeysSame x y) : ¬ Missing x y := by
  rintro ⟨key, v, hmem, hnone⟩
  rw [hx] at hmem
  obtain ⟨i, u, hu, heq⟩ := mem_elements.mp hmem
  obtain ⟨rfl, -⟩ := Prod.mk.inj heq
  obtain ⟨hi, -⟩ := List.getElem?_eq_some_iff.mp hu
  have hlength := ((keysSame_iff_forall₂ hx hy).mp h).length_eq
  rw [prop_of_elements hy (List.getElem?_eq_getElem (hlength ▸ hi))] at hnone
  cases hnone

theorem same_of_keysSame_arr (h : KeysSame (.arr xs) (.arr ys)) : Same (.arr xs) (.arr ys) := by
  have hmeanings : ∀ {xs ys : List Json},
      List.Forall₂ (fun v w => PartSame (some v) (some w)) xs ys → meanings xs = meanings ys := by
    intro xs ys hparts
    induction hparts with
    | nil => rfl
    | cons hpart _ ih => rw [meanings, meanings, meaning_of_partSame hpart, ih]
  rw [Same, meaning, meaning, hmeanings ((keysSame_iff_forall₂ rfl rfl).mp h)]

theorem keysSame_of_same_arr (hsame : Same (.arr xs) (.arr ys))
    (hfacing : ¬ Facing (.arr xs) (.arr ys)) (hshuffled : ¬ Shuffled (.arr xs) (.arr ys)) :
    KeysSame (.arr xs) (.arr ys) := by
  refine (keysSame_iff_forall₂ rfl rfl).mpr (List.forall₂_iff_get.mpr ?_)
  refine ⟨length_of_same hsame, fun i hi hi' => ?_⟩
  have hmem := mem_entries_arr (List.getElem?_eq_getElem hi)
  have hprop := prop_arr (List.getElem?_eq_getElem hi')
  refine partSame_of_meaning ?_ fun s ws hs hws => hfacing ?_
  · by_contra hnot
    exact hshuffled ⟨_, _, _, hmem, hprop, hnot⟩
  · refine ⟨indexKey i, s, ws, ?_, ?_⟩
    · rw [← hs]
      exact hmem
    · rw [← hws]
      exact hprop

theorem keysSame_str_iff {s t : JsString} : KeysSame (.str s) (.str t) ↔ s = t := by
  have hunits : List.Forall₂ (fun v w => PartSame (some v) (some w)) (units s) (units t) ↔
      s = t := by
    rw [units, units, List.forall₂_map_left_iff, List.forall₂_map_right_iff]
    have hpart : ∀ c d : Fin 65536, PartSame (some (.str [c])) (some (.str [d])) ↔ c = d := by
      intro c d
      simp [PartSame, isObject, identical]
    simp only [hpart]
    exact List.forall₂_eq_eq_eq ▸ Iff.rfl
  exact (keysSame_iff_forall₂ rfl rfl).trans hunits

theorem meaning_singleton {v : Json} {s : JsString} (h : meaning v = .single s) :
    meaning (.arr [v]) = .single s := by
  have hmeanings : meanings [v] = [s].map Meaning.single := by
    rw [meanings, h]
    rfl
  rw [meaning, hmeanings, ofList_strings]
  rfl

theorem keysSame_unit_iff {v : Json} {c : Fin 65536} :
    KeysSame (.arr [v]) (.str [c]) ↔ PartSame (some v) (some (.str [c])) := by
  have hparts : KeysSame (.arr [v]) (.str [c]) ↔ List.Forall₂ _ [v] (units [c]) :=
    keysSame_iff_forall₂ rfl rfl
  rw [hparts]
  simp [units]

theorem same_of_keysSame (hx : x.distinctKeys = true) (hkindred : Kindred x y)
    (hkeys : KeysSame x y) (hpresent : ¬ Missing x y) : Same x y := by
  unfold Kindred at hkindred
  split at hkindred
  · exact same_of_keysSame_obj (nodup_keys hx) hkeys hpresent
  · exact same_of_keysSame_arr hkeys
  · rw [keysSame_str_iff.mp hkeys]
    rfl
  · next v t c =>
    exact meaning_singleton (meaning_of_partSame (keysSame_unit_iff.mp hkeys))
  · rw [hkindred]
    rfl
  · rw [hkindred]
    rfl
  · exact hkindred.elim

theorem isObject_of_single {v : Json} {s : JsString} (h : meaning v = .single s)
    (hv : ∀ t, v ≠ .str t) : v.isObject = true := by
  cases v with
  | arr xs => rfl
  | str t => exact absurd rfl (hv t)
  | _ => cases h

theorem keysSame_of_same (hx : x.distinctKeys = true) (hy : y.distinctKeys = true)
    (hstrings : ¬ Strings x y) (hkindred : Kindred x y) (hsame : Same x y)
    (hfacing : ¬ Facing x y) (hshuffled : ¬ Shuffled x y) : KeysSame x y := by
  unfold Kindred at hkindred
  split at hkindred
  · exact keysSame_of_same_obj (nodup_keys hx) (nodup_keys hy) hsame hfacing
  · exact keysSame_of_same_arr hsame hfacing hshuffled
  · exact keysSame_str_iff.mpr (single_injective hsame)
  · next v c =>
    obtain ⟨u, hu, hmeaning⟩ := meanings_of_single hsame
    obtain rfl := (List.cons.inj hu).1
    have hobject := isObject_of_single hmeaning fun t ht => hstrings (ht ▸ .left t _)
    rw [keysSame_unit_iff, PartSame, if_pos hobject]
    exact hmeaning
  · exact ⟨rfl, fun e he => by cases he⟩
  · exact ⟨rfl, fun e he => by cases he⟩
  · exact hkindred.elim

theorem not_missing_of_same (hx : x.distinctKeys = true) (hkindred : Kindred x y)
    (hkeys : KeysSame x y) (hsame : Same x y) : ¬ Missing x y := by
  unfold Kindred at hkindred
  split at hkindred
  · rintro ⟨key, v, hmem, hnone⟩
    obtain ⟨w, hw, -⟩ := prop_of_same_obj (nodup_keys hx) hsame hmem
    rw [hw] at hnone
    cases hnone
  · exact not_missing_of_elements rfl rfl hkeys
  · exact not_missing_of_elements rfl rfl hkeys
  · exact not_missing_of_elements rfl rfl hkeys
  · rintro ⟨key, v, hmem, -⟩
    cases hmem
  · rintro ⟨key, v, hmem, -⟩
    cases hmem
  · exact hkindred.elim

theorem kindred_of_same (hleft : x.isNull = false) (hstrings : ¬ Strings x y)
    (hkeys : KeysSame x y) (hsame : Same x y) : Kindred x y := by
  cases x with
  | null => cases hleft
  | bool b =>
    cases y with
    | bool b' => exact Meaning.bool.inj hsame
    | arr ys => rcases strings_or_array hsame.symm with ⟨ss, hss⟩ | ⟨ms, hms⟩ <;> contradiction
    | _ => cases hsame
  | num q =>
    cases y with
    | num q' => exact Meaning.num.inj hsame
    | arr ys => rcases strings_or_array hsame.symm with ⟨ss, hss⟩ | ⟨ms, hms⟩ <;> contradiction
    | _ => cases hsame
  | str s =>
    cases y with
    | str t => trivial
    | arr ys =>
      obtain ⟨v, rfl, -⟩ := meanings_of_single hsame.symm
      have hparts : List.Forall₂ _ (units s) [v] := (keysSame_iff_forall₂ rfl rfl).mp hkeys
      rw [units, List.forall₂_map_left_iff] at hparts
      obtain ⟨c, rest, hpart, hrest, rfl⟩ := List.forall₂_cons_right_iff.mp hparts
      obtain rfl := List.forall₂_nil_right_iff.mp hrest
      cases v with
      | str t => exact absurd (.right _ t) hstrings
      | _ => cases hpart
    | _ => cases hsame
  | arr xs =>
    cases y with
    | arr ys => trivial
    | str t =>
      obtain ⟨v, rfl, -⟩ := meanings_of_single hsame
      have hparts : List.Forall₂ _ [v] (units t) := (keysSame_iff_forall₂ rfl rfl).mp hkeys
      have hlength := hparts.length_eq
      rw [units, List.length_map] at hlength
      obtain ⟨c, rfl⟩ := List.length_eq_one_iff.mp hlength.symm
      trivial
    | _ => rcases strings_or_array hsame with ⟨ss, hss⟩ | ⟨ms, hms⟩ <;> contradiction
  | obj fields =>
    cases y with
    | obj gs => trivial
    | arr ys => rcases strings_or_array hsame.symm with ⟨ss, hss⟩ | ⟨ms, hms⟩ <;> contradiction
    | _ => cases hsame

-- what the keys of two values tell is what they mean
theorem reads_iff (hx : x.distinctKeys = true) (hy : y.distinctKeys = true)
    (hnull : x.isNull = false ∧ y.isNull = false) (hstrings : ¬ Strings x y) :
    Reads x y ↔ (KeysSame x y ↔ Same x y) := by
  constructor
  · intro h
    rcases h.kindred with hkindred | ⟨hkeys, hsame⟩
    · constructor
      · exact fun hkeys => same_of_keysSame hx hkindred hkeys (h.present hkeys)
      · intro hsame
        obtain ⟨hfacing, hshuffled⟩ := h.aligned hsame
        exact keysSame_of_same hx hy hstrings hkindred hsame hfacing hshuffled
    · exact iff_of_false hkeys hsame
  · intro h
    have hkindred : KeysSame x y → Same x y → Kindred x y :=
      kindred_of_same hnull.1 hstrings
    refine ⟨hnull, ?_, ?_, ?_⟩
    · by_cases hkeys : KeysSame x y
      · exact .inl (hkindred hkeys (h.mp hkeys))
      · exact .inr ⟨hkeys, fun hsame => hkeys (h.mpr hsame)⟩
    · intro hkeys
      have hsame := h.mp hkeys
      exact not_missing_of_same hx (hkindred hkeys hsame) hkeys hsame
    · intro hsame
      have hkeys := h.mpr hsame
      exact ⟨not_facing_of_keysSame hkeys, not_shuffled_of_keysSame hkeys⟩

end Parts

end Iasql.AwsDiff
