import Iasql.Calculus.Views
import Iasql.History
import Mathlib.Logic.Equiv.Basic

namespace Iasql

open Views

-- the columns that hold the values of an auto-generated column, its own table's or another's
structure Links (pg : Postgres) where
  kind : String → String → Option (String × String)
  generated : ∀ t c, pg.isGenerated t c = true → kind t c = some (t, c)
  source : ∀ t c k, kind t c = some k → pg.isGenerated k.1 k.2 = true

structure Renaming where
  perm : String × String → Equiv.Perm JsVal
  null : ∀ k, perm k .null = .null
  truthy : ∀ k v, (perm k v).truthy = v.truthy

theorem ne_null_of_truthy {v : JsVal} (h : v.truthy = true) : v ≠ .null := by
  rintro rfl
  cases h

namespace Renaming

def same : Renaming where
  perm _ := Equiv.refl JsVal
  null _ := rfl
  truthy _ _ := rfl

variable (ρ : Renaming)

def value : Option (String × String) → JsVal → JsVal
  | none, v => v
  | some k, v => ρ.perm k v

variable {ρ} {k : Option (String × String)} {v w : JsVal}

@[simp] theorem value_null : ρ.value k .null = .null := by
  cases k with
  | none => rfl
  | some k => exact ρ.null k

@[simp] theorem value_truthy : (ρ.value k v).truthy = v.truthy := by
  cases k with
  | none => rfl
  | some k => exact ρ.truthy k v

@[simp] theorem value_inj : ρ.value k v = ρ.value k w ↔ v = w := by
  cases k with
  | none => exact Iff.rfl
  | some k => exact (ρ.perm k).injective.eq_iff

@[simp] theorem value_eq_null : ρ.value k v = .null ↔ v = .null := by
  have hinj : ρ.value k v = ρ.value k .null ↔ v = .null := value_inj
  rwa [value_null] at hinj

-- the new values take the place of the old ones in the kinds that are issued
def issue (ρ : Renaming) (on : String × String → Prop) [DecidablePred on]
    (old new : String × String → JsVal) (hold : ∀ k, on k → (old k).truthy = true)
    (hnew : ∀ k, on k → (new k).truthy = true) : Renaming where
  perm k := if on k then (ρ.perm k).trans (Equiv.swap (ρ.perm k (old k)) (new k)) else ρ.perm k
  null k := by
    split
    · next hk =>
      have hne : JsVal.null ≠ ρ.perm k (old k) := by
        intro heq
        have htruthy := hold k hk
        rw [← ρ.truthy k, ← heq] at htruthy
        cases htruthy
      have hne' : JsVal.null ≠ new k := (ne_null_of_truthy (hnew k hk)).symm
      rw [Equiv.trans_apply, ρ.null, Equiv.swap_apply_of_ne_of_ne hne hne']
    · exact ρ.null k
  truthy k v := by
    split
    · next hk =>
      rw [Equiv.trans_apply, Equiv.swap_apply_def]
      split
      · next heq => rw [hnew k hk, ← ρ.truthy k v, heq, ρ.truthy, hold k hk]
      · split
        · next heq => rw [ρ.truthy, hold k hk, ← ρ.truthy k v, heq, hnew k hk]
        · exact ρ.truthy k v
    · exact ρ.truthy k v

section Issue

variable {on : String × String → Prop} [DecidablePred on] {old new : String × String → JsVal}
variable {hold : ∀ k, on k → (old k).truthy = true} {hnew : ∀ k, on k → (new k).truthy = true}
variable {j : String × String}

theorem issue_of_ne (h : on j → v ≠ old j ∧ ρ.perm j v ≠ new j) :
    (ρ.issue on old new hold hnew).perm j v = ρ.perm j v := by
  by_cases hj : on j
  · obtain ⟨hne, hne'⟩ := h hj
    have hold' : ρ.perm j v ≠ ρ.perm j (old j) := fun heq => hne ((ρ.perm j).injective heq)
    simp [issue, hj, Equiv.swap_apply_of_ne_of_ne hold' hne']
  · simp [issue, hj]

end Issue

end Renaming

section Rows

variable {pg : Postgres} (links : Links pg) (ρ : Renaming)

def renamedRow (t : String) (r : Row) : Row := fun c => ρ.value (links.kind t c) (r c)

-- the same rows, once the auto-generated values of d are renamed
def Renamed (e d : Db) : Prop := ∀ t, Agree id (renamedRow links ρ t) (e t) (d t)

def InUse (d : Db) (k : String × String) (v : JsVal) : Prop :=
  ∃ t c x, links.kind t c = some k ∧ x ∈ d t ∧ x c = v

variable {links ρ} {cat : Catalog} {t c : String} {r r' x : Row} {e d : Db}

theorem Renamed.inUse {k : String × String} {v : JsVal} (h : Renamed links ρ e d)
    (hv : InUse links d k v) : InUse links e k (ρ.perm k v) := by
  obtain ⟨t, c, x, hk, hx, rfl⟩ := hv
  refine ⟨t, c, renamedRow links ρ t x, hk, ?_, ?_⟩
  · have hmem := (h t).mem_iff.mpr (List.mem_map_of_mem hx)
    simpa using hmem
  · simp [renamedRow, hk, Renaming.value]

theorem keeps_renamed : keeps pg cat t (renamedRow links ρ t r) c = keeps pg cat t r c := by
  have hnull : (renamedRow links ρ t r c != .null) = (r c != .null) := by
    rw [Bool.eq_iff_iff]
    simp [renamedRow]
  have hauto : isAutogenerated cat t c (renamedRow links ρ t r c) = isAutogenerated cat t c (r c) := by
    simp [isAutogenerated, renamedRow]
  simp [keeps, hnull, hauto]

theorem carries_renamed : carries pg cat t (renamedRow links ρ t r) (renamedRow links ρ t x) =
    carries pg cat t r x := by
  rw [Bool.eq_iff_iff, carries_iff, carries_iff]
  simp [keeps_renamed, renamedRow]

theorem overlay_renamed : overlay pg cat t (renamedRow links ρ t r) (renamedRow links ρ t x) =
    renamedRow links ρ t (overlay pg cat t r x) := by
  funext c
  simp only [overlay, keeps_renamed, renamedRow]
  split <;> rfl

theorem updatedRow_renamed :
    updatedRow pg cat t (renamedRow links ρ t r) (renamedRow links ρ t r') (renamedRow links ρ t x) =
      renamedRow links ρ t (updatedRow pg cat t r r' x) := by
  unfold updatedRow
  rw [carries_renamed]
  split
  · exact overlay_renamed
  · rfl

variable (links ρ) in
theorem entries_renamed {es : List AugmentedValue} (h : Entries pg cat t r es) :
    Entries pg cat t (renamedRow links ρ t r) es where
  keys c := (h.keys c).trans (by rw [keeps_renamed])
  notNull := h.notNull
  compares := h.compares

theorem Renamed.update {rows rows' : List Row} (h : Renamed links ρ e d)
    (ht : Agree id (renamedRow links ρ t) rows rows') :
    Renamed links ρ (Function.update e t rows) (Function.update d t rows') := by
  intro t'
  by_cases heq : t' = t
  · subst heq
    simpa using ht
  · rw [Function.update_of_ne heq, Function.update_of_ne heq]
    exact h t'

theorem Renamed.deleteRows (h : Renamed links ρ e d) :
    Renamed links ρ (deleteRows pg cat t (renamedRow links ρ t r) e) (deleteRows pg cat t r d) :=
  h.update ((h t).filter (fun x => !carries pg cat t (renamedRow links ρ t r) x) (fun _ => rfl)
    fun x => by rw [carries_renamed])

theorem Renamed.updateRows (h : Renamed links ρ e d) :
    Renamed links ρ (updateRows pg cat t (renamedRow links ρ t r) (renamedRow links ρ t r') e)
      (updateRows pg cat t r r' d) :=
  h.update ((h t).map (updatedRow pg cat t (renamedRow links ρ t r) (renamedRow links ρ t r'))
    (fun _ => rfl) fun x => by rw [updatedRow_renamed])

end Rows

section Literals

variable {pg : Postgres} (links : Links pg)

-- every literal of an auto-generated value is a sub-query on the column it comes from
mutual
def Linked (t c : String) : Literal → Prop
  | .subQuery column table conds =>
    links.kind t c = links.kind table column ∧ LinkedConds table conds
  | .quoted v => links.kind t c = none ∨ v = .null
  | .stringified _ => links.kind t c = none
  | .array _ _ => links.kind t c = none
  | .jsonb _ => links.kind t c = none
  | .jsonbOnly _ => links.kind t c = none
  | .relationNotFound => links.kind t c = none
  | .blank => links.kind t c = none

def LinkedConds (t : String) : List (String × Comparison × Literal) → Prop
  | [] => True
  | (c, _, l) :: cs => Linked t c l ∧ LinkedConds t cs
end

variable {links} {ρ : Renaming} {e d : Db} {t : String}

def renamedConds (links : Links pg) (ρ : Renaming) (t : String)
    (cs : List (String × Comparison × JsVal)) : List (String × Comparison × JsVal) :=
  cs.map fun (c, op, v) => (c, op, ρ.value (links.kind t c) v)

theorem matchesAll_renamed (cs : List (String × Comparison × JsVal)) (x : Row) :
    Postgres.matchesAll (renamedConds links ρ t cs) (renamedRow links ρ t x) =
      Postgres.matchesAll cs x := by
  induction cs with
  | nil => rfl
  | cons cond cs ih =>
    obtain ⟨c, op, v⟩ := cond
    have hnull : (renamedRow links ρ t x c == .null) = (x c == .null) := by
      rw [Bool.eq_iff_iff]
      simp [renamedRow]
    have hequal : (renamedRow links ρ t x c == ρ.value (links.kind t c) v) = (x c == v) := by
      rw [Bool.eq_iff_iff]
      simp [renamedRow]
    have hcons : ∀ (c : String) (op : Comparison) (v : JsVal) (cs) (y : Row),
        Postgres.matchesAll ((c, op, v) :: cs) y =
          (Postgres.matchesAll [(c, op, v)] y && Postgres.matchesAll cs y) := by
      simp [Postgres.matchesAll]
    rw [renamedConds, List.map_cons, ← renamedConds, hcons, hcons c op v, ih]
    cases op <;> simp [Postgres.matchesAll, hnull, hequal, bne]

theorem scalar_renamed {rowsE rowsD : List Row} {c : String} {v : JsVal}
    (h : Agree id (renamedRow links ρ t) rowsE rowsD) (hv : Postgres.scalar c rowsD = some v) :
    Postgres.scalar c rowsE = some (ρ.value (links.kind t c) v) := by
  rw [Agree, List.map_id] at h
  rcases rowsD with _ | ⟨x, _ | ⟨y, rows⟩⟩
  · cases hv
    rw [List.Perm.eq_nil h]
    simp [Postgres.scalar]
  · cases hv
    rw [List.perm_singleton.mp h]
    rfl
  · cases hv

mutual
theorem evalLiteral_renamed (h : Renamed links ρ e d) : ∀ (l : Literal) {t c : String} {v : JsVal},
    Linked links t c l → pg.evalLiteral d t c l = some v →
      pg.evalLiteral e t c l = some (ρ.value (links.kind t c) v)
  | .subQuery column table conds, t, c, v, hl, hv => by
    simp only [Linked] at hl
    obtain ⟨hkind, hconds⟩ := hl
    simp only [Postgres.evalLiteral] at hv ⊢
    cases hd : pg.evalConds d table conds with
    | none => simp [hd] at hv
    | some vs =>
      have he := evalConds_renamed h conds hconds hd
      cases vs with
      | nil => simp [hd] at hv
      | cons cond vs =>
        simp only [hd] at hv
        rw [he, hkind]
        simp only [renamedConds, List.map_cons]
        refine scalar_renamed ((h table).filter _ (fun _ => rfl) fun x => ?_) hv
        exact matchesAll_renamed (cond :: vs) x
  | .quoted w, t, c, v, hl, hv => by
    simp only [Linked] at hl
    rcases hl with hl | rfl
    · rw [hl]
      exact hv
    · simp only [Postgres.evalLiteral, pg.input_null, Option.some.injEq] at hv ⊢
      rw [← hv, Renaming.value_null]
  | .stringified _, t, c, v, hl, hv => by
    simp only [Linked] at hl
    rw [hl]
    exact hv
  | .array _ _, t, c, v, hl, hv => by
    simp only [Linked] at hl
    rw [hl]
    exact hv
  | .jsonb _, t, c, v, hl, hv => by
    simp only [Linked] at hl
    rw [hl]
    exact hv
  | .jsonbOnly _, t, c, v, hl, hv => by
    simp only [Linked] at hl
    rw [hl]
    exact hv
  | .relationNotFound, t, c, v, hl, hv => by
    simp only [Linked] at hl
    rw [hl]
    exact hv
  | .blank, t, c, v, hl, hv => by
    simp only [Linked] at hl
    rw [hl]
    exact hv

theorem evalConds_renamed (h : Renamed links ρ e d) :
    ∀ (cs : List (String × Comparison × Literal)) {t : String}
      {vs : List (String × Comparison × JsVal)}, LinkedConds links t cs →
        pg.evalConds d t cs = some vs → pg.evalConds e t cs = some (renamedConds links ρ t vs)
  | [], t, vs, _, hv => by
    simp only [Postgres.evalConds, Option.some.injEq] at hv ⊢
    rw [← hv]
    rfl
  | (c, op, l) :: cs, t, vs, hl, hv => by
    simp only [LinkedConds] at hl
    simp only [Postgres.evalConds] at hv ⊢
    cases hhead : pg.evalLiteral d t c l with
    | none => simp [hhead] at hv
    | some v =>
      cases htail : pg.evalConds d t cs with
      | none => simp [hhead, htail] at hv
      | some ws =>
        rw [evalLiteral_renamed h l hl.1 hhead, evalConds_renamed h cs hl.2 htail]
        simp only [hhead, htail, Option.some.injEq] at hv
        rw [← hv]
        rfl
end

end Literals

section Insert

variable {pg : Postgres} {links : Links pg} {ρ : Renaming} {cat : Catalog} {t : String} {r : Row}
variable {e d : Db}

theorem Renamed.congr {ρ' : Renaming} (h : Renamed links ρ e d)
    (hsame : ∀ k v, InUse links d k v → ρ'.perm k v = ρ.perm k v) : Renamed links ρ' e d := by
  intro t
  refine (h t).congr (List.map_congr_left fun x hx => ?_)
  funext c
  simp only [renamedRow]
  cases hk : links.kind t c with
  | none => rfl
  | some k => exact (hsame k (x c) ⟨t, c, x, hk, hx, rfl⟩).symm

theorem Renamed.issue (h : Renamed links ρ e d)
    (hold : ∀ c, pg.isGenerated t c = true →
      (r c).truthy = true ∧ ¬ InUse links d (t, c) (r c))
    (hnew : ∀ c, pg.isGenerated t c = true →
      (pg.fresh e t c).truthy = true ∧ ¬ InUse links e (t, c) (pg.fresh e t c)) :
    ∃ ρ' : Renaming, (∀ k v, InUse links d k v → ρ'.perm k v = ρ.perm k v) ∧
      ∀ c, pg.isGenerated t c = true → ρ'.perm (t, c) (r c) = pg.fresh e t c := by
  have hold' : ∀ k : String × String, k.1 = t ∧ pg.isGenerated t k.2 = true →
      (r k.2).truthy = true := fun k hk => (hold k.2 hk.2).1
  have hnew' : ∀ k : String × String, k.1 = t ∧ pg.isGenerated t k.2 = true →
      (pg.fresh e t k.2).truthy = true := fun k hk => (hnew k.2 hk.2).1
  refine ⟨ρ.issue _ (fun k => r k.2) (fun k => pg.fresh e t k.2) hold' hnew', ?_, ?_⟩
  · intro k v hv
    refine Renaming.issue_of_ne fun ⟨hk, hgen⟩ => ⟨?_, ?_⟩
    · rintro rfl
      subst hk
      exact (hold k.2 hgen).2 hv
    · intro heq
      subst hk
      exact (hnew k.2 hgen).2 (heq ▸ h.inUse hv)
  · intro c hgen
    simp [Renaming.issue, hgen]

theorem Renamed.insertRow (h : Renamed links ρ e d)
    (hkept : ∀ c, keeps pg cat t r c = true →
      pg.isGenerated t c = false ∧ ∀ k, links.kind t c = some k → InUse links d k (r c))
    (hold : ∀ c, pg.isGenerated t c = true →
      (r c).truthy = true ∧ ¬ InUse links d (t, c) (r c))
    (hnew : ∀ c, pg.isGenerated t c = true →
      (pg.fresh e t c).truthy = true ∧ ¬ InUse links e (t, c) (pg.fresh e t c))
    (hdefault : ∀ c, keeps pg cat t r c = false → pg.isGenerated t c = false →
      pg.defaultOf d t c = r c ∧ (links.kind t c = none ∨ r c = .null)) :
    ∃ ρ', Renamed links ρ' (insertRow pg cat t (renamedRow links ρ t r) e)
      (Function.update d t (d t ++ [r])) := by
  obtain ⟨ρ', hsame, hissue⟩ := h.issue hold hnew
  refine ⟨ρ', (h.congr hsame).update (((h.congr hsame) t).append ?_)⟩
  have hrow : overlay pg cat t (renamedRow links ρ t r) (pg.defaultOf e t) =
      renamedRow links ρ' t r := by
    funext c
    cases hkeeps : keeps pg cat t r c with
    | true =>
      rw [overlay_of_keeps (by rw [keeps_renamed, hkeeps])]
      simp only [renamedRow]
      cases hk : links.kind t c with
      | none => rfl
      | some k => exact (hsame k (r c) ((hkept c hkeeps).2 k hk)).symm
    | false =>
      rw [overlay_of_not_keeps (by rw [keeps_renamed, hkeeps])]
      cases hgen : pg.isGenerated t c with
      | true =>
        rw [Postgres.defaultOf_generated e hgen, renamedRow, links.generated t c hgen]
        exact (hissue c hgen).symm
      | false =>
        obtain ⟨hr, hplain⟩ := hdefault c hkeeps hgen
        rw [Postgres.defaultOf_eq e d hgen, hr, renamedRow]
        rcases hplain with hnone | hnull
        · rw [hnone]
          rfl
        · rw [hnull, Renaming.value_null]
  simp [Agree, hrow]

end Insert

end Iasql
