import Mathlib.Data.List.Basic
import Iasql.Calculus.Acyclic
import Iasql.Calculus.Sweeping

namespace Iasql.DeleteAllRecords

open Sweeping

-- the actions of the foreign keys that the modules' migrations declare
inductive OnDelete where
  | noAction | cascade
deriving DecidableEq

structure RowKey where
  table : String
  id : Nat
deriving DecidableEq

structure Row where
  key : RowKey
  refs : List (RowKey × OnDelete)
deriving DecidableEq

abbrev Db := List Row

section Delete

def refers (action : OnDelete) (rows : List Row) (r : Row) : Bool :=
  rows.any fun s => (s.key, action) ∈ r.refs

-- the rows that go with these ones, found among the rest
def cascade : Nat → List Row → Db → List Row
  | 0, gone, _ => gone
  | n + 1, gone, rest =>
    gone ++ cascade n (rest.filter fun r => refers .cascade gone r)
      (rest.filter fun r => !refers .cascade gone r)

def goes (db : Db) (table : String) : List Row :=
  cascade db.length (db.filter fun r => r.key.table = table) (db.filter fun r => r.key.table ≠ table)

-- DELETE FROM: none when the caller may not, or when a row that stays refers to one that goes
def deleteFrom (mayDelete : String → Bool) (table : String) (db : Db) : Option Db :=
  if mayDelete table then
    let gone := goes db table
    let kept := db.filter fun r => r ∉ gone
    if kept.any fun r => refers .noAction gone r then none else some kept
  else none

end Delete

section Loop

structure Progress where
  db : Db
  tablesArray : List String

def tryDelete (mayDelete : String → Bool) (p : Progress) (table : String) : Progress :=
  match deleteFrom mayDelete table p.db with
  | some db => { db, tablesArray := p.tablesArray.filter (· ≠ table) }
  | none => p

def pass (mayDelete : String → Bool) (p : Progress) : Progress :=
  p.tablesArray.foldl (tryDelete mayDelete) p

def loop (mayDelete : String → Bool) : Nat → Progress → Progress
  | 0, p => p
  | n + 1, p => if 0 < p.tablesArray.length then loop mayDelete n (pass mayDelete p) else p

def listed (iasqlTables : List String) : List String :=
  iasqlTables.filter fun t => t ≠ "aws_credentials" ∧ t ≠ "aws_regions"

def deleteAllRecords (iasqlTables : List String) (mayDelete : String → Bool) (db : Db) : Db :=
  (loop mayDelete 20 { db, tablesArray := listed iasqlTables }).db

end Loop

section Deleted

-- the rows that a DELETE on the table takes with it
inductive Goes (db : Db) (table : String) : Row → Prop
  | own {r : Row} : r ∈ db → r.key.table = table → Goes db table r
  | along {r s : Row} : Goes db table s → r ∈ db → (s.key, .cascade) ∈ r.refs → Goes db table r

-- a row that stays and may not outlive what the DELETE takes
def Blocks (db : Db) (table : String) (b : Row) : Prop :=
  b ∈ db ∧ ¬Goes db table b ∧ ∃ r, Goes db table r ∧ (r.key, .noAction) ∈ b.refs

def sweep (db : Db) : Sweep String Row where
  sweeps table := {r | Goes db table r}
  blocks table := {b | Blocks db table b}

variable {db kept : Db} {table : String} {action : OnDelete} {r s : Row} {rows rest gone : List Row}
  {mayDelete : String → Bool}

theorem refers_iff : refers action rows r = true ↔ ∃ s ∈ rows, (s.key, action) ∈ r.refs := by
  simp [refers]

inductive Follows (gone rest : List Row) : Row → Prop
  | given {r : Row} : r ∈ gone → Follows gone rest r
  | along {r s : Row} : Follows gone rest s → r ∈ rest → (s.key, .cascade) ∈ r.refs →
      Follows gone rest r

theorem follows_nil (h : Follows [] rest r) : False := by
  induction h with
  | given hr => cases hr
  | along _ _ _ ih => exact ih

theorem cascade_nil {n : Nat} : cascade n [] rest = [] := by
  induction n generalizing rest with
  | zero => rfl
  | succ n ih =>
    have hnone : (rest.filter fun r => refers .cascade [] r) = [] := by simp [refers]
    rw [cascade, hnone, ih, List.append_nil]

theorem follows_step : Follows gone rest r ↔ r ∈ gone ∨
    Follows (rest.filter fun r => refers .cascade gone r)
      (rest.filter fun r => !refers .cascade gone r) r := by
  constructor
  · intro h
    induction h with
    | given hr => exact .inl hr
    | @along r s hs hr href ih =>
      refine .inr ?_
      by_cases hnow : refers .cascade gone r = true
      · exact .given (List.mem_filter.mpr ⟨hr, hnow⟩)
      · obtain hgone | hlater := ih
        · exact absurd (refers_iff.mpr ⟨s, hgone, href⟩) hnow
        · exact hlater.along (List.mem_filter.mpr ⟨hr, by simpa using hnow⟩) href
  · rintro (hr | h)
    · exact .given hr
    · induction h with
      | given hr =>
        obtain ⟨hrest, hrefers⟩ := List.mem_filter.mp hr
        obtain ⟨s, hs, href⟩ := refers_iff.mp hrefers
        exact .along (.given hs) hrest href
      | along _ hr href ih => exact ih.along (List.mem_filter.mp hr).1 href

theorem mem_cascade {n : Nat} (hn : rest.length ≤ n) :
    r ∈ cascade n gone rest ↔ Follows gone rest r := by
  induction n generalizing gone rest r with
  | zero =>
    obtain rfl : rest = [] := List.length_eq_zero_iff.mp (Nat.le_zero.mp hn)
    constructor
    · exact .given
    · intro h
      cases h with
      | given hr => exact hr
      | along _ hr _ => cases hr
  | succ n ih =>
    rw [cascade, List.mem_append, follows_step]
    refine or_congr_right ?_
    by_cases hnext : (rest.filter fun r => refers .cascade gone r) = []
    · rw [hnext, cascade_nil]
      exact ⟨nofun, fun h => (follows_nil h).elim⟩
    · obtain ⟨s, hs⟩ := List.exists_mem_of_ne_nil _ hnext
      obtain ⟨hrest, hrefers⟩ := List.mem_filter.mp hs
      have hless : (rest.filter fun r => !refers .cascade gone r).length < rest.length :=
        List.length_filter_lt_length_iff_exists.mpr ⟨s, hrest, by simp [hrefers]⟩
      exact ih (by omega)

theorem mem_goes : r ∈ goes db table ↔ Goes db table r := by
  rw [goes, mem_cascade (List.length_filter_le _ _)]
  constructor
  · intro h
    induction h with
    | given hr =>
      obtain ⟨hmem, htable⟩ := List.mem_filter.mp hr
      exact .own hmem (of_decide_eq_true htable)
    | along _ hr href ih => exact ih.along (List.mem_filter.mp hr).1 href
  · intro h
    induction h with
    | own hmem htable => exact .given (List.mem_filter.mpr ⟨hmem, decide_eq_true htable⟩)
    | @along r s _ hmem href ih =>
      by_cases htable : r.key.table = table
      · exact .given (List.mem_filter.mpr ⟨hmem, decide_eq_true htable⟩)
      · exact ih.along (List.mem_filter.mpr ⟨hmem, decide_eq_true htable⟩) href

theorem Goes.mem (h : Goes db table r) : r ∈ db := by
  cases h with
  | own hmem _ => exact hmem
  | along _ hmem _ => exact hmem

theorem deleteFrom_eq_some (hmay : mayDelete table = true) (h : ∀ b, ¬Blocks db table b) :
    deleteFrom mayDelete table db = some (db.filter fun r => r ∉ goes db table) := by
  rw [deleteFrom, if_pos hmay]
  refine if_neg fun hany => ?_
  obtain ⟨b, hb, hrefers⟩ := List.any_eq_true.mp hany
  obtain ⟨hmem, hstays⟩ := List.mem_filter.mp hb
  obtain ⟨s, hs, href⟩ := refers_iff.mp hrefers
  exact h b ⟨hmem, fun hgoes => of_decide_eq_true hstays (mem_goes.mpr hgoes), s, mem_goes.mp hs,
    href⟩

theorem deleteFrom_eq_none (h : mayDelete table = true → ∃ b, Blocks db table b) :
    deleteFrom mayDelete table db = none := by
  unfold deleteFrom
  split
  · next hmay =>
    obtain ⟨b, hmem, hstays, r, hr, href⟩ := h hmay
    refine if_pos (List.any_eq_true.mpr ⟨b, ?_, refers_iff.mpr ⟨r, mem_goes.mpr hr, href⟩⟩)
    exact List.mem_filter.mpr ⟨hmem, decide_eq_true fun hgoes => hstays (mem_goes.mp hgoes)⟩
  · rfl

end Deleted

section Remaining

variable {db₀ db db' : Db} {table : String} {r b : Row} {mayDelete : String → Bool}
  {tables : List String} {p : Progress}

-- what is left of a database in which no row has lost one it refers to
structure Remains (db₀ db : Db) : Prop where
  sub : ∀ r ∈ db, r ∈ db₀
  whole : ∀ r ∈ db, ∀ s ∈ db₀, ∀ action, (s.key, action) ∈ r.refs → s ∈ db

theorem Remains.refl (db : Db) : Remains db db := ⟨fun _ h => h, fun _ _ _ hs _ _ => hs⟩

theorem Remains.goes_iff (h : Remains db₀ db) : Goes db table r ↔ Goes db₀ table r ∧ r ∈ db := by
  constructor
  · intro hgoes
    refine ⟨?_, hgoes.mem⟩
    induction hgoes with
    | own hmem htable => exact .own (h.sub _ hmem) htable
    | along _ hmem href ih => exact ih.along (h.sub _ hmem) href
  · rintro ⟨hgoes, hr⟩
    induction hgoes with
    | own _ htable => exact .own hr htable
    | along hs _ href ih => exact (ih (h.whole _ hr _ hs.mem _ href)).along hr href

theorem Remains.blocks_iff (h : Remains db₀ db) :
    Blocks db table b ↔ Blocks db₀ table b ∧ b ∈ db := by
  constructor
  · rintro ⟨hb, hstays, r, hr, href⟩
    exact ⟨⟨h.sub b hb, fun hgoes => hstays (h.goes_iff.mpr ⟨hgoes, hb⟩), r,
      (h.goes_iff.mp hr).1, href⟩, hb⟩
  · rintro ⟨⟨-, hstays, r, hr, href⟩, hb⟩
    exact ⟨hb, fun hgoes => hstays (h.goes_iff.mp hgoes).1, r,
      h.goes_iff.mpr ⟨hr, h.whole b hb r hr.mem _ href⟩, href⟩

def rowsOf (db : Db) : Set Row := {r | r ∈ db}

theorem Remains.filter (h : Remains db₀ db) (hfree : ∀ b, ¬Blocks db table b) :
    Remains db₀ (db.filter fun r => r ∉ goes db table) := by
  refine ⟨fun r hr => h.sub r (List.mem_filter.mp hr).1, fun r hr s hs action href => ?_⟩
  obtain ⟨hmem, hstays⟩ := List.mem_filter.mp hr
  have hs' : s ∈ db := h.whole r hmem s hs action href
  refine List.mem_filter.mpr ⟨hs', decide_eq_true fun hgone => ?_⟩
  have hgoes : Goes db table s := mem_goes.mp hgone
  have hkeeps : ¬Goes db table r := fun hr => of_decide_eq_true hstays (mem_goes.mpr hr)
  cases action with
  | cascade => exact hkeeps (hgoes.along hmem href)
  | noAction => exact hfree r ⟨hmem, hkeeps, s, hgoes, href⟩

theorem rowsOf_filter (h : Remains db₀ db) (hfree : ∀ b, ¬Blocks db table b) :
    rowsOf (db.filter fun r => r ∉ goes db table) =
      attempt (sweep db₀) (rowsOf db) table := by
  have hnone : ∀ b ∈ rowsOf db, b ∉ (sweep db₀).blocks table :=
    fun b hb hblock => hfree b (h.blocks_iff.mpr ⟨hblock, hb⟩)
  rw [attempt_of_free hnone]
  ext r
  simp only [rowsOf, sweep, Set.mem_ofPred_eq, List.mem_filter, decide_eq_true_eq, mem_goes,
    h.goes_iff]
  exact and_congr_right fun hr => not_congr (and_iff_left hr)

variable (mayDelete)

-- a table off the list has nothing left that its DELETE would take
structure Tracks (db₀ : Db) (tables : List String) (p : Progress) : Prop where
  remains : Remains db₀ p.db
  listing : p.tablesArray = tables.filter fun t => t ∈ p.tablesArray
  emptied : ∀ t ∈ tables, t ∉ p.tablesArray → ∀ r ∈ p.db, ¬Goes db₀ t r

variable {mayDelete}

def allowed (mayDelete : String → Bool) (tables : List String) : List String :=
  tables.filter mayDelete

theorem tryDelete_tracks (mayDelete : String → Bool) (table : String) (h : Tracks db₀ tables p) :
    Tracks db₀ tables (tryDelete mayDelete p table) ∧
      rowsOf (tryDelete mayDelete p table).db =
        attempts (sweep db₀) (rowsOf p.db) (allowed mayDelete [table]) := by
  unfold tryDelete allowed
  cases hmay : mayDelete table with
  | false =>
    rw [deleteFrom_eq_none (by simp [hmay])]
    exact ⟨h, by simp [hmay, attempts]⟩
  | true =>
    by_cases hblocked : ∃ b, Blocks p.db table b
    · rw [deleteFrom_eq_none fun _ => hblocked]
      obtain ⟨b, hb⟩ := hblocked
      obtain ⟨hblock, hmem⟩ := h.remains.blocks_iff.mp hb
      have hsame : attempt (sweep db₀) (rowsOf p.db) table = rowsOf p.db :=
        attempt_of_blocked hmem hblock
      exact ⟨h, by simp [hmay, attempts, hsame]⟩
    · have hfree : ∀ b, ¬Blocks p.db table b := fun b hb => hblocked ⟨b, hb⟩
      rw [deleteFrom_eq_some hmay hfree]
      refine ⟨⟨h.remains.filter hfree, ?_, fun t ht hoff r hr => ?_⟩, ?_⟩
      · have hlisting := h.listing
        show p.tablesArray.filter _ = _
        conv_lhs => rw [hlisting]
        rw [List.filter_filter]
        refine List.filter_congr fun t _ => ?_
        simp [and_comm]
      · obtain ⟨hmem, hstays⟩ := List.mem_filter.mp hr
        by_cases heq : t = table
        · rw [heq]
          exact fun hgoes => of_decide_eq_true hstays
            (mem_goes.mpr (h.remains.goes_iff.mpr ⟨hgoes, hmem⟩))
        · refine h.emptied t ht (fun hon => hoff ?_) r hmem
          exact List.mem_filter.mpr ⟨hon, decide_eq_true heq⟩
      · rw [rowsOf_filter h.remains hfree]
        simp [hmay, attempts]

theorem fold_tracks (mayDelete : String → Bool) {l : List String} (h : Tracks db₀ tables p) :
    Tracks db₀ tables (l.foldl (tryDelete mayDelete) p) ∧
      rowsOf (l.foldl (tryDelete mayDelete) p).db =
        attempts (sweep db₀) (rowsOf p.db) (allowed mayDelete l) := by
  induction l generalizing p with
  | nil => exact ⟨h, rfl⟩
  | cons t l ih =>
    obtain ⟨hstep, hrows⟩ := tryDelete_tracks mayDelete t h
    obtain ⟨hrest, hfinal⟩ := ih hstep
    refine ⟨hrest, ?_⟩
    rw [List.foldl_cons, hfinal, hrows, ← attempts_append]
    unfold allowed
    rw [← List.filter_append, List.singleton_append]

theorem pass_tracks (mayDelete : String → Bool) (h : Tracks db₀ tables p) : Tracks db₀ tables (pass mayDelete p) ∧
    rowsOf (pass mayDelete p).db =
      attempts (sweep db₀) (rowsOf p.db) (allowed mayDelete tables) := by
  obtain ⟨hpass, hrows⟩ := fold_tracks mayDelete (l := p.tablesArray) h
  refine ⟨hpass, hrows.trans ?_⟩
  have hcomm : allowed mayDelete p.tablesArray =
      (allowed mayDelete tables).filter fun t => t ∈ p.tablesArray := by
    unfold allowed
    conv_lhs => rw [h.listing]
    rw [List.filter_filter, List.filter_filter]
    exact List.filter_congr fun t _ => Bool.and_comm _ _
  rw [hcomm]
  refine attempts_filter fun t ht hoff r hr => ?_
  exact h.emptied t (List.mem_filter.mp ht).1 (of_decide_eq_false hoff) r hr

theorem loop_tracks {n : Nat} (h : Tracks db₀ tables p) :
    rowsOf (loop mayDelete n p).db =
      attempts (sweep db₀) (rowsOf p.db) (List.replicate n (allowed mayDelete tables)).flatten := by
  induction n generalizing p with
  | zero => rfl
  | succ n ih =>
    unfold loop
    split
    · obtain ⟨hpass, hrows⟩ := pass_tracks mayDelete h
      rw [ih hpass, hrows, ← attempts_append, List.replicate_succ, List.flatten_cons]
    · next hnone =>
      have hempty : p.tablesArray = [] := List.length_eq_zero_iff.mp (by omega)
      have hgone : ∀ t ∈ tables, ∀ r ∈ p.db, ¬Goes db₀ t r :=
        fun t ht => h.emptied t ht (by simp [hempty])
      refine (attempts_eq_self fun t ht r hr => ?_).symm
      obtain ⟨l, hl, ht⟩ := List.mem_flatten.mp ht
      rw [List.eq_of_mem_replicate hl] at ht
      exact hgone t (List.mem_filter.mp ht).1 r hr

end Remaining

section Emptied

variable {db : Db} {iasqlTables : List String} {mayDelete : String → Bool} {r : Row} {t : String}

def toDelete (iasqlTables : List String) (mayDelete : String → Bool) : List String :=
  allowed mayDelete (listed iasqlTables)

theorem mem_toDelete : t ∈ toDelete iasqlTables mayDelete ↔
    t ∈ iasqlTables ∧ t ≠ "aws_credentials" ∧ t ≠ "aws_regions" ∧ mayDelete t = true := by
  simp only [toDelete, allowed, listed, List.mem_filter, decide_eq_true_eq, and_assoc]

theorem rowsOf_deleteAllRecords : rowsOf (deleteAllRecords iasqlTables mayDelete db) =
    attempts (sweep db) (rowsOf db)
      (List.replicate 20 (toDelete iasqlTables mayDelete)).flatten := by
  have hstart : Tracks db (listed iasqlTables) { db, tablesArray := listed iasqlTables } :=
    ⟨.refl db, (List.filter_eq_self.mpr fun t ht => decide_eq_true ht).symm,
      fun t ht hoff => absurd ht hoff⟩
  exact loop_tracks hstart

-- DELETEs one after the other, none of which is refused
def InTurn (db : Db) (plan : List String) : Prop :=
  ∀ done t rest, plan = done ++ t :: rest → ∀ b, Blocks db t b → ∃ u ∈ done, Goes db u b

theorem inTurn_iff {plan : List String} :
    InTurn db plan ↔ InOrder (sweep db) (rowsOf db) plan := by
  constructor
  · exact fun h done t rest heq b _ hblock => h done t rest heq b hblock
  · exact fun h done t rest heq b hblock => h done t rest heq b hblock.1 hblock

theorem survives_iff : r ∈ deleteAllRecords iasqlTables mayDelete db ↔ r ∈ db ∧
    ∀ plan, List.Sublist plan (List.replicate 20 (toDelete iasqlTables mayDelete)).flatten →
      InTurn db plan → ∀ t ∈ plan, ¬Goes db t r := by
  have hrows : r ∈ deleteAllRecords iasqlTables mayDelete db ↔ r ∈ attempts (sweep db)
      (rowsOf db) (List.replicate 20 (toDelete iasqlTables mayDelete)).flatten := by
    rw [← rowsOf_deleteAllRecords]
    rfl
  rw [hrows, mem_attempts_iff]
  simp only [inTurn_iff]
  rfl

theorem emptied_iff (iasqlTables : List String) (mayDelete : String → Bool) (db : Db) :
    (∀ t ∈ iasqlTables, t ≠ "aws_credentials" → t ≠ "aws_regions" → mayDelete t = true →
      ∀ r ∈ deleteAllRecords iasqlTables mayDelete db, r.key.table ≠ t) ↔
    ∀ r ∈ db, r.key.table ∈ toDelete iasqlTables mayDelete →
      ∃ plan, List.Sublist plan (List.replicate 20 (toDelete iasqlTables mayDelete)).flatten ∧
        InTurn db plan ∧ ∃ t ∈ plan, Goes db t r := by
  constructor
  · intro h r hr htable
    obtain ⟨hlisted, hcredentials, hregions, hmay⟩ := mem_toDelete.mp htable
    by_contra hnone
    push Not at hnone
    exact h _ hlisted hcredentials hregions hmay r (survives_iff.mpr ⟨hr, hnone⟩) rfl
  · intro h t hlisted hcredentials hregions hmay r hr htable
    obtain ⟨hmem, hplans⟩ := survives_iff.mp hr
    have htarget := mem_toDelete.mpr ⟨hlisted, hcredentials, hregions, hmay⟩
    obtain ⟨plan, hsub, hturn, u, hu, hgoes⟩ := h r hmem (htable ▸ htarget)
    exact hplans plan hsub hturn u hu hgoes

end Emptied

section Chains

variable {db : Db} {iasqlTables : List String} {mayDelete : String → Bool} {t u : String}

def Behind (db : Db) (t u : String) : Prop := ∃ b, Blocks db t b ∧ b.key.table = u

theorem behind_iff : Behind db t u ↔ Sweeping.Behind (sweep db) (rowsOf db) (·.key.table) t u := by
  constructor
  · rintro ⟨b, hblock, htable⟩
    exact ⟨b, hblock.1, hblock, htable⟩
  · rintro ⟨b, -, hblock, htable⟩
    exact ⟨b, hblock, htable⟩

theorem emptied_of_chains (h : ∀ c, List.IsChain (Behind db) (t :: c) →
      List.Sublist (t :: c).reverse
        (List.replicate 20 (toDelete iasqlTables mayDelete)).flatten) :
    ∀ r ∈ deleteAllRecords iasqlTables mayDelete db, r.key.table ≠ t := by
  rintro r hr rfl
  have hrow : r ∈ rowsOf (deleteAllRecords iasqlTables mayDelete db) := hr
  rw [rowsOf_deleteAllRecords] at hrow
  have hhome : ∀ s ∈ rowsOf db, s ∈ (sweep db).sweeps s.key.table := fun s hs => Goes.own hs rfl
  obtain ⟨c, hchain, hnot⟩ := exists_chain hhome hrow
  exact hnot (h c (hchain.imp fun _ _ => behind_iff.mpr))

-- no foreign key cascades
def Plain (db : Db) : Prop := ∀ r ∈ db, ∀ ref ∈ r.refs, ref.2 = .noAction

theorem goes_iff_of_plain (hplain : Plain db) {r : Row} : Goes db t r ↔ r ∈ db ∧ r.key.table = t := by
  constructor
  · intro h
    cases h with
    | own hr htable => exact ⟨hr, htable⟩
    | along _ hr href => cases hplain _ hr _ href
  · exact fun h => .own h.1 h.2

theorem chains_of_emptied (hplain : Plain db) {r : Row} (hr : r ∈ db)
    (h : r ∉ deleteAllRecords iasqlTables mayDelete db) {c : List String}
    (hchain : List.IsChain (Behind db) (r.key.table :: c)) :
    List.Sublist (r.key.table :: c).reverse
      (List.replicate 20 (toDelete iasqlTables mayDelete)).flatten := by
  rw [survives_iff] at h
  push Not at h
  obtain ⟨plan, hsub, hturn, t, ht, hgoes⟩ := h hr
  have hhome : r.key.table = t := ((goes_iff_of_plain hplain).mp hgoes).2
  have honly : ∀ t, ∀ s ∈ rowsOf db, s ∈ (sweep db).sweeps t → s.key.table = t :=
    fun t s _ hs => ((goes_iff_of_plain hplain).mp hs).2
  exact (chain_sublist honly (inTurn_iff.mp hturn) (hhome ▸ ht)
    (hchain.imp fun _ _ => behind_iff.mp)).trans hsub

end Chains

section Deep

-- each table but the first refers to the one before it
def deepTables : List String :=
  ["a", "b", "c", "d", "e", "f", "g", "h", "i", "j", "k", "l", "m", "n", "o", "p", "q", "r", "s",
    "t", "u"]

def deepDb : Db :=
  List.zipWith (fun t refs => { key := ⟨t, 1⟩, refs }) deepTables
    ([] :: deepTables.map fun t => [(⟨t, 1⟩, .noAction)])

def RefersTo (db : Db) (t u : String) : Prop :=
  ∃ r ∈ db, r.key.table = t ∧ ∃ ref ∈ r.refs, ref.1.table = u

theorem deepDb_plain : Plain deepDb := by
  unfold Plain
  decide

theorem deep_chain : List.IsChain (Behind deepDb) deepTables := by
  have hlinks : List.IsChain (fun t u => t ≠ u ∧ ∃ b ∈ deepDb, b.key.table = u ∧
      ∃ s ∈ deepDb, s.key.table = t ∧ (s.key, .noAction) ∈ b.refs) deepTables := by
    decide
  refine hlinks.imp ?_
  rintro t u ⟨hne, b, hb, htable, s, hs, hhome, href⟩
  refine ⟨b, ⟨hb, fun hgoes => hne ?_, s, .own hs hhome, href⟩, htable⟩
  exact ((goes_iff_of_plain deepDb_plain).mp hgoes).2.symm.trans htable

theorem deep_row_left : (∀ t, ¬Relation.TransGen (RefersTo deepDb) t t) ∧
    ¬∀ t ∈ deepTables, t ≠ "aws_credentials" → t ≠ "aws_regions" →
      ∀ r ∈ deleteAllRecords deepTables (fun _ => true) deepDb, r.key.table ≠ t := by
  constructor
  · refine Acyclic.of_rank (fun t => deepTables.idxOf t) ?_
    rintro _ _ ⟨r, hr, rfl, ref, href, rfl⟩
    have hearlier : ∀ r ∈ deepDb, ∀ ref ∈ r.refs,
        deepTables.idxOf ref.1.table < deepTables.idxOf r.key.table := by decide
    exact hearlier r hr ref href
  · intro hall
    have hfirst : (⟨⟨"a", 1⟩, []⟩ : Row) ∈ deepDb := by decide
    have hgone : (⟨⟨"a", 1⟩, []⟩ : Row) ∉
        deleteAllRecords deepTables (fun _ => true) deepDb :=
      fun hr => hall "a" (by decide) (by decide) (by decide) _ hr rfl
    have hsub := chains_of_emptied deepDb_plain hfirst hgone deep_chain
    have hnot : ¬List.Sublist deepTables.reverse
        (List.replicate 20 (toDelete deepTables fun _ => true)).flatten := by
      decide +kernel
    exact hnot hsub

end Deep

end Iasql.DeleteAllRecords
