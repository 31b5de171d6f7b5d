import Iasql.Calculus.Referenced
import Iasql.Calculus.Runs
import Mathlib.Data.Finset.Card

namespace Iasql.SubnetArrays

open Referenced Runs

section Rows

structure Subnet where
  id : Int
  subnetId : Option String := none
  region : String
  vpcId : Int
deriving DecidableEq

structure Service where
  id : Int
  name : String
  subnets : List (Option String)
deriving DecidableEq

structure LoadBalancer where
  id : Int
  loadBalancerName : String
  subnets : Option (List (Option String)) := none
deriving DecidableEq

structure SubnetGroup where
  id : Int
  subnets : Option (List (Option String)) := none
  region : String
deriving DecidableEq

-- what the primary key, and of subnet uq_subnet_id_region, keep apart; a null subnet_id clashes with none
def Subnet.Clash (r s : Subnet) : Prop :=
  r.id = s.id ∨ r.subnetId ≠ none ∧ r.subnetId = s.subnetId ∧ r.region = s.region

def Service.Clash (r s : Service) : Prop := r.id = s.id

def LoadBalancer.Clash (r s : LoadBalancer) : Prop := r.id = s.id

def SubnetGroup.Clash (r s : SubnetGroup) : Prop := r.id = s.id

instance : DecidableRel Subnet.Clash := fun _ _ => inferInstanceAs (Decidable (_ ∨ _))

instance : DecidableRel Service.Clash := fun _ _ => inferInstanceAs (Decidable (_ = _))

instance : DecidableRel LoadBalancer.Clash := fun _ _ => inferInstanceAs (Decidable (_ = _))

instance : DecidableRel SubnetGroup.Clash := fun _ _ => inferInstanceAs (Decidable (_ = _))

structure Table (R : Type) (clash : R → R → Prop) where
  rows : List R
  unique : rows.Pairwise fun r s => ¬ clash r s

def Table.empty {R : Type} {clash : R → R → Prop} : Table R clash := ⟨[], .nil⟩

def Table.write {R : Type} (clash : R → R → Prop) [DecidableRel clash] (rows : List R) :
    Except String (Table R clash) :=
  if h : rows.Pairwise fun r s => ¬ clash r s then .ok ⟨rows, h⟩
  else .error "duplicate key value violates unique constraint"

structure Database where
  subnet : Table Subnet Subnet.Clash := .empty
  service : Table Service Service.Clash := .empty
  loadBalancer : Table LoadBalancer LoadBalancer.Clash := .empty
  subnetGroup : Table SubnetGroup SubnetGroup.Clash := .empty

-- one row of an INSERT, an UPDATE or a DELETE
inductive RowChange (R : Type) where
  | insert (new : R)
  | update (id : Int) (new : R)
  | delete (id : Int)
deriving DecidableEq

variable {R : Type} (id : R → Int) (rows : List R)

def RowChange.olds : RowChange R → List R
  | .insert _ => []
  | .update i _ => rows.filter fun r => id r = i
  | .delete i => rows.filter fun r => id r = i

def RowChange.kept : RowChange R → List R
  | .insert _ => rows
  | .update i _ => rows.filter fun r => id r ≠ i
  | .delete i => rows.filter fun r => id r ≠ i

-- an UPDATE that finds no row writes none
def RowChange.news : RowChange R → List R
  | .insert new => [new]
  | .update i new => if ∃ r ∈ rows, id r = i then [new] else []
  | .delete _ => []

def RowChange.result (c : RowChange R) : List R := c.kept id rows ++ c.news id rows

end Rows

section Checks

-- array_length(xs, 1) is null on an empty array
def arrayLength : Option (List (Option String)) → Option Nat
  | none => none
  | some [] => none
  | some xs => some xs.length

def countSubnets (xs : Option (List (Option String))) (subnets : List Subnet) : Nat :=
  (matching (·.subnetId) (xs.getD []) subnets).length

def checkSubnets (xs : Option (List (Option String))) (db : Database) : Option Bool :=
  (arrayLength xs).map fun n => countSubnets xs db.subnet.rows == n

def checkServiceSubnets (xs : List (Option String)) (db : Database) : Option Bool :=
  checkSubnets (some xs) db

def checkLoadBalancerSubnets (xs : Option (List (Option String))) (db : Database) : Option Bool :=
  checkSubnets xs db

-- a CHECK constraint refuses false, and lets null through
def checkConstraint (table name : String) (check : Option Bool) : Except String Unit :=
  if check = some false then
    .error ("new row for relation \"" ++ table ++ "\" violates check constraint \"" ++ name ++ "\"")
  else .ok ()

def inRegion (region : String) (db : Database) : List Subnet :=
  db.subnet.rows.filter fun s => s.region = region

def countVpcs (xs : Option (List (Option String))) (subnets : List Subnet) : Nat :=
  ((matching (·.subnetId) (xs.getD []) subnets).map (·.vpcId)).dedup.length

def checkSubnetGroupSubnets (new : SubnetGroup) (db : Database) : Except String Unit :=
  let subnetsCount := countSubnets new.subnets (inRegion new.region db)
  let vpcCount := countVpcs new.subnets (inRegion new.region db)
  if (subnetsCount = 0 ∨ some subnetsCount = arrayLength new.subnets) ∧ vpcCount ≤ 1 then .ok ()
  else .error "Subnets must be from the same vpc and region."

-- the loop of the triggers on subnet, which stops at the first row that lists the old subnet_id
def checkSubnetsBy {R : Type} (rows : List R) (subnets : R → Option (List (Option String)))
    (message : String → R → String) (old : Subnet) : Except String Unit :=
  match old.subnetId with
  | none => .ok ()
  | some subnetId =>
    match rows.find? fun r => ((subnets r).getD []).contains (some subnetId) with
    | some r => .error (message subnetId r)
    | none => .ok ()

def checkSubnetsByService (db : Database) : Subnet → Except String Unit :=
  checkSubnetsBy db.service.rows (fun r => some r.subnets) fun subnetId r =>
    "subnet_id " ++ subnetId ++ " is being used by service " ++ r.name

def checkSubnetsByLoadBalancer (db : Database) : Subnet → Except String Unit :=
  checkSubnetsBy db.loadBalancer.rows (·.subnets) fun subnetId r =>
    "subnet_id " ++ subnetId ++ " is being used by load balancer " ++ r.loadBalancerName

-- its message asks for a column that subnet_group does not have
def checkSubnetsBySubnetGroup (db : Database) : Subnet → Except String Unit :=
  checkSubnetsBy db.subnetGroup.rows (·.subnets) fun _ _ => "record \"r\" has no field \"cluster_name\""

def subnetTriggers (db : Database) (old : Subnet) : Except String Unit := do
  checkSubnetsByLoadBalancer db old
  checkSubnetsByService db old
  checkSubnetsBySubnetGroup db old

end Checks

section Statements

inductive Change where
  | subnet (c : RowChange Subnet)
  | service (c : RowChange Service)
  | loadBalancer (c : RowChange LoadBalancer)
  | subnetGroup (c : RowChange SubnetGroup)
deriving DecidableEq

def change (db : Database) : Change → Except String Database
  | .subnet c => do
    (c.olds (·.id) db.subnet.rows).forM (subnetTriggers db)
    let subnet ← Table.write Subnet.Clash (c.result (·.id) db.subnet.rows)
    return { db with subnet := subnet }
  | .service c => do
    (c.news (·.id) db.service.rows).forM fun new =>
      checkConstraint "service" "check_service_subnets" (checkServiceSubnets new.subnets db)
    let service ← Table.write Service.Clash (c.result (·.id) db.service.rows)
    return { db with service := service }
  | .loadBalancer c => do
    (c.news (·.id) db.loadBalancer.rows).forM fun new =>
      checkConstraint "load_balancer" "check_load_balancer_subnets" (checkLoadBalancerSubnets new.subnets db)
    let loadBalancer ← Table.write LoadBalancer.Clash (c.result (·.id) db.loadBalancer.rows)
    return { db with loadBalancer := loadBalancer }
  | .subnetGroup c => do
    (c.news (·.id) db.subnetGroup.rows).forM fun new => checkSubnetGroupSubnets new db
    let subnetGroup ← Table.write SubnetGroup.Clash (c.result (·.id) db.subnetGroup.rows)
    return { db with subnetGroup := subnetGroup }

-- a statement writes its rows in turn, and none of them once one is refused
def statement (db : Database) (changes : List Change) : Except String Database := changes.foldlM change db

def execute (db : Database) (changes : List Change) : Database :=
  match statement db changes with
  | .ok db => db
  | .error _ => db

end Statements

variable {db db' : Database} {R : Type} {r : R} {rows : List R} {id : R → Int}

section Soundness

def Exists (db : Database) (subnetId : String) : Prop := ∃ s ∈ db.subnet.rows, s.subnetId = some subnetId

def Placed (db : Database) (region : String) (vpcId : Int) (subnetId : String) : Prop :=
  ∃ s ∈ db.subnet.rows, s.subnetId = some subnetId ∧ s.region = region ∧ s.vpcId = vpcId

structure Sound (db : Database) : Prop where
  service : ∀ r ∈ db.service.rows, ∀ i, some i ∈ r.subnets → Exists db i
  loadBalancer : ∀ r ∈ db.loadBalancer.rows, ∀ i, some i ∈ r.subnets.getD [] → Exists db i
  subnetGroup : ∀ r ∈ db.subnetGroup.rows, ∃ vpcId, ∀ i, some i ∈ r.subnets.getD [] → Placed db r.region vpcId i

structure Complete (db : Database) : Prop where
  service : ∀ (ids : List String) region vpcId, ids.Nodup → (∀ i ∈ ids, Placed db region vpcId i) →
    checkServiceSubnets (ids.map some) db ≠ some false
  loadBalancer : ∀ (ids : List String) region vpcId, ids.Nodup → (∀ i ∈ ids, Placed db region vpcId i) →
    checkLoadBalancerSubnets (some (ids.map some)) db ≠ some false
  subnetGroup : ∀ (new : SubnetGroup) (ids : List String) vpcId, new.subnets = some (ids.map some) → ids.Nodup →
    (∀ i ∈ ids, Placed db new.region vpcId i) → checkSubnetGroupSubnets new db = .ok ()

def Referential (db : Database) : Prop := Sound db ∧ Complete db

-- no subnet_id goes to a subnet of a second region, and no subnet_group lists only ids its region does not know
def Change.Careful (db : Database) : Change → Prop
  | .subnet c => ∀ new ∈ c.news (·.id) db.subnet.rows, ∀ s ∈ c.kept (·.id) db.subnet.rows,
      s.region ≠ new.region → s.subnetId ≠ none → s.subnetId ≠ new.subnetId
  | .subnetGroup c => ∀ new ∈ c.news (·.id) db.subnetGroup.rows, ∀ x ∈ new.subnets.getD [], x ≠ none →
      ∃ s ∈ inRegion new.region db, s.subnetId ≠ none ∧ s.subnetId ∈ new.subnets.getD []
  | _ => True

instance (db : Database) (c : Change) : Decidable (c.Careful db) :=
  match c with
  | .subnet _ | .subnetGroup _ => inferInstanceAs (Decidable (∀ new ∈ _, _))
  | .service _ | .loadBalancer _ => inferInstanceAs (Decidable True)

def Careful : Database → List Change → Prop
  | _, [] => True
  | db, c :: cs =>
    match change db c with
    | .ok db' => c.Careful db ∧ Careful db' cs
    | .error _ => True

instance Careful.decide : (db : Database) → (cs : List Change) → Decidable (Careful db cs)
  | _, [] => inferInstanceAs (Decidable True)
  | db, c :: cs =>
    match h : change db c with
    | .ok db' =>
      have := Careful.decide db' cs
      decidable_of_iff (c.Careful db ∧ Careful db' cs) (by rw [Careful, h])
    | .error _ => .isTrue (by rw [Careful, h]; trivial)

instance (db : Database) (subnetId : String) : Decidable (Exists db subnetId) :=
  inferInstanceAs (Decidable (∃ s ∈ db.subnet.rows, _))

end Soundness

section Steps

theorem bind_ok {α β : Type} {x : Except String α} {f : α → Except String β} {b : β}
    (h : (x >>= f) = .ok b) : ∃ a, x = .ok a ∧ f a = .ok b := by
  cases x with
  | error e => cases h
  | ok a => exact ⟨a, rfl, h⟩

theorem forM_ok {α : Type} {f : α → Except String Unit} {as : List α} (h : as.forM f = .ok ()) :
    ∀ a ∈ as, f a = .ok () := by
  induction as with
  | nil => nofun
  | cons a as ih =>
    obtain ⟨_, ha, has⟩ := bind_ok h
    exact List.forall_mem_cons.mpr ⟨ha, ih has⟩

theorem Table.rows_of_write {clash : R → R → Prop} [DecidableRel clash] {table : Table R clash}
    (h : Table.write clash rows = .ok table) : table.rows = rows := by
  unfold Table.write at h
  split at h
  · cases h
    rfl
  · cases h

theorem RowChange.kept_sublist (c : RowChange R) : (c.kept id rows).Sublist rows := by
  cases c with
  | insert new => exact .refl rows
  | update i new => exact List.filter_sublist
  | delete i => exact List.filter_sublist

theorem RowChange.kept_or_old (c : RowChange R) (hr : r ∈ rows) : r ∈ c.kept id rows ∨ r ∈ c.olds id rows := by
  cases c with
  | insert new => exact .inl hr
  | update i new => by_cases h : id r = i <;> simp [kept, olds, hr, h]
  | delete i => by_cases h : id r = i <;> simp [kept, olds, hr, h]

theorem RowChange.mem_result {c : RowChange R} (h : r ∈ c.result id rows) : r ∈ rows ∨ r ∈ c.news id rows := by
  rcases List.mem_append.mp h with h | h
  · exact .inl (c.kept_sublist.subset h)
  · exact .inr h

theorem checkSubnetsBy_ok {subnets : R → Option (List (Option String))} {message : String → R → String}
    {old : Subnet} (h : checkSubnetsBy rows subnets message old = .ok ()) :
    ∀ r ∈ rows, ∀ i, some i ∈ (subnets r).getD [] → old.subnetId ≠ some i := by
  intro r hr i hi hold
  simp only [checkSubnetsBy, hold] at h
  split at h
  · cases h
  · next hnone =>
    have hfalse := List.find?_eq_none.mp hnone r hr
    exact hfalse (List.contains_iff_mem.mpr hi)

-- what the checks and triggers have seen before a row is written
inductive Written (db : Database) : Change → Database → Prop
  | subnet {c : RowChange Subnet} {t : Table Subnet Subnet.Clash} :
      t.rows = c.result (·.id) db.subnet.rows →
      (∀ old ∈ c.olds (·.id) db.subnet.rows, subnetTriggers db old = .ok ()) →
      Written db (.subnet c) { db with subnet := t }
  | service {c : RowChange Service} {t : Table Service Service.Clash} :
      t.rows = c.result (·.id) db.service.rows →
      (∀ new ∈ c.news (·.id) db.service.rows, checkServiceSubnets new.subnets db ≠ some false) →
      Written db (.service c) { db with service := t }
  | loadBalancer {c : RowChange LoadBalancer} {t : Table LoadBalancer LoadBalancer.Clash} :
      t.rows = c.result (·.id) db.loadBalancer.rows →
      (∀ new ∈ c.news (·.id) db.loadBalancer.rows, checkLoadBalancerSubnets new.subnets db ≠ some false) →
      Written db (.loadBalancer c) { db with loadBalancer := t }
  | subnetGroup {c : RowChange SubnetGroup} {t : Table SubnetGroup SubnetGroup.Clash} :
      t.rows = c.result (·.id) db.subnetGroup.rows →
      (∀ new ∈ c.news (·.id) db.subnetGroup.rows, checkSubnetGroupSubnets new db = .ok ()) →
      Written db (.subnetGroup c) { db with subnetGroup := t }

theorem checkConstraint_ok {table name : String} {check : Option Bool}
    (h : checkConstraint table name check = .ok ()) : check ≠ some false := by
  rintro rfl
  cases h

theorem written_of_change {c : Change} (h : change db c = .ok db') : Written db c db' := by
  cases c with
  | subnet c =>
    obtain ⟨_, holds, h⟩ := bind_ok h
    obtain ⟨t, ht, h⟩ := bind_ok h
    cases h
    exact .subnet (Table.rows_of_write ht) (forM_ok holds)
  | service c =>
    obtain ⟨_, hnews, h⟩ := bind_ok h
    obtain ⟨t, ht, h⟩ := bind_ok h
    cases h
    exact .service (Table.rows_of_write ht) fun new hnew => checkConstraint_ok (forM_ok hnews new hnew)
  | loadBalancer c =>
    obtain ⟨_, hnews, h⟩ := bind_ok h
    obtain ⟨t, ht, h⟩ := bind_ok h
    cases h
    exact .loadBalancer (Table.rows_of_write ht) fun new hnew => checkConstraint_ok (forM_ok hnews new hnew)
  | subnetGroup c =>
    obtain ⟨_, hnews, h⟩ := bind_ok h
    obtain ⟨t, ht, h⟩ := bind_ok h
    cases h
    exact .subnetGroup (Table.rows_of_write ht) (forM_ok hnews)

end Steps

section Invariant

-- a subnet_id names one subnet, whatever the region
def Apart (db : Database) : Prop := Distinct (·.subnetId) db.subnet.rows

theorem apart_inRegion (region : String) : Distinct (·.subnetId) (inRegion region db) := by
  refine (List.Pairwise.filter _ db.subnet.unique).imp_of_mem fun {r s} hr hs hclash hne heq => hclash ?_
  have hregion : ∀ t ∈ inRegion region db, t.region = region := fun t ht =>
    of_decide_eq_true (List.mem_filter.mp ht).2
  exact .inr ⟨hne, heq, (hregion r hr).trans (hregion s hs).symm⟩

theorem exists_of_checkSubnets (h : Apart db) {xs : Option (List (Option String))}
    (hcheck : checkSubnets xs db ≠ some false) {i : String} (hi : some i ∈ xs.getD []) : Exists db i := by
  match xs, hi with
  | some (x :: xs), hi =>
    have hcount : countSubnets (some (x :: xs)) db.subnet.rows = (x :: xs).length := by
      by_contra hne
      exact hcheck (congrArg some (beq_eq_false_iff_ne.mpr hne))
    obtain ⟨s, hs, hid, -⟩ := exists_of_length h hcount hi
    exact ⟨s, hs, hid⟩

theorem checkSubnets_of_exists (h : Apart db) {ids : List String} (hnodup : ids.Nodup)
    (hids : ∀ i ∈ ids, Exists db i) : checkSubnets (some (ids.map some)) db ≠ some false := by
  have hcount : countSubnets (some (ids.map some)) db.subnet.rows = ids.length :=
    length_of_exists h hnodup hids
  cases ids with
  | nil => nofun
  | cons i ids =>
    intro hfalse
    have hne : countSubnets (some ((i :: ids).map some)) db.subnet.rows ≠ ((i :: ids).map some).length :=
      beq_eq_false_iff_ne.mp (Option.some.inj hfalse)
    rw [List.length_map] at hne
    exact hne hcount

theorem countVpcs_le_one {xs : Option (List (Option String))} {subnets : List Subnet} :
    countVpcs xs subnets ≤ 1 ↔
      ∀ r ∈ matching (·.subnetId) (xs.getD []) subnets, ∀ s ∈ matching (·.subnetId) (xs.getD []) subnets,
        r.vpcId = s.vpcId := by
  rw [countVpcs, ← List.card_toFinset, Finset.card_le_one]
  simp only [List.mem_toFinset, List.mem_map]
  constructor
  · intro h r hr s hs
    exact h _ ⟨r, hr, rfl⟩ _ ⟨s, hs, rfl⟩
  · rintro h _ ⟨r, hr, rfl⟩ _ ⟨s, hs, rfl⟩
    exact h r hr s hs

theorem checkSubnetGroupSubnets_ok {new : SubnetGroup} :
    checkSubnetGroupSubnets new db = .ok () ↔
      (countSubnets new.subnets (inRegion new.region db) = 0 ∨
        some (countSubnets new.subnets (inRegion new.region db)) = arrayLength new.subnets) ∧
      countVpcs new.subnets (inRegion new.region db) ≤ 1 := by
  simp only [checkSubnetGroupSubnets]
  split
  · next h => exact iff_of_true rfl h
  · next h => exact iff_of_false nofun h

theorem placed_of_checked {new : SubnetGroup} (hcheck : checkSubnetGroupSubnets new db = .ok ())
    (hknown : ∀ x ∈ new.subnets.getD [], x ≠ none →
      ∃ s ∈ inRegion new.region db, s.subnetId ≠ none ∧ s.subnetId ∈ new.subnets.getD []) :
    ∃ vpcId, ∀ i, some i ∈ new.subnets.getD [] → Placed db new.region vpcId i := by
  obtain ⟨hcount, hvpc⟩ := checkSubnetGroupSubnets_ok.mp hcheck
  by_cases hids : ∃ i, some i ∈ new.subnets.getD []
  · obtain ⟨i, hi⟩ := hids
    obtain ⟨s, hs, hne, hlisted⟩ := hknown (some i) hi (Option.some_ne_none i)
    have hmatch : s ∈ matching (·.subnetId) (new.subnets.getD []) (inRegion new.region db) :=
      mem_matching.mpr ⟨hs, hne, hlisted⟩
    have hlength : some (countSubnets new.subnets (inRegion new.region db)) = arrayLength new.subnets :=
      hcount.resolve_left (Nat.ne_of_gt (List.length_pos_of_mem hmatch))
    have hall : countSubnets new.subnets (inRegion new.region db) = (new.subnets.getD []).length := by
      match hsubnets : new.subnets with
      | none => rw [hsubnets] at hlength; cases hlength
      | some [] => rw [hsubnets] at hlength; cases hlength
      | some (x :: xs) =>
        rw [hsubnets] at hlength
        exact Option.some.inj hlength
    refine ⟨s.vpcId, fun j hj => ?_⟩
    obtain ⟨t, ht, hid, hsome⟩ := exists_of_length (apart_inRegion new.region) hall hj
    have hmatch' : t ∈ matching (·.subnetId) (new.subnets.getD []) (inRegion new.region db) :=
      mem_matching.mpr ⟨ht, hid ▸ hsome, hid ▸ hj⟩
    obtain ⟨htdb, hregion⟩ := List.mem_filter.mp ht
    exact ⟨t, htdb, hid, of_decide_eq_true hregion, countVpcs_le_one.mp hvpc t hmatch' s hmatch⟩
  · exact ⟨0, fun i hi => absurd ⟨i, hi⟩ hids⟩

theorem checked_of_placed {new : SubnetGroup} {ids : List String} {vpcId : Int}
    (hsubnets : new.subnets = some (ids.map some)) (hnodup : ids.Nodup)
    (hids : ∀ i ∈ ids, Placed db new.region vpcId i) : checkSubnetGroupSubnets new db = .ok () := by
  have hrows : ∀ i ∈ ids, ∃ s ∈ inRegion new.region db, s.subnetId = some i ∧ s.vpcId = vpcId := by
    intro i hi
    obtain ⟨s, hs, hid, hregion, hvpc⟩ := hids i hi
    exact ⟨s, List.mem_filter.mpr ⟨hs, decide_eq_true hregion⟩, hid, hvpc⟩
  have hcount : countSubnets new.subnets (inRegion new.region db) = ids.length := by
    rw [hsubnets]
    refine length_of_exists (apart_inRegion new.region) hnodup fun i hi => ?_
    obtain ⟨s, hs, hid, -⟩ := hrows i hi
    exact ⟨s, hs, hid⟩
  have hvpcs : ∀ r ∈ matching (·.subnetId) (new.subnets.getD []) (inRegion new.region db), r.vpcId = vpcId := by
    intro r hr
    obtain ⟨hr, hne, hlisted⟩ := mem_matching.mp hr
    rw [hsubnets] at hlisted
    obtain ⟨i, hi, hid⟩ := List.mem_map.mp hlisted
    obtain ⟨s, hs, hsid, hvpc⟩ := hrows i hi
    rw [(apart_inRegion new.region).eq hr hs hne (hid.symm.trans hsid.symm)]
    exact hvpc
  refine checkSubnetGroupSubnets_ok.mpr ⟨?_, countVpcs_le_one.mpr fun r hr s hs => ?_⟩
  · rw [hcount, hsubnets]
    cases ids with
    | nil => exact .inl rfl
    | cons i ids => exact .inr (congrArg some (List.length_map some).symm)
  · exact (hvpcs r hr).trans (hvpcs s hs).symm

theorem Apart.complete (h : Apart db) : Complete db where
  service _ _ _ hnodup hids :=
    checkSubnets_of_exists h hnodup fun i hi => (hids i hi).imp fun _ hs => ⟨hs.1, hs.2.1⟩
  loadBalancer _ _ _ hnodup hids :=
    checkSubnets_of_exists h hnodup fun i hi => (hids i hi).imp fun _ hs => ⟨hs.1, hs.2.1⟩
  subnetGroup _ _ _ hsubnets hnodup hids := checked_of_placed hsubnets hnodup hids

end Invariant

section Runs

-- every subnet that a row still lists is there after the change, with all its columns
theorem kept_of_unlisted {c : RowChange Subnet} {s : Subnet} {i : String}
    (holds : ∀ old ∈ c.olds (·.id) db.subnet.rows, old.subnetId ≠ some i)
    (hs : s ∈ db.subnet.rows) (hid : s.subnetId = some i) : s ∈ c.result (·.id) db.subnet.rows := by
  rcases c.kept_or_old hs with hkept | hold
  · exact List.mem_append_left _ hkept
  · exact absurd hid (holds s hold)

theorem subnetTriggers_ok {old : Subnet} (h : subnetTriggers db old = .ok ()) :
    checkSubnetsByLoadBalancer db old = .ok () ∧ checkSubnetsByService db old = .ok () ∧
      checkSubnetsBySubnetGroup db old = .ok () := by
  obtain ⟨_, hlb, h⟩ := bind_ok h
  obtain ⟨_, hservice, hgroup⟩ := bind_ok h
  exact ⟨hlb, hservice, hgroup⟩

theorem apart_of_written {c : Change} (h : Written db c db') (hc : c.Careful db) (hapart : Apart db) :
    Apart db' := by
  cases h with
  | @subnet c t hrows holds =>
    have hunique := t.unique
    rw [hrows] at hunique
    obtain ⟨-, hnews, hcross⟩ := List.pairwise_append.mp hunique
    rw [Apart, Distinct, hrows]
    refine List.pairwise_append.mpr ⟨List.Pairwise.sublist c.kept_sublist hapart, ?_, fun s hs new hnew hne heq => ?_⟩
    · cases c with
      | insert new => exact List.pairwise_singleton _ _
      | update i new =>
        rw [RowChange.news]
        split
        · exact List.pairwise_singleton _ _
        · exact .nil
      | delete i => exact .nil
    · by_cases hregion : s.region = new.region
      · exact hcross s hs new hnew (.inr ⟨hne, heq, hregion⟩)
      · exact hc new hnew s hs hregion hne heq
  | service => exact hapart
  | loadBalancer => exact hapart
  | subnetGroup => exact hapart

theorem sound_of_written {c : Change} (h : Written db c db') (hc : c.Careful db) (hapart : Apart db)
    (hsound : Sound db) : Sound db' := by
  cases h with
  | @subnet c t hrows holds =>
    refine ⟨fun r hr i hi => ?_, fun r hr i hi => ?_, fun r hr => ?_⟩
    · obtain ⟨s, hs, hid⟩ := hsound.service r hr i hi
      refine ⟨s, ?_, hid⟩
      rw [hrows]
      exact kept_of_unlisted (fun old hold => checkSubnetsBy_ok (subnetTriggers_ok (holds old hold)).2.1 r hr i hi)
        hs hid
    · obtain ⟨s, hs, hid⟩ := hsound.loadBalancer r hr i hi
      refine ⟨s, ?_, hid⟩
      rw [hrows]
      exact kept_of_unlisted (fun old hold => checkSubnetsBy_ok (subnetTriggers_ok (holds old hold)).1 r hr i hi)
        hs hid
    · obtain ⟨vpcId, hplaced⟩ := hsound.subnetGroup r hr
      refine ⟨vpcId, fun i hi => ?_⟩
      obtain ⟨s, hs, hid, hplace⟩ := hplaced i hi
      refine ⟨s, ?_, hid, hplace⟩
      rw [hrows]
      exact kept_of_unlisted (fun old hold => checkSubnetsBy_ok (subnetTriggers_ok (holds old hold)).2.2 r hr i hi)
        hs hid
  | @service c t hrows hchecks =>
    refine ⟨fun r hr i hi => ?_, hsound.loadBalancer, hsound.subnetGroup⟩
    rw [hrows] at hr
    rcases RowChange.mem_result hr with hr | hr
    · exact hsound.service r hr i hi
    · exact exists_of_checkSubnets hapart (hchecks r hr) hi
  | @loadBalancer c t hrows hchecks =>
    refine ⟨hsound.service, fun r hr i hi => ?_, hsound.subnetGroup⟩
    rw [hrows] at hr
    rcases RowChange.mem_result hr with hr | hr
    · exact hsound.loadBalancer r hr i hi
    · exact exists_of_checkSubnets hapart (hchecks r hr) hi
  | @subnetGroup c t hrows hchecks =>
    refine ⟨hsound.service, hsound.loadBalancer, fun r hr => ?_⟩
    rw [hrows] at hr
    rcases RowChange.mem_result hr with hr | hr
    · exact hsound.subnetGroup r hr
    · exact placed_of_checked (hchecks r hr) (hc r hr)

theorem invariant_of_statement {cs : List Change} (h : statement db cs = .ok db') (hc : Careful db cs)
    (hapart : Apart db) (hsound : Sound db) : Apart db' ∧ Sound db' := by
  induction cs generalizing db with
  | nil =>
    cases h
    exact ⟨hapart, hsound⟩
  | cons c cs ih =>
    obtain ⟨db₁, hchange, hrest⟩ := bind_ok h
    rw [Careful, hchange] at hc
    have hwritten := written_of_change hchange
    exact ih hrest hc.2 (apart_of_written hwritten hc.1 hapart) (sound_of_written hwritten hc.1 hapart hsound)

def Reached (ok : Database → List Change → Prop) : Database → Prop :=
  RunFrom (· = {}) (fun db cs db' => db' = execute db cs) ok

theorem Reached.start {ok : Database → List Change → Prop} : Reached ok {} := RunFrom.start rfl

theorem Reached.next {ok : Database → List Change → Prop} {cs : List Change} (h : Reached ok db) (hok : ok db cs) :
    Reached ok (execute db cs) :=
  RunFrom.next h hok rfl

theorem subnet_arrays_referential (h : Reached Careful db) : Referential db := by
  have hinv : Apart db ∧ Sound db := by
    refine RunFrom.invariant (I := fun db => Apart db ∧ Sound db) h ?_ ?_
    · rintro _ rfl
      exact ⟨.nil, nofun, nofun, nofun⟩
    · rintro db cs _ ⟨hapart, hsound⟩ hc rfl
      unfold execute
      split
      · next hstatement => exact invariant_of_statement hstatement hc hapart hsound
      · exact ⟨hapart, hsound⟩
  exact ⟨hinv.2, hinv.1.complete⟩

theorem subnet_arrays_referential_grouped :
    Referential (execute (execute {} [.subnet (.insert ⟨1, some "subnet-1", "us-east-1", 1⟩)])
      [.subnetGroup (.insert ⟨1, some [some "subnet-1"], "us-east-1"⟩)]) :=
  subnet_arrays_referential
    ((Reached.start.next (by decide +kernel)).next (by decide +kernel))

def twice : List Change :=
  [.subnet (.insert ⟨1, some "subnet-1", "us-east-1", 1⟩), .subnet (.insert ⟨2, some "subnet-1", "us-west-2", 2⟩)]

-- a group of an unknown subnet, a service with an unknown subnet beside one that two regions know, and the
-- service of that one alone
theorem unknown_listed_known_refused :
    (∃ db, Reached (fun _ _ => True) db ∧
      ∃ r ∈ db.subnetGroup.rows, ∃ i, some i ∈ r.subnets.getD [] ∧ ¬ Exists db i) ∧
    (∃ db, Reached (fun _ _ => True) db ∧ ∃ r ∈ db.service.rows, ∃ i, some i ∈ r.subnets ∧ ¬ Exists db i) ∧
    ∃ db, Reached (fun _ _ => True) db ∧ Placed db "us-east-1" 1 "subnet-1" ∧
      checkServiceSubnets [some "subnet-1"] db = some false := by
  refine ⟨⟨execute {} [.subnetGroup (.insert ⟨1, some [some "subnet-2"], "us-east-1"⟩)],
    Reached.start.next trivial, ⟨1, some [some "subnet-2"], "us-east-1"⟩, ?_, "subnet-2", ?_, ?_⟩,
    ⟨execute (execute {} twice) [.service (.insert ⟨1, "web", [some "subnet-1", some "subnet-2"]⟩)],
      (Reached.start.next trivial).next trivial, ⟨1, "web", [some "subnet-1", some "subnet-2"]⟩, ?_,
      "subnet-2", ?_, ?_⟩,
    ⟨execute {} twice, Reached.start.next trivial,
      ⟨⟨1, some "subnet-1", "us-east-1", 1⟩, ?_, rfl, rfl, rfl⟩, ?_⟩⟩
  all_goals decide +kernel

end Runs

end Iasql.SubnetArrays
