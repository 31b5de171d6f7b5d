import Iasql.Calculus.Program
import Iasql.Calculus.Restarts
import Mathlib.Order.Lattice
import Mathlib.Order.Nat

namespace Iasql.Route53

open Program Prog Restarts

inductive RecordType where
  | A | AAAA | CAA | CNAME | DS | MX | NAPTR | NS | PTR | SOA | SPF | SRV | TXT
deriving DecidableEq

namespace RecordType

def text : RecordType → String
  | A => "A"
  | AAAA => "AAAA"
  | CAA => "CAA"
  | CNAME => "CNAME"
  | DS => "DS"
  | MX => "MX"
  | NAPTR => "NAPTR"
  | NS => "NS"
  | PTR => "PTR"
  | SOA => "SOA"
  | SPF => "SPF"
  | SRV => "SRV"
  | TXT => "TXT"

theorem text_injective : Function.Injective text := by
  intro t u h
  cases t <;> cases u <;> first | rfl | simp [text] at h

end RecordType

structure AwsAliasTarget where
  hostedZoneId : Option String
  dnsName : Option String
  evaluateTargetHealth : Option Bool
deriving DecidableEq

structure GeoLocation where
  continentCode : Option String := none
  countryCode : Option String := none
  subdivisionCode : Option String := none
deriving DecidableEq

-- what tells the record sets of one name and type apart, and how one of them is chosen
structure Routing where
  setIdentifier : Option String := none
  weight : Option Nat := none
  region : Option String := none
  geoLocation : Option GeoLocation := none
  failover : Option String := none
  multiValueAnswer : Option Bool := none
  healthCheckId : Option String := none
  trafficPolicyInstanceId : Option String := none
deriving DecidableEq

-- a resource record is its value
structure AwsResourceRecordSet extends Routing where
  name : String
  type : RecordType
  ttl : Option Nat := none
  resourceRecords : Option (List String) := none
  aliasTarget : Option AwsAliasTarget := none
deriving DecidableEq

section Service

variable {κ : Type} [LinearOrder κ]

def Before (collation : String → κ) (r s : AwsResourceRecordSet) : Prop :=
  collation r.name < collation s.name ∨
    r.name = s.name ∧ (r.type.text < s.type.text ∨
      r.type = s.type ∧ r.setIdentifier.getD "" < s.setIdentifier.getD "")

-- a hosted zone as the service keeps it, and the sizes it will choose for the pages it answers with
structure Zone (collation : String → κ) where
  records : List AwsResourceRecordSet
  sorted : records.Pairwise (Before collation)
  named : ∀ r ∈ records, r.name ≠ ""
  pageSize : Nat → Nat
  pageSize_pos : ∀ i, 0 < pageSize i

structure ListResourceRecordSetsInput where
  hostedZoneId : String
  startRecordName : Option String := none
deriving DecidableEq

structure ListResourceRecordSetsOutput where
  resourceRecordSets : Option (List AwsResourceRecordSet)
  isTruncated : Bool
  nextRecordName : Option String
  nextRecordType : Option RecordType
  nextRecordIdentifier : Option String
deriving DecidableEq

variable {collation : String → κ}

def nameKey (collation : String → κ) (r : AwsResourceRecordSet) : κ := collation r.name

def Zone.startOf (zone : Zone collation) (input : ListResourceRecordSetsInput) : Nat :=
  match input.startRecordName with
  | none => 0
  | some name => seek (nameKey collation) zone.records (collation name)

def Zone.answer (zone : Zone collation) (size : Nat) (input : ListResourceRecordSetsInput) :
    ListResourceRecordSetsOutput :=
  let rest := zone.records.drop (zone.startOf input)
  let next := (rest.drop size).head?
  { resourceRecordSets := some (rest.take size)
    isTruncated := next.isSome
    nextRecordName := next.map (·.name)
    nextRecordType := next.map (·.type)
    nextRecordIdentifier := next.bind (·.setIdentifier) }

-- the requests the service has got so far
abbrev Requests := List ListResourceRecordSetsInput

def Zone.listResourceRecordSets (zone : Zone collation) (input : ListResourceRecordSetsInput) :
    Prog Requests String ListResourceRecordSetsOutput := fun requests =>
  (.returned (zone.answer (zone.pageSize requests.length) input), requests ++ [input])

end Service

section Records

variable {κ : Type} [LinearOrder κ] {collation : String → κ}

-- the records so far and the last answer
structure Listing where
  records : List AwsResourceRecordSet := []
  res : Option ListResourceRecordSetsOutput := none

def nextInput (hostedZoneId : String) (res : Option ListResourceRecordSetsOutput) :
    ListResourceRecordSetsInput :=
  let nextRecordName := res.bind (·.nextRecordName)
  { hostedZoneId := hostedZoneId
    startRecordName := if nextRecordName.getD "" ≠ "" then nextRecordName else none }

def getRecordsTurn (zone : Zone collation) (hostedZoneId : String) (l : Listing) :
    Prog Requests String (Turn Listing Unit) := do
  let res ← zone.listResourceRecordSets (nextInput hostedZoneId l.res)
  let l' : Listing := ⟨l.records ++ res.resourceRecordSets.getD [], some res⟩
  return if res.isTruncated then .again l' else .leave l'

def getRecords (zone : Zone collation) (hostedZoneId : String) (fuel : Nat) :
    Prog Requests String (List AwsResourceRecordSet) := do
  match ← doWhile (getRecordsTurn zone hostedZoneId) fuel {} with
  | .inl l => return l.records
  | .inr _ => return []

variable {zone : Zone collation} {hostedZoneId : String} {l : Listing} {requests : Requests}
  {out : List AwsResourceRecordSet} {n p size : Nat}

def Zone.start (zone : Zone collation) (hostedZoneId : String) (l : Listing) : Nat :=
  zone.startOf (nextInput hostedZoneId l.res)

theorem isTruncated_iff {input : ListResourceRecordSetsInput} :
    (zone.answer size input).isTruncated = true ↔
      zone.startOf input + size < zone.records.length := by
  simp [Zone.answer]

-- the name in the cursor is never the empty string, so the start it gives is always sent
theorem startOf_nextInput {input : ListResourceRecordSetsInput}
    (h : zone.startOf input + size < zone.records.length) :
    zone.startOf (nextInput hostedZoneId (some (zone.answer size input))) =
      restart (nameKey collation) zone.records (zone.startOf input + size) := by
  have hget := List.getElem?_eq_getElem h
  have hnext : (zone.answer size input).nextRecordName =
      some zone.records[zone.startOf input + size].name := by
    simp only [Zone.answer, List.drop_drop, List.head?_drop, hget, Option.map_some]
  have hne := zone.named _ (List.getElem_mem h)
  have hstart : (nextInput hostedZoneId (some (zone.answer size input))).startRecordName =
      some zone.records[zone.startOf input + size].name := by
    simp only [nextInput, Option.bind_some, hnext, Option.getD_some, if_pos hne]
  rw [restart_of_getElem hget, Zone.startOf, hstart]
  rfl

-- the records so far with the page of a turn, and the answer it came in
def Zone.turned (zone : Zone collation) (hostedZoneId : String) (l : Listing) (size : Nat) :
    Listing :=
  ⟨l.records ++ (zone.records.drop (zone.start hostedZoneId l)).take size,
    some (zone.answer size (nextInput hostedZoneId l.res))⟩

theorem start_turned (h : zone.start hostedZoneId l + size < zone.records.length) :
    zone.start hostedZoneId (zone.turned hostedZoneId l size) =
      restart (nameKey collation) zone.records (zone.start hostedZoneId l + size) :=
  startOf_nextInput h

theorem getRecordsTurn_again
    (h : zone.start hostedZoneId l + zone.pageSize requests.length < zone.records.length) :
    getRecordsTurn zone hostedZoneId l requests =
      (.returned (.again (zone.turned hostedZoneId l (zone.pageSize requests.length))),
        requests ++ [nextInput hostedZoneId l.res]) := by
  have htruncated := isTruncated_iff.mpr h
  change (Outcome.returned (if _ then _ else _), _) = _
  rw [if_pos htruncated]
  rfl

theorem getRecordsTurn_leave
    (h : ¬ zone.start hostedZoneId l + zone.pageSize requests.length < zone.records.length) :
    getRecordsTurn zone hostedZoneId l requests =
      (.returned (.leave (zone.turned hostedZoneId l (zone.pageSize requests.length))),
        requests ++ [nextInput hostedZoneId l.res]) := by
  have htruncated := fun ht => h (isTruncated_iff.mp ht)
  change (Outcome.returned (if _ then _ else _), _) = _
  rw [if_neg htruncated]
  rfl

theorem pagesFrom_of_doWhile {l' : Listing ⊕ Unit} {t : Requests}
    (h : doWhile (getRecordsTurn zone hostedZoneId) n l requests = (.returned l', t)) :
    ∃ l'' out, l' = .inl l'' ∧ l''.records = l.records ++ out ∧
      pagesFrom (nameKey collation) zone.records zone.pageSize n requests.length
        (zone.start hostedZoneId l) = some out := by
  induction n generalizing l requests with
  | zero => cases h
  | succ n ih =>
    rw [doWhile_succ] at h
    rw [pagesFrom]
    by_cases hlt : zone.start hostedZoneId l + zone.pageSize requests.length < zone.records.length
    · rw [bind_of_returned (getRecordsTurn_again hlt)] at h
      obtain ⟨l'', rest, rfl, hl'', hrest⟩ := ih h
      rw [List.length_append, List.length_singleton, start_turned hlt] at hrest
      refine ⟨l'', _, rfl, ?_, by rw [if_pos hlt, hrest, Option.map_some]⟩
      rw [hl'', ← List.append_assoc]
      rfl
    · rw [bind_of_returned (getRecordsTurn_leave hlt)] at h
      cases h
      exact ⟨_, _, rfl, rfl, if_neg hlt⟩

theorem doWhile_of_pagesFrom
    (h : pagesFrom (nameKey collation) zone.records zone.pageSize n requests.length
      (zone.start hostedZoneId l) = some out) :
    ∃ l' t, doWhile (getRecordsTurn zone hostedZoneId) n l requests = (.returned (.inl l'), t) ∧
      l'.records = l.records ++ out := by
  induction n generalizing l requests out with
  | zero => cases h
  | succ n ih =>
    rw [doWhile_succ]
    rw [pagesFrom] at h
    by_cases hlt : zone.start hostedZoneId l + zone.pageSize requests.length < zone.records.length
    · rw [bind_of_returned (getRecordsTurn_again hlt)]
      rw [if_pos hlt, ← start_turned hlt] at h
      obtain ⟨rest, hrest, rfl⟩ := Option.map_eq_some_iff.mp h
      have hlen : requests.length + 1 = (requests ++ [nextInput hostedZoneId l.res]).length := by
        rw [List.length_append, List.length_singleton]
      rw [hlen] at hrest
      obtain ⟨l', t, hrun, hl'⟩ := ih hrest
      refine ⟨l', t, hrun, ?_⟩
      rw [hl', ← List.append_assoc]
      rfl
    · rw [bind_of_returned (getRecordsTurn_leave hlt)]
      rw [if_neg hlt] at h
      cases h
      exact ⟨_, _, rfl, rfl⟩

theorem getRecords_returns_iff :
    (∃ t, getRecords zone hostedZoneId n [] = (.returned out, t)) ↔
      pagesFrom (nameKey collation) zone.records zone.pageSize n 0 0 = some out := by
  constructor
  · rintro ⟨t, h⟩
    obtain ⟨l', u, hrun, hl⟩ := bind_returned_inv h
    obtain ⟨l'', out', rfl, hl'', hpages⟩ := pagesFrom_of_doWhile hrun
    cases hl
    rw [hl'']
    exact hpages
  · intro h
    obtain ⟨l', t, hrun, hl'⟩ := @doWhile_of_pagesFrom _ _ _ zone hostedZoneId {} [] out n h
    refine ⟨t, ?_⟩
    rw [getRecords, bind_of_returned hrun]
    exact congrArg (fun records => (Outcome.returned records, t)) hl'

end Records

section Exactness

variable {κ : Type} [LinearOrder κ] {collation : String → κ}

-- it ends, with every record set of the zone exactly once
def ListsExactly (zone : Zone collation) (hostedZoneId : String) : Prop :=
  ∃ fuel records requests, getRecords zone hostedZoneId fuel [] = (.returned records, requests) ∧
    records.Perm zone.records

-- no page ends between two record sets of one name
def CutsBetweenNames (zone : Zone collation) : Prop :=
  ∀ k r s, zone.records[offset zone.pageSize 0 (k + 1) - 1]? = some r →
    zone.records[offset zone.pageSize 0 (k + 1)]? = some s → r.name ≠ s.name

theorem sorted_names (zone : Zone collation) :
    zone.records.Pairwise fun r s => nameKey collation r ≤ nameKey collation s := by
  refine zone.sorted.imp ?_
  rintro r s (h | ⟨h, -⟩)
  · exact le_of_lt h
  · exact le_of_eq (congrArg collation h)

theorem nameKey_lt_iff (zone : Zone collation) {n : Nat} {r s : AwsResourceRecordSet}
    (hr : zone.records[n]? = some r) (hs : zone.records[n + 1]? = some s) :
    nameKey collation r < nameKey collation s ↔ r.name ≠ s.name := by
  obtain ⟨hlt, rfl⟩ := List.getElem?_eq_some_iff.mp hr
  obtain ⟨hlt', rfl⟩ := List.getElem?_eq_some_iff.mp hs
  have hbefore := List.pairwise_iff_getElem.mp zone.sorted n (n + 1) hlt hlt' (Nat.lt_succ_self n)
  constructor
  · intro h heq
    exact absurd h (by rw [nameKey, nameKey, heq]; exact lt_irrefl _)
  · intro hne
    rcases hbefore with h | ⟨h, -⟩
    · exact h
    · exact absurd h hne

theorem undisturbed_iff (zone : Zone collation) :
    Undisturbed (nameKey collation) zone.records zone.pageSize 0 0 ↔ CutsBetweenNames zone := by
  simp only [Undisturbed, Nat.zero_add, CutsBetweenNames]
  refine forall_congr' fun k => ?_
  obtain ⟨m, hm⟩ := Nat.exists_eq_succ_of_ne_zero (Nat.ne_of_gt (offset_pos zone.pageSize_pos 0 k))
  rw [hm, Nat.succ_eq_add_one, Nat.add_sub_cancel]
  constructor
  · intro h r s hr hs
    have hlt := (List.getElem?_eq_some_iff.mp hs).1
    exact (nameKey_lt_iff zone hr hs).mp ((restart_succ_iff (sorted_names zone) hr hs).mp (h hlt))
  · intro h hlt
    have hr := List.getElem?_eq_getElem (Nat.lt_of_succ_lt hlt)
    have hs := List.getElem?_eq_getElem hlt
    have hne := h _ _ hr hs
    exact (restart_succ_iff (sorted_names zone) hr hs).mpr ((nameKey_lt_iff zone hr hs).mpr hne)

theorem listsExactly_iff_undisturbed (zone : Zone collation) (hostedZoneId : String) :
    ListsExactly zone hostedZoneId ↔
      Undisturbed (nameKey collation) zone.records zone.pageSize 0 0 := by
  rw [← pagesFrom_once_iff zone.pageSize_pos, List.drop_zero]
  constructor
  · rintro ⟨fuel, records, requests, hrun, hperm⟩
    exact ⟨fuel, records, getRecords_returns_iff.mp ⟨requests, hrun⟩, hperm⟩
  · rintro ⟨fuel, records, hpages, hperm⟩
    obtain ⟨requests, hrun⟩ := getRecords_returns_iff.mpr hpages
    exact ⟨fuel, records, requests, hrun, hperm⟩

theorem listsExactly_iff (zone : Zone collation) (hostedZoneId : String) :
    ListsExactly zone hostedZoneId ↔ CutsBetweenNames zone :=
  (listsExactly_iff_undisturbed zone hostedZoneId).trans (undisturbed_iff zone)

-- every page starts at the first of the two again
def oneByOne : Zone String.length where
  records := [
    { name := "example.com.", type := .A, ttl := some 300, resourceRecords := some ["192.0.2.1"] },
    { name := "example.com.", type := .TXT, ttl := some 300, resourceRecords := some ["\"x\""] }]
  sorted := by
    refine List.pairwise_pair.mpr (.inr ⟨rfl, .inl ?_⟩)
    decide
  named := by decide
  pageSize := fun _ => 1
  pageSize_pos := fun _ => Nat.one_pos

theorem oneByOne_not_listed : ¬ ListsExactly oneByOne "/hostedzone/Z1" := by
  rw [listsExactly_iff_undisturbed]
  intro h
  exact absurd (h 0 (by decide)) (by decide)

end Exactness

end Iasql.Route53
