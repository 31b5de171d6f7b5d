import Iasql.Calculus.Separated
import Iasql.CertificateRequest

namespace Iasql.Acm

open Program Prog Aws Route53

section Occurrence

def unrooted (name : List Char) : List Char := if name.getLast? = some '.' then name.dropLast else name

def labels (name : String) : List (List Char) := (unrooted name.toList).splitOn '.'

-- the zone's name is the domain or a suffix of it made of whole labels
def Covers (zone : HostedZone) (domainName : String) : Prop := labels zone.domainName <:+ labels domainName

def Longest (zones : List HostedZone) (domainName : String) (zone : HostedZone) : Prop :=
  zone ∈ zones ∧ Covers zone domainName ∧ ∀ other ∈ zones, Covers other domainName →
    (domainToCheck other).toList.length ≤ (domainToCheck zone).toList.length

-- the zone's name stands in the domain, and not at its start
def Occurs (zone : HostedZone) (domainName : String) : Prop :=
  (domainToCheck zone).toList <:+: domainName.toList ∧ ¬ (domainToCheck zone).toList <+: domainName.toList

variable {zones : List HostedZone} {zone : HostedZone} {domainName : String}

theorem infix_iff_prefix_drop {xs ys : List Char} : xs <:+: ys ↔ ∃ i ≤ ys.length, xs <+: ys.drop i := by
  constructor
  · rintro ⟨pre, post, rfl⟩
    refine ⟨pre.length, by simp, ?_⟩
    rw [List.append_assoc, List.drop_left]
    exact List.prefix_append xs post
  · rintro ⟨i, -, h⟩
    exact h.isInfix.trans (List.drop_suffix i ys).isInfix

theorem getNameFromDomain_ne_empty {domain : String} :
    getNameFromDomain domainName domain ≠ "" ↔
      domain.toList <:+: domainName.toList ∧ ¬ domain.toList <+: domainName.toList := by
  rw [getNameFromDomain]
  cases hindex : indexOf domainName domain with
  | none =>
    refine iff_of_false (fun h => h (by simp)) fun h => ?_
    obtain ⟨i, hi, hprefix⟩ := infix_iff_prefix_drop.mp h.1
    obtain ⟨j, hj⟩ := indexOf_isSome hprefix hi
    rw [hindex] at hj
    cases hj
  | some i =>
    obtain ⟨hi, hprefix, hbefore⟩ := List.find?_range_eq_some.mp hindex
    have hinfix : domain.toList <:+: domainName.toList :=
      infix_iff_prefix_drop.mpr ⟨i, Nat.le_of_lt_succ (List.mem_range.mp hprefix), List.isPrefixOf_iff_prefix.mp hi⟩
    rw [and_iff_right hinfix, Option.getD_some]
    by_cases hzero : i = 0
    · rw [hzero] at hi ⊢
      exact iff_of_false (fun h => h rfl) fun h => h (List.isPrefixOf_iff_prefix.mp hi)
    · have hlen : i ≤ domainName.toList.length := Nat.le_of_lt_succ (List.mem_range.mp hprefix)
      refine iff_of_true (fun h => ?_) fun h => ?_
      · have htake := congrArg (fun s : String => s.toList.length) h
        rw [String.toList_ofList, List.length_take, Nat.min_eq_left hlen] at htake
        exact hzero htake
      · have hfirst := hbefore 0 (Nat.pos_of_ne_zero hzero)
        rw [List.drop_zero, List.isPrefixOf_iff_prefix.mpr h] at hfirst
        cases hfirst

theorem occurs_iff : (getNameFromDomain domainName (domainToCheck zone) != "") = true ↔ Occurs zone domainName := by
  rw [bne_iff_ne, getNameFromDomain_ne_empty, Occurs]

theorem parentZone_eq_some : parentZone zones domainName = some zone ↔
    ∃ pre post, zones = pre ++ zone :: post ∧ (∀ other ∈ pre, ¬ Occurs other domainName) ∧ Occurs zone domainName := by
  rw [parentZone, List.find?_eq_some_iff_append, occurs_iff]
  constructor
  · rintro ⟨hoccurs, pre, post, rfl, hpre⟩
    refine ⟨pre, post, rfl, fun other hother h => ?_, hoccurs⟩
    have hno := hpre other hother
    rw [occurs_iff.mpr h] at hno
    cases hno
  · rintro ⟨pre, post, rfl, hpre, hoccurs⟩
    refine ⟨hoccurs, pre, post, rfl, fun other hother => ?_⟩
    rw [Bool.not_eq_true', Bool.eq_false_iff]
    exact fun h => hpre other hother (occurs_iff.mp h)

theorem parentZone_eq_none : parentZone zones domainName = none ↔ ∀ zone ∈ zones, ¬ Occurs zone domainName := by
  rw [parentZone, List.find?_eq_none]
  exact forall₂_congr fun zone _ => not_congr occurs_iff

end Occurrence

section Selection

-- the record that a domain of the certificate leads to
def optionRecord (zones : List HostedZone) (o : DomainValidation) : Option ResourceRecordSet :=
  if Aws.truthy o.domainName && Aws.truthy o.validationDomain then
    match parentZone zones (o.domainName.getD ""), o.resourceRecord with
    | some zone, some resourceRecord =>
      if Aws.truthy resourceRecord.name then
        some (validationRecord zone (resourceRecord.name.getD "") resourceRecord.value)
      else none
    | _, _ => none
  else none

-- what is written for a domain: into the zone with the longest name that covers it, or nothing
structure RightZone (zones : List HostedZone) (domainName : String) (written : Option ResourceRecordSet) : Prop where
  covered : (∃ zone ∈ zones, Covers zone domainName) →
    ∃ record, written = some record ∧ Longest zones domainName record.parentHostedZone
  uncovered : (¬ ∃ zone ∈ zones, Covers zone domainName) → written = none

-- before any other zone that occurs in the domain stands the right one
def RightFirst (zones : List HostedZone) (domainName : String) : Prop :=
  ∃ pre zone post, zones = pre ++ zone :: post ∧ (∀ other ∈ pre, ¬ Occurs other domainName) ∧
    Occurs zone domainName ∧ Longest zones domainName zone

variable {svc : Service} {i : Nat} {o : DomainValidation} {options : List DomainValidation} {s t : State}
  {created : List ResourceRecordSet} {zones : List HostedZone} {domainName : String}

theorem createRecord_changes {record : ResourceRecordSet} (hclient : svc.fault (.route53Client i) = none) :
    (createRecord svc i record s).2.changes = s.changes ++ [record] := by
  rw [createRecord, hclient, check_none_bind, writes_bind_apply]
  have hkeep : (Frame.ofField State.changes).Keeps
      (check (svc.fault (.createRecord i)) >>= fun _ => reads State.records >>= fun records =>
        if ∃ r ∈ records, recordKey r = recordKey record then fail invalidChangeBatch
        else writes (fun s => { s with records := s.records ++ [record] }) >>= fun _ =>
          check (svc.fault (.getRecord i)) >>= fun _ => pure (svc.reread i) : Prog State Thrown _) := by
    refine Frame.keeps_bind (Frame.keeps_check _) fun _ => Frame.keeps_bind (Frame.keeps_reads _) fun _ => ?_
    refine Frame.keeps_ite (Frame.keeps_fail _) ?_
    exact Frame.keeps_bind (Frame.keeps_writes fun _ => rfl) fun _ =>
      Frame.keeps_bind (Frame.keeps_check _) fun _ => Frame.keeps_pure _
  exact hkeep _

-- a turn that returns has asked for the record of its option
theorem validateOption_changes (h : validateOption svc i o s = (.returned created, t)) :
    t.changes = s.changes ++ (optionRecord (svc.zones.getD []) o).toList := by
  rw [validateOption] at h
  rw [optionRecord]
  split at h
  · next htruthy =>
    rw [if_pos htruthy]
    obtain ⟨-, h⟩ := check_bind_returned h
    cases hzone : parentZone (svc.zones.getD []) (o.domainName.getD "") with
    | none =>
      rw [hzone] at h
      cases h
      exact (List.append_nil _).symm
    | some zone =>
      cases hrecord : o.resourceRecord with
      | none =>
        rw [hzone, hrecord] at h
        cases h
        exact (List.append_nil _).symm
      | some resourceRecord =>
        rw [hzone, hrecord] at h
        dsimp only at h ⊢
        split at h
        · next hname =>
          rw [if_pos hname, Option.toList_some]
          obtain ⟨r, u, hcreate, h⟩ := bind_returned_inv h
          cases r with
          | error err => cases h
          | ok reread =>
            have hcreated := attempt_ok.mp hcreate
            have hchanges := @createRecord_changes svc i s
              (validationRecord zone (resourceRecord.name.getD "") resourceRecord.value) (check_bind_returned hcreated).1
            rw [hcreated] at hchanges
            cases reread with
            | none => cases h; exact hchanges
            | some _ => cases h; exact hchanges
        · next hname =>
          rw [if_neg hname]
          cases h
          exact (List.append_nil _).symm
  · next htruthy =>
    rw [if_neg htruthy]
    cases h
    exact (List.append_nil _).symm

theorem validateOptions_changes (h : validateOptions svc i options s = (.returned created, t)) :
    t.changes = s.changes ++ options.filterMap (optionRecord (svc.zones.getD [])) := by
  induction options generalizing i s created with
  | nil =>
    cases h
    exact (List.append_nil _).symm
  | cons o os ih =>
    rw [validateOptions] at h
    obtain ⟨first, u, hfirst, h⟩ := bind_returned_inv h
    obtain ⟨rest, v, hrest, h⟩ := bind_returned_inv h
    cases h
    rw [ih hrest, validateOption_changes hfirst, List.append_assoc, List.filterMap_cons]
    cases optionRecord (svc.zones.getD []) o <;> rfl

theorem optionRecord_of_no_validation_domain (h : Aws.truthy o.validationDomain = false) :
    optionRecord zones o = none := by
  rw [optionRecord, h, Bool.and_false]
  rfl

theorem optionRecord_eq {record : ResourceRecord} (hdomain : Aws.truthy o.domainName = true)
    (hvalidation : Aws.truthy o.validationDomain = true) (hrecord : o.resourceRecord = some record)
    (hname : Aws.truthy record.name = true) :
    optionRecord zones o = (parentZone zones (o.domainName.getD "")).map fun zone =>
      validationRecord zone (record.name.getD "") record.value := by
  rw [optionRecord, hdomain, hvalidation, hrecord]
  cases parentZone zones (o.domainName.getD "") with
  | none => rfl
  | some zone => exact if_pos hname

theorem rightZone_none_iff : RightZone zones domainName none ↔ ∀ zone ∈ zones, ¬ Covers zone domainName := by
  constructor
  · intro h zone hzone hcovers
    obtain ⟨_, hnone, -⟩ := h.covered ⟨zone, hzone, hcovers⟩
    cases hnone
  · intro h
    exact ⟨fun ⟨zone, hzone, hcovers⟩ => absurd hcovers (h zone hzone), fun _ => rfl⟩

theorem rightZone_some_iff {record : ResourceRecordSet} :
    RightZone zones domainName (some record) ↔ Longest zones domainName record.parentHostedZone := by
  constructor
  · intro h
    by_cases hcovered : ∃ zone ∈ zones, Covers zone domainName
    · obtain ⟨_, hsome, hlongest⟩ := h.covered hcovered
      cases hsome
      exact hlongest
    · cases h.uncovered hcovered
  · intro h
    exact ⟨fun _ => ⟨record, rfl, h⟩, fun hnone => absurd ⟨_, h.1, h.2.1⟩ hnone⟩

-- the zone of a domain with a validation record is the right one exactly where it stands first
theorem rightZone_iff {record : ResourceRecord} (hdomain : Aws.truthy o.domainName = true)
    (hrecord : o.resourceRecord = some record) (hname : Aws.truthy record.name = true) :
    RightZone zones (o.domainName.getD "") (optionRecord zones o) ↔
      Aws.truthy o.validationDomain = true ∧ RightFirst zones (o.domainName.getD "") ∨
        (∀ zone ∈ zones, ¬ Covers zone (o.domainName.getD "")) ∧
          (Aws.truthy o.validationDomain = true → ∀ zone ∈ zones, ¬ Occurs zone (o.domainName.getD "")) := by
  by_cases hvalidation : Aws.truthy o.validationDomain = true
  · rw [optionRecord_eq hdomain hvalidation hrecord hname, and_iff_right hvalidation, forall_prop_of_true hvalidation]
    cases hzone : parentZone zones (o.domainName.getD "") with
    | none =>
      have hnone := parentZone_eq_none.mp hzone
      rw [Option.map_none, rightZone_none_iff, and_iff_left hnone]
      refine (or_iff_right ?_).symm
      rintro ⟨pre, zone, post, rfl, -, hoccurs, -⟩
      exact hnone zone (by simp) hoccurs
    | some zone =>
      have hsplit := parentZone_eq_some.mp hzone
      obtain ⟨pre, post, hzones, hpre, hoccurs⟩ := hsplit
      rw [Option.map_some, rightZone_some_iff]
      constructor
      · intro hlongest
        exact .inl ⟨pre, zone, post, hzones, hpre, hoccurs, hlongest⟩
      · rintro (⟨pre', other, post', hzones', hpre', hoccurs', hlongest⟩ | ⟨-, hnone⟩)
        · have hother := parentZone_eq_some.mpr ⟨pre', post', hzones', hpre', hoccurs'⟩
          obtain rfl : zone = other := Option.some.inj (hzone.symm.trans hother)
          exact hlongest
        · exact absurd hoccurs (hnone zone (hzones ▸ by simp))
  · rw [optionRecord_of_no_validation_domain (Bool.not_eq_true _ ▸ hvalidation), rightZone_none_iff]
    constructor
    · exact fun h => .inr ⟨h, fun hyes => absurd hyes hvalidation⟩
    · rintro (⟨hyes, -⟩ | ⟨h, -⟩)
      · exact absurd hyes hvalidation
      · exact h

theorem describeOptions_snd : (describeOptions svc s).2 = s := by
  by_cases hpolls : Polls (fun i => svc.fault (.describeOptions i)) (fun i => (svc.described i).filter canValidate) 30 0
  · rw [describeOptions, poll_of_polls hpolls]
  · obtain ⟨e, hthrown⟩ := @poll_of_not_polls _ _ _ s _ _ _ _ hpolls
    rw [describeOptions, hthrown]

-- the records that are asked for, one for each domain, and where they go
theorem validateCertificate_zones {u : State}
    (hdescribe : describeOptions svc s = (.returned (some options), u))
    (h : validateCertificate svc s = (.returned (), t)) :
    t.changes = s.changes ++ options.filterMap (optionRecord (svc.zones.getD [])) ∧
      ∀ o ∈ options, Aws.truthy o.domainName = true →
        (∃ record, o.resourceRecord = some record ∧ Aws.truthy record.name = true) →
        (RightZone (svc.zones.getD []) (o.domainName.getD "") (optionRecord (svc.zones.getD []) o) ↔
          Aws.truthy o.validationDomain = true ∧ RightFirst (svc.zones.getD []) (o.domainName.getD "") ∨
            (∀ zone ∈ svc.zones.getD [], ¬ Covers zone (o.domainName.getD "")) ∧
              (Aws.truthy o.validationDomain = true →
                ∀ zone ∈ svc.zones.getD [], ¬ Occurs zone (o.domainName.getD ""))) := by
  constructor
  · have hstate := @describeOptions_snd svc s
    rw [hdescribe] at hstate
    subst hstate
    rw [validateCertificate, bind_of_returned hdescribe] at h
    obtain ⟨created, v, hcreated, h⟩ := bind_returned_inv h
    obtain ⟨_, w, hwait, h⟩ := bind_returned_inv h
    have hkept : (Frame.ofField State.changes).rel v w :=
      Frame.rel_of_eq (Frame.keeps_ite (Frame.keeps_check _) (Frame.keeps_pure _)) hwait
    cases h
    exact hkept.trans (validateOptions_changes hcreated)
  · rintro o - hdomain ⟨record, hrecord, hname⟩
    exact rightZone_iff hdomain hrecord hname

def exampleZone : HostedZone := { hostedZoneId := some "Z1", domainName := "example.com." }

def proof : ResourceRecord := { name := some "_x.example.com.", value := some "_y.acm-validations.aws." }

def optionFor (domainName : String) : DomainValidation where
  domainName := some domainName
  validationDomain := some domainName
  resourceRecord := some proof

def exampleService (domainName : String) : Service where
  described _ := some [optionFor domainName]
  zones := some [exampleZone]
  reread _ := some (validationRecord exampleZone "_x.example.com." proof.value)
  issued_of_status := by rintro ⟨⟩

theorem www_record_written :
    (validateCertificate (exampleService "www.example.com") {}).2.changes =
      [validationRecord exampleZone "_x.example.com." proof.value] := by
  refine ((@validateCertificate_zones (exampleService "www.example.com") [optionFor "www.example.com"] {} _ {} rfl
    (run_eq rfl)).1).trans ?_
  decide

-- a domain that is a zone of its own gets no record
theorem apex_record_missing :
    exampleZone ∈ [exampleZone] ∧ Covers exampleZone "example.com" ∧
      validateCertificate (exampleService "example.com") {} = (.returned (), {}) ∧
      ¬ RightZone [exampleZone] "example.com" (optionRecord [exampleZone] (optionFor "example.com")) := by
  have hcovers : Covers exampleZone "example.com" := by
    unfold Covers
    decide
  refine ⟨List.mem_singleton_self _, hcovers, rfl, fun h => ?_⟩
  obtain ⟨_, hnone, -⟩ := h.covered ⟨exampleZone, List.mem_singleton_self _, hcovers⟩
  have hwritten : optionRecord [exampleZone] (optionFor "example.com") = none := by decide
  rw [hwritten] at hnone
  cases hnone

end Selection

end Iasql.Acm
