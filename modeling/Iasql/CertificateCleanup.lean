import Iasql.ZoneSelection

namespace Iasql.Acm

open Program Prog Aws Route53

section Records

-- only the records change, by new ones at the end
structure Grows (u t : State) (new : List ResourceRecordSet) : Prop where
  records : t.records = u.records ++ new
  certificates : t.certificates = u.certificates
  rows : t.rows = u.rows
  memo : t.memo = u.memo

def Apart (base new : List ResourceRecordSet) : Prop :=
  (new.map recordKey).Nodup ∧ ∀ r ∈ new, ∀ x ∈ base, recordKey x ≠ recordKey r

-- the creation of the record itself goes through
def Creates (svc : Service) (i : Nat) (r : ResourceRecordSet) (records : List ResourceRecordSet) : Prop :=
  svc.fault (.route53Client i) = none ∧ svc.fault (.createRecord i) = none ∧
    ∀ x ∈ records, recordKey x ≠ recordKey r

def Rereads (svc : Service) (i : Nat) : Prop := svc.fault (.getRecord i) = none ∧ svc.reread i ≠ none

def ReadsZones (svc : Service) (i : Nat) (o : DomainValidation) : Prop :=
  (Aws.truthy o.domainName && Aws.truthy o.validationDomain) = true → svc.fault (.readZones i) = none

-- from here on each record that is wanted is made and found again
def Complete (svc : Service) : Nat → List DomainValidation → List ResourceRecordSet → Prop
  | _, [], _ => True
  | i, o :: os, records => ReadsZones svc i o ∧
    match optionRecord (svc.zones.getD []) o with
    | none => Complete svc (i + 1) os records
    | some r => Creates svc i r records ∧ Rereads svc i ∧ Complete svc (i + 1) os (records ++ [r])

-- the loop is left before the first record, or nothing goes wrong from there on
def Clean (svc : Service) : Nat → List DomainValidation → List ResourceRecordSet → Prop
  | _, [], _ => True
  | i, o :: os, records => ReadsZones svc i o →
    match optionRecord (svc.zones.getD []) o with
    | none => Clean svc (i + 1) os records
    | some r => Creates svc i r records →
      Rereads svc i ∧ Complete svc (i + 1) os (records ++ [r]) ∧ svc.fault .waitUntilIssued = none

variable {svc : Service} {i : Nat} {o : DomainValidation} {options : List DomainValidation} {s t u : State}
  {r : ResourceRecordSet} {new created : List ResourceRecordSet}

theorem Grows.refl : Grows u u [] := ⟨(List.append_nil _).symm, rfl, rfl, rfl⟩

theorem Grows.trans {v : State} {more : List ResourceRecordSet} (h : Grows u t new) (k : Grows t v more) :
    Grows u v (new ++ more) where
  records := by rw [k.records, h.records, List.append_assoc]
  certificates := k.certificates.trans h.certificates
  rows := k.rows.trans h.rows
  memo := k.memo.trans h.memo

def State.asked (r : ResourceRecordSet) (s : State) : State := { s with changes := s.changes ++ [r] }

def State.made (r : ResourceRecordSet) (s : State) : State := { s.asked r with records := s.records ++ [r] }

theorem grows_asked : Grows u (u.asked r) [] := ⟨(List.append_nil _).symm, rfl, rfl, rfl⟩

theorem grows_made : Grows u (u.made r) [r] := ⟨rfl, rfl, rfl, rfl⟩

theorem createRecord_of_not_creates (h : ¬ Creates svc i r u.records) :
    ∃ e t, createRecord svc i r u = (.thrown e, t) ∧ Grows u t [] := by
  rw [createRecord]
  cases hclient : svc.fault (.route53Client i) with
  | some e => exact ⟨e, u, rfl, .refl⟩
  | none =>
    rw [check_none_bind, writes_bind_apply]
    cases hcreate : svc.fault (.createRecord i) with
    | some e => exact ⟨e, _, rfl, grows_asked⟩
    | none =>
      have hclash : ∃ x ∈ u.records, recordKey x = recordKey r := by
        by_contra hno
        exact h ⟨hclient, hcreate, fun x hx heq => hno ⟨x, hx, heq⟩⟩
      rw [check_none_bind, reads_bind_apply]
      dsimp only
      rw [if_pos hclash]
      exact ⟨_, _, rfl, grows_asked⟩

theorem createRecord_of_creates (h : Creates svc i r u.records) :
    createRecord svc i r u = (check (svc.fault (.getRecord i)) >>= fun _ => pure (svc.reread i)) (u.made r) := by
  obtain ⟨hclient, hcreate, hclash⟩ := h
  have hclash : ¬ ∃ x ∈ u.records, recordKey x = recordKey r := fun ⟨x, hx, heq⟩ => hclash x hx heq
  rw [createRecord, hclient, check_none_bind, writes_bind_apply, hcreate, check_none_bind, reads_bind_apply]
  dsimp only
  rw [if_neg hclash]
  rfl

theorem validateOption_unread (h : ¬ ReadsZones svc i o) : ∃ e, validateOption svc i o u = (.thrown e, u) := by
  obtain ⟨htruthy, hfault⟩ := Classical.not_imp.mp h
  obtain ⟨e, hfault⟩ := Option.ne_none_iff_exists'.mp hfault
  rw [validateOption, if_pos htruthy, hfault]
  exact ⟨e, rfl⟩

theorem validateOption_none (hreads : ReadsZones svc i o) (h : optionRecord (svc.zones.getD []) o = none) :
    validateOption svc i o u = (.returned [], u) := by
  rw [optionRecord] at h
  rw [validateOption]
  split
  · next htruthy =>
    rw [if_pos htruthy] at h
    rw [hreads htruthy, check_none_bind]
    cases hzone : parentZone (svc.zones.getD []) (o.domainName.getD "") with
    | none => rfl
    | some zone =>
      cases hrecord : o.resourceRecord with
      | none => rfl
      | some resourceRecord =>
        rw [hzone, hrecord] at h
        dsimp only at h ⊢
        split at h
        · cases h
        · next hname =>
          rw [if_neg hname]
          rfl
  · rfl

theorem validateOption_some (hreads : ReadsZones svc i o) (h : optionRecord (svc.zones.getD []) o = some r) :
    validateOption svc i o u = (attempt (createRecord svc i r) >>= fun
      | .error _ => fail couldNotValidate
      | .ok (some _) => pure [r]
      | .ok none => pure [] : Prog State Thrown (List ResourceRecordSet)) u := by
  rw [optionRecord] at h
  rw [validateOption]
  split at h
  · next htruthy =>
    rw [if_pos htruthy, hreads htruthy, check_none_bind]
    cases hzone : parentZone (svc.zones.getD []) (o.domainName.getD "") with
    | none =>
      rw [hzone] at h
      cases h
    | some zone =>
      cases hrecord : o.resourceRecord with
      | none =>
        rw [hzone, hrecord] at h
        cases h
      | some resourceRecord =>
        rw [hzone, hrecord] at h
        dsimp only at h ⊢
        split at h
        · next hname =>
          rw [if_pos hname]
          cases h
          rfl
        · cases h
  · cases h

theorem Apart.nil {base : List ResourceRecordSet} : Apart base [] :=
  ⟨List.nodup_nil, fun _ h => absurd h List.not_mem_nil⟩

theorem Apart.cons {base : List ResourceRecordSet} (hr : ∀ x ∈ base, recordKey x ≠ recordKey r)
    (h : Apart (base ++ [r]) new) : Apart base (r :: new) := by
  refine ⟨List.nodup_cons.mpr ⟨fun hin => ?_, h.1⟩, fun x hx y hy => ?_⟩
  · obtain ⟨x, hx, heq⟩ := List.mem_map.mp hin
    exact h.2 x hx r (by simp) heq.symm
  · rcases List.mem_cons.mp hx with rfl | hx
    · exact hr y hy
    · exact h.2 x hx y (List.mem_append_left _ hy)

-- where the loop leads: an exception, or the records that were made and found
inductive LoopRun (svc : Service) (i : Nat) (options : List DomainValidation) (u t : State) (new : List ResourceRecordSet) : Prop
  | thrown (e : Thrown) (run : validateOptions svc i options u = (.thrown e, t))
      (incomplete : ¬ Complete svc i options u.records) (clean : Clean svc i options u.records ↔ new = [])
  | returned (created : List ResourceRecordSet) (run : validateOptions svc i options u = (.returned created, t))
      (sublist : created.Sublist new) (complete : Complete svc i options u.records ↔ created = new)
      (clean : Clean svc i options u.records ↔ created = new ∧ (new ≠ [] → svc.fault .waitUntilIssued = none))
      (all : new = options.filterMap (optionRecord (svc.zones.getD [])))

theorem LoopRun.of_none {os : List DomainValidation} (hreads : ReadsZones svc i o)
    (hnone : optionRecord (svc.zones.getD []) o = none) (h : LoopRun svc (i + 1) os u t new) :
    LoopRun svc i (o :: os) u t new := by
  have hcomplete : Complete svc i (o :: os) u.records ↔ Complete svc (i + 1) os u.records := by
    rw [Complete, and_iff_right hreads, hnone]
  have hclean : Clean svc i (o :: os) u.records ↔ Clean svc (i + 1) os u.records := by
    rw [Clean, forall_prop_of_true hreads, hnone]
  have hall : (o :: os).filterMap (optionRecord (svc.zones.getD [])) = os.filterMap (optionRecord (svc.zones.getD [])) :=
    List.filterMap_cons_none hnone
  cases h with
  | thrown e run incomplete clean =>
    refine .thrown e ?_ (hcomplete.not.mpr incomplete) (hclean.trans clean)
    rw [validateOptions, bind_of_returned (validateOption_none hreads hnone), bind_of_thrown run]
  | returned created run sublist complete clean all =>
    refine .returned created ?_ sublist (hcomplete.trans complete) (hclean.trans clean) (hall ▸ all)
    rw [validateOptions, bind_of_returned (validateOption_none hreads hnone), bind_of_returned run]
    rfl

theorem LoopRun.of_unread {os : List DomainValidation} (hreads : ¬ ReadsZones svc i o) : LoopRun svc i (o :: os) u u [] := by
  obtain ⟨e, he⟩ := @validateOption_unread svc i o u hreads
  refine .thrown e ?_ ?_ ?_
  · rw [validateOptions, bind_of_thrown he]
  · rw [Complete]
    exact fun h => hreads h.1
  · rw [Clean]
    exact iff_of_true (fun h => absurd h hreads) rfl

theorem LoopRun.of_not_creates {os : List DomainValidation} (hreads : ReadsZones svc i o)
    (hsome : optionRecord (svc.zones.getD []) o = some r) (hcreates : ¬ Creates svc i r u.records) :
    ∃ t, LoopRun svc i (o :: os) u t [] ∧ Grows u t [] := by
  obtain ⟨e, t, hthrown, hgrows⟩ := createRecord_of_not_creates hcreates
  refine ⟨t, .thrown couldNotValidate ?_ ?_ ?_, hgrows⟩
  · rw [validateOptions, bind_apply, validateOption_some hreads hsome, bind_of_returned (attempt_error.mpr hthrown)]
    rfl
  · rw [Complete, hsome]
    exact fun h => hcreates h.2.1
  · rw [Clean, hsome]
    exact iff_of_true (fun _ h => absurd h hcreates) rfl

theorem validateOption_lost {e : Thrown} (hreads : ReadsZones svc i o)
    (hsome : optionRecord (svc.zones.getD []) o = some r) (hcreates : Creates svc i r u.records)
    (hfault : svc.fault (.getRecord i) = some e) :
    validateOption svc i o u = (.thrown couldNotValidate, u.made r) := by
  have hcreate : createRecord svc i r u = (.thrown e, u.made r) := by
    rw [createRecord_of_creates hcreates, hfault, check_some_bind]
  rw [validateOption_some hreads hsome, bind_of_returned (attempt_error.mpr hcreate)]
  rfl

theorem validateOption_made (hreads : ReadsZones svc i o) (hsome : optionRecord (svc.zones.getD []) o = some r)
    (hcreates : Creates svc i r u.records) (hfault : svc.fault (.getRecord i) = none) :
    validateOption svc i o u = (.returned (if svc.reread i = none then [] else [r]), u.made r) := by
  have hcreate : createRecord svc i r u = (.returned (svc.reread i), u.made r) := by
    rw [createRecord_of_creates hcreates, hfault, check_none_bind, pure_apply]
  rw [validateOption_some hreads hsome, bind_of_returned (attempt_ok.mpr hcreate)]
  cases svc.reread i with
  | none => rfl
  | some _ => rfl

theorem LoopRun.of_lost {e : Thrown} {os : List DomainValidation} (hreads : ReadsZones svc i o)
    (hsome : optionRecord (svc.zones.getD []) o = some r) (hcreates : Creates svc i r u.records)
    (hfault : svc.fault (.getRecord i) = some e) : LoopRun svc i (o :: os) u (u.made r) [r] := by
  have hlost : ¬ Rereads svc i := fun h => Option.some_ne_none e (hfault.symm.trans h.1)
  refine .thrown couldNotValidate ?_ ?_ ?_
  · rw [validateOptions, bind_of_thrown (validateOption_lost hreads hsome hcreates hfault)]
  · rw [Complete, hsome]
    exact fun h => hlost h.2.2.1
  · rw [Clean, hsome]
    exact iff_of_false (fun h => hlost (h hreads hcreates).1) (List.cons_ne_nil r [])

theorem LoopRun.of_made {os : List DomainValidation} (hreads : ReadsZones svc i o)
    (hsome : optionRecord (svc.zones.getD []) o = some r) (hcreates : Creates svc i r u.records)
    (hfault : svc.fault (.getRecord i) = none) (h : LoopRun svc (i + 1) os (u.made r) t new) :
    LoopRun svc i (o :: os) u t (r :: new) := by
  have hcomplete : Complete svc i (o :: os) u.records ↔
      svc.reread i ≠ none ∧ Complete svc (i + 1) os (u.made r).records := by
    rw [Complete, and_iff_right hreads, hsome]
    dsimp only
    rw [and_iff_right hcreates, Rereads, and_iff_right hfault]
    rfl
  have hclean : Clean svc i (o :: os) u.records ↔
      svc.reread i ≠ none ∧ Complete svc (i + 1) os (u.made r).records ∧ svc.fault .waitUntilIssued = none := by
    rw [Clean, forall_prop_of_true hreads, hsome]
    dsimp only
    rw [forall_prop_of_true hcreates, Rereads, and_iff_right hfault]
    rfl
  have hall : (o :: os).filterMap (optionRecord (svc.zones.getD [])) =
      r :: os.filterMap (optionRecord (svc.zones.getD [])) := List.filterMap_cons_some hsome
  have hturn := validateOption_made hreads hsome hcreates hfault
  cases h with
  | thrown e run incomplete clean =>
    refine .thrown e ?_ (fun h => incomplete (hcomplete.mp h).2) ?_
    · rw [validateOptions, bind_of_returned hturn, bind_of_thrown run]
    · exact hclean.trans (iff_of_false (fun h => incomplete h.2.1) (List.cons_ne_nil r new))
  | returned created run sublist complete clean all =>
    have hrun : validateOptions svc i (o :: os) u =
        (.returned ((if svc.reread i = none then [] else [r]) ++ created), t) := by
      rw [validateOptions, bind_of_returned hturn, bind_of_returned run]
      rfl
    by_cases hreread : svc.reread i = none
    · rw [if_pos hreread] at hrun
      have hne : created ≠ r :: new := fun heq => by
        have hlen := sublist.length_le
        rw [heq, List.length_cons] at hlen
        omega
      refine .returned created hrun (sublist.cons r) ?_ ?_ (all ▸ hall.symm)
      · exact hcomplete.trans (iff_of_false (fun h => h.1 hreread) hne)
      · exact hclean.trans (iff_of_false (fun h => h.1 hreread) fun h => hne h.1)
    · rw [if_neg hreread] at hrun
      refine .returned (r :: created) hrun (sublist.cons_cons r) ?_ ?_ (all ▸ hall.symm)
      · rw [hcomplete, and_iff_right hreread, complete, List.cons.injEq, and_iff_right rfl]
      · rw [hclean, and_iff_right hreread, complete, List.cons.injEq, and_iff_right rfl,
          forall_prop_of_true (List.cons_ne_nil r new)]

theorem validateOptions_loopRun (svc : Service) (i : Nat) (options : List DomainValidation) (u : State) :
    ∃ t new, LoopRun svc i options u t new ∧ Grows u t new ∧ Apart u.records new := by
  induction options generalizing i u with
  | nil =>
    refine ⟨u, [], .returned [] rfl (.refl []) ?_ ?_ rfl, .refl, .nil⟩
    · exact iff_of_true trivial rfl
    · exact iff_of_true trivial ⟨rfl, fun h => absurd rfl h⟩
  | cons o os ih =>
    by_cases hreads : ReadsZones svc i o
    · cases hwanted : optionRecord (svc.zones.getD []) o with
      | none =>
        obtain ⟨t, new, hloop, hgrows, hapart⟩ := ih (i + 1) u
        exact ⟨t, new, hloop.of_none hreads hwanted, hgrows, hapart⟩
      | some r =>
        by_cases hcreates : Creates svc i r u.records
        · cases hfault : svc.fault (.getRecord i) with
          | some e =>
            refine ⟨u.made r, [r], .of_lost hreads hwanted hcreates hfault, grows_made, List.nodup_singleton _, ?_⟩
            intro x hx
            obtain rfl := List.mem_singleton.mp hx
            exact hcreates.2.2
          | none =>
            obtain ⟨t, new, hloop, hgrows, hapart⟩ := ih (i + 1) (u.made r)
            exact ⟨t, r :: new, hloop.of_made hreads hwanted hcreates hfault, grows_made.trans hgrows,
              .cons hcreates.2.2 hapart⟩
        · obtain ⟨t, hloop, hgrows⟩ := LoopRun.of_not_creates hreads hwanted hcreates
          exact ⟨t, [], hloop, hgrows, .nil⟩
    · exact ⟨u, [], .of_unread hreads, .refl, .nil⟩

-- what was made and not found again stays
theorem kept_deleteRecords (hgrows : Grows u t new) (hapart : Apart u.records new) (hsub : created.Sublist new) :
    (∀ r ∈ (deleteRecords created t).records, r ∈ u.records) ↔ created = new := by
  rw [deleteRecords, hgrows.records]
  constructor
  · intro h
    have hkeys : new.map recordKey ⊆ created.map recordKey := by
      intro key hkey
      obtain ⟨r, hr, rfl⟩ := List.mem_map.mp hkey
      by_contra hnot
      have hstays := h r (List.mem_filter.mpr ⟨List.mem_append_right _ hr, decide_eq_true hnot⟩)
      exact hapart.2 r hr r hstays rfl
    have hlen := (hapart.1.subperm hkeys).length_le
    rw [List.length_map, List.length_map] at hlen
    exact hsub.eq_of_length_le hlen
  · rintro rfl r hr
    obtain ⟨hr, hnot⟩ := List.mem_filter.mp hr
    rcases List.mem_append.mp hr with hr | hr
    · exact hr
    · exact absurd (List.mem_map_of_mem hr) (of_decide_eq_true hnot)

end Records

section Validation

variable {svc : Service} {options : List DomainValidation} {t u : State}

def Describes (svc : Service) : Prop :=
  Polls (fun i => svc.fault (.describeOptions i)) (fun i => (svc.described i).filter canValidate) 30 0

def Service.validationOptions (svc : Service) : Option (List DomainValidation) :=
  (List.range' 0 30).findSome? fun i => (svc.described i).filter canValidate

-- the validation leaves no record
def LeavesNone (svc : Service) (records : List ResourceRecordSet) : Prop :=
  Describes svc → ∀ options, svc.validationOptions = some options → Clean svc 0 options records

-- nothing goes wrong in the validation
def Validates (svc : Service) (records : List ResourceRecordSet) : Prop :=
  Describes svc ∧ ∀ options, svc.validationOptions = some options → Complete svc 0 options records ∧
    (options.filterMap (optionRecord (svc.zones.getD [])) ≠ [] → svc.fault .waitUntilIssued = none)

structure SameCertificates (u t : State) : Prop where
  certificates : t.certificates = u.certificates
  rows : t.rows = u.rows
  memo : t.memo = u.memo

-- how the validation ends, from the records that it finds
inductive Validated (svc : Service) (u t : State) : Prop
  | thrown (e : Thrown) (run : validateCertificate svc u = (.thrown e, t)) (failed : ¬ Validates svc u.records)
  | returned (run : validateCertificate svc u = (.returned (), t))
      (validates : Validates svc u.records ↔ ∀ r ∈ t.records, r ∈ u.records)

theorem validated_of_options (hdescribes : Describes svc) (hoptions : svc.validationOptions = some options) :
    ∃ t, Validated svc u t ∧ SameCertificates u t ∧
      ((∀ r ∈ t.records, r ∈ u.records) ↔ Clean svc 0 options u.records) := by
  have hdescribe : describeOptions svc u = (.returned (some options), u) := by
    rw [describeOptions, poll_of_polls hdescribes]
    exact congrArg (fun o => (Outcome.returned o, u)) hoptions
  have hvalidates : Validates svc u.records ↔ Complete svc 0 options u.records ∧
      (options.filterMap (optionRecord (svc.zones.getD [])) ≠ [] → svc.fault .waitUntilIssued = none) := by
    rw [Validates, and_iff_right hdescribes, hoptions]
    simp only [Option.some.injEq, forall_eq']
  obtain ⟨t, new, hloop, hgrows, hapart⟩ := validateOptions_loopRun svc 0 options u
  have hsame : SameCertificates u t := ⟨hgrows.certificates, hgrows.rows, hgrows.memo⟩
  have hkept : (∀ r ∈ t.records, r ∈ u.records) ↔ new = [] := by
    rw [hgrows.records]
    refine ⟨fun h => List.eq_nil_iff_forall_not_mem.mpr fun r hr => ?_, ?_⟩
    · exact hapart.2 r hr r (h r (List.mem_append_right _ hr)) rfl
    · rintro rfl r hr
      rwa [List.append_nil] at hr
  cases hloop with
  | thrown e run incomplete clean =>
    refine ⟨t, .thrown e ?_ fun h => incomplete (hvalidates.mp h).1, hsame, hkept.trans clean.symm⟩
    rw [validateCertificate, bind_of_returned hdescribe]
    exact bind_of_thrown run
  | returned created run sublist complete clean all =>
    have hrun : validateCertificate svc u = (runIf (created ≠ []) (check (svc.fault .waitUntilIssued)) >>= fun _ =>
        writes (deleteRecords created) : Prog State Thrown Unit) t := by
      rw [validateCertificate, bind_of_returned hdescribe]
      exact bind_of_returned run
    rw [complete, ← all] at hvalidates
    by_cases hwait : created ≠ [] ∧ svc.fault .waitUntilIssued ≠ none
    · obtain ⟨hcreated, hfault⟩ := hwait
      have hnew : new ≠ [] := fun hnil => hcreated (List.sublist_nil.mp (hnil ▸ sublist))
      refine ⟨t, ?_, hsame, hkept.trans (iff_of_false hnew fun h => hfault ((clean.mp h).2 hnew))⟩
      obtain ⟨e, hfault⟩ := Option.ne_none_iff_exists'.mp hfault
      refine .thrown e ?_ fun h => ?_
      · rw [hrun, runIf, if_pos (decide_eq_true hcreated), hfault, check_some_bind]
      · exact Option.some_ne_none e (hfault.symm.trans ((hvalidates.mp h).2 hnew))
    · have hquiet : created = new → new ≠ [] → svc.fault .waitUntilIssued = none := by
        rintro rfl hne
        exact not_not.mp fun hfault => hwait ⟨hne, hfault⟩
      have hdeleted := kept_deleteRecords hgrows hapart sublist
      refine ⟨deleteRecords created t, .returned ?_ ?_, ⟨hsame.1, hsame.2, hsame.3⟩, ?_⟩
      · rw [hrun, runIf]
        split
        · next hcreated =>
          have hnone : svc.fault .waitUntilIssued = none := not_not.mp fun hfault => hwait ⟨of_decide_eq_true hcreated, hfault⟩
          rw [hnone]
          rfl
        · rfl
      · rw [hvalidates, hdeleted]
        exact and_iff_left_of_imp hquiet
      · rw [hdeleted, clean]
        exact (and_iff_left_of_imp hquiet).symm

theorem validated (svc : Service) (u : State) :
    ∃ t, Validated svc u t ∧ SameCertificates u t ∧
      ((∀ r ∈ t.records, r ∈ u.records) ↔ LeavesNone svc u.records) := by
  by_cases hdescribes : Describes svc
  · cases hoptions : svc.validationOptions with
    | some options =>
      obtain ⟨t, hvalidated, hsame, hkept⟩ := @validated_of_options svc options u hdescribes hoptions
      refine ⟨t, hvalidated, hsame, hkept.trans ?_⟩
      rw [LeavesNone, forall_prop_of_true hdescribes, hoptions]
      simp only [Option.some.injEq, forall_eq']
    | none =>
      have hrun : validateCertificate svc u = (.returned (), u) := by
        have hdescribe : describeOptions svc u = (.returned none, u) := by
          rw [describeOptions, poll_of_polls hdescribes]
          exact congrArg (fun o => (Outcome.returned o, u)) hoptions
        rw [validateCertificate, bind_of_returned hdescribe]
        rfl
      refine ⟨u, .returned hrun (iff_of_true ⟨hdescribes, ?_⟩ fun _ => id), ⟨rfl, rfl, rfl⟩,
        iff_of_true (fun _ => id) fun _ => ?_⟩
      · rw [hoptions]
        intro options hnone
        cases hnone
      · rw [hoptions]
        intro options hnone
        cases hnone
  · obtain ⟨e, hthrown⟩ := @poll_of_not_polls _ _ _ u _ _ _ _ hdescribes
    refine ⟨u, .thrown e ?_ fun h => hdescribes h.1, ⟨rfl, rfl, rfl⟩,
      iff_of_true (fun _ => id) fun h => absurd h hdescribes⟩
    rw [validateCertificate]
    exact bind_of_thrown hthrown

end Validation

section Requests

variable {svc : Service} {input : Input} {s t u : State}

def Admits (svc : Service) : Prop :=
  svc.fault .modules = none ∧ "aws_route53" ∈ svc.installed ∧ svc.fault .getAwsClient = none

def Lists (svc : Service) : Prop :=
  Polls (fun i => svc.fault (.getCertificatesSummary i))
    (fun i => if svc.arn ∈ (svc.listed i).map (·.getD "") then some () else none) 30 0

def Registers (svc : Service) (input : Input) : Prop :=
  (∃ n, entriesOf input.tags = .ok n ∧ (n ≠ 0 → svc.fault .createCertificateTags = none)) ∧
    svc.fault (.readCloud 0) = none ∧ svc.fault .createDb = none ∧ svc.fault .readDb = none

-- the certificate is found for its removal
def Settles (svc : Service) : Prop :=
  svc.fault .describeStatus = none ∧
    (svc.readable 0 = true ∨ svc.fault (.readCloud 1) = none ∧ svc.readable 1 = true)

theorem precheck_of_admits (hdns : input.validationMethod = "DNS") (h : Admits svc) :
    precheck svc input s = (.returned (), s) := by
  obtain ⟨hmodules, hinstalled, hclient⟩ := h
  rw [precheck, runIf, if_pos (decide_eq_true hdns), hmodules, bind_assoc_apply, check_none_bind, if_pos hinstalled,
    pure_bind_apply, hclient]
  rfl

theorem precheck_of_not_admits (hdns : input.validationMethod = "DNS") (h : ¬ Admits svc) :
    ∃ e, precheck svc input s = (.thrown e, s) := by
  rw [precheck, runIf, if_pos (decide_eq_true hdns), bind_assoc_apply]
  cases hmodules : svc.fault .modules with
  | some e => exact ⟨e, rfl⟩
  | none =>
    rw [check_none_bind]
    by_cases hinstalled : "aws_route53" ∈ svc.installed
    · rw [if_pos hinstalled, pure_bind_apply]
      cases hclient : svc.fault .getAwsClient with
      | some e => exact ⟨e, rfl⟩
      | none => exact absurd ⟨hmodules, hinstalled, hclient⟩ h
    · rw [if_neg hinstalled, fail_bind_apply]
      exact ⟨notInstalled, rfl⟩

def State.requested (svc : Service) (s : State) : State := { s with certificates := s.certificates ++ [svc.arn] }

theorem requestCertificate_of_lists (hrequest : svc.fault .requestCertificate = none) (h : Lists svc) :
    requestCertificate svc s = (.returned svc.arn, s.requested svc) := by
  rw [requestCertificate, hrequest, check_none_bind, writes_bind_apply]
  exact bind_of_returned (poll_of_polls h)

theorem requestCertificate_of_not_lists (hrequest : svc.fault .requestCertificate = none) (h : ¬ Lists svc) :
    ∃ e, requestCertificate svc s = (.thrown e, s.requested svc) := by
  rw [requestCertificate, hrequest, check_none_bind, writes_bind_apply]
  obtain ⟨e, he⟩ := @poll_of_not_polls _ _ _ (s.requested svc) _ _ _ _ h
  exact ⟨e, bind_of_thrown he⟩

def Service.found (svc : Service) (i : Nat) : Option Certificate := if svc.readable i then some ⟨svc.arn⟩ else none

theorem readCloud_of_memo {i : Nat} {cert : Certificate} (h : s.memo = some cert) :
    readCloud svc i s = (.returned (some cert), s) := by
  rw [readCloud, reads_bind_apply, h]
  rfl

theorem readCloud_of_fault {i : Nat} {e : Thrown} (h : s.memo = none) (hfault : svc.fault (.readCloud i) = some e) :
    readCloud svc i s = (.thrown e, s) := by
  rw [readCloud, reads_bind_apply, h, hfault]
  rfl

theorem readCloud_of_no_memo {i : Nat} (h : s.memo = none) (hfault : svc.fault (.readCloud i) = none) :
    readCloud svc i s = (.returned (svc.found i), { s with memo := svc.found i }) := by
  rw [readCloud, reads_bind_apply, h, hfault]
  dsimp only
  rw [check_none_bind, Service.found]
  cases svc.readable i with
  | true => rfl
  | false =>
    rw [← h]
    rfl

def State.registered (svc : Service) (s : State) : State :=
  { s with memo := svc.found 0, rows := s.rows ++ (svc.found 0).toList }

theorem register_of_registers (hmemo : s.memo = none) (h : Registers svc input) :
    ∃ dbCert, register svc input s = (.returned dbCert, s.registered svc) := by
  obtain ⟨⟨n, hentries, htags⟩, hread, hcreate, hdb⟩ := h
  have hrun : (runIf (n ≠ 0) (check (svc.fault .createCertificateTags)) : Prog State Thrown Unit) s = (.returned (), s) := by
    rw [runIf]
    split
    · next hn =>
      rw [htags (of_decide_eq_true hn)]
      rfl
    · rfl
  rw [register, hentries]
  dsimp only
  rw [bind_of_returned hrun, bind_of_returned (readCloud_of_no_memo hmemo hread), hcreate, check_none_bind,
    writes_bind_apply, hdb, check_none_bind]
  exact ⟨_, rfl⟩

theorem register_of_not_registers (hmemo : s.memo = none) (h : ¬ Registers svc input) :
    ∃ e t, register svc input s = (.thrown e, t) ∧ t.records = s.records ∧ t.certificates = s.certificates := by
  rw [register]
  cases hentries : entriesOf input.tags with
  | error err => exact ⟨err, s, rfl, rfl, rfl⟩
  | ok n =>
    dsimp only
    by_cases htags : n ≠ 0 ∧ svc.fault .createCertificateTags ≠ none
    · obtain ⟨hn, hfault⟩ := htags
      obtain ⟨e, hfault⟩ := Option.ne_none_iff_exists'.mp hfault
      rw [runIf, if_pos (decide_eq_true hn), hfault]
      exact ⟨e, s, rfl, rfl, rfl⟩
    · have hrun : (runIf (n ≠ 0) (check (svc.fault .createCertificateTags)) : Prog State Thrown Unit) s =
          (.returned (), s) := by
        rw [runIf]
        split
        · next hn =>
          have hnone : svc.fault .createCertificateTags = none := not_not.mp fun hfault => htags ⟨of_decide_eq_true hn, hfault⟩
          rw [hnone]
          rfl
        · rfl
      rw [bind_of_returned hrun]
      cases hread : svc.fault (.readCloud 0) with
      | some e =>
        rw [bind_of_thrown (readCloud_of_fault hmemo hread)]
        exact ⟨e, s, rfl, rfl, rfl⟩
      | none =>
        rw [bind_of_returned (readCloud_of_no_memo hmemo hread)]
        cases hcreate : svc.fault .createDb with
        | some e => exact ⟨e, _, rfl, rfl, rfl⟩
        | none =>
          rw [check_none_bind, writes_bind_apply]
          cases hdb : svc.fault .readDb with
          | some e => exact ⟨e, _, rfl, rfl, rfl⟩
          | none =>
            refine absurd ⟨⟨n, hentries, fun hn => ?_⟩, hread, hcreate, hdb⟩ h
            exact not_not.mp fun hfault => htags ⟨hn, hfault⟩

theorem settle_records (dbCert : Option Certificate) : (settle svc dbCert s).2.records = s.records := by
  have hread : ∀ i, (Frame.ofField State.records).Keeps (readCloud svc i) := by
    intro i
    refine Frame.keeps_bind (Frame.keeps_reads _) fun memo => ?_
    cases memo with
    | some cert => exact Frame.keeps_pure _
    | none =>
      refine Frame.keeps_bind (Frame.keeps_check _) fun _ => Frame.keeps_ite ?_ (Frame.keeps_pure _)
      exact Frame.keeps_bind (Frame.keeps_writes fun _ => rfl) fun _ => Frame.keeps_pure _
  have hkeep : (Frame.ofField State.records).Keeps (settle svc dbCert) := by
    refine Frame.keeps_bind (Frame.keeps_check _) fun _ => ?_
    dsimp only
    refine Frame.keeps_ite ?_ ?_
    · refine Frame.keeps_bind (hread 1) fun cloudCert => Frame.keeps_bind (Frame.keeps_writes ?_) fun _ => Frame.keeps_pure _
      cases cloudCert with
      | none => exact fun _ => rfl
      | some cert => exact fun _ => rfl
    · refine Frame.keeps_bind (Frame.keeps_writes fun _ => rfl) fun _ => Frame.keeps_bind (hread 2) fun cert => ?_
      refine Frame.keeps_ite ?_ ?_
      · exact Frame.keeps_bind (Frame.keeps_fail _) fun _ => Frame.keeps_pure _
      · exact Frame.keeps_bind (Frame.keeps_check _) fun _ => Frame.keeps_pure _
  exact hkeep s

theorem not_issued (h : svc.issued = false) : svc.status ≠ some .issued := fun hstatus =>
  Bool.noConfusion (h.symm.trans (svc.issued_of_status hstatus))

theorem settle_of_settles (dbCert : Option Certificate) (hissued : svc.issued = false)
    (hmemo : s.memo = svc.found 0) (h : Settles svc) :
    (settle svc dbCert s).2.certificates = s.certificates.filter (· ≠ svc.arn) ∧
      (settle svc dbCert s).2.rows = s.rows.filter (· ≠ ⟨svc.arn⟩) := by
  obtain ⟨hdescribe, hreadable⟩ := h
  have hread : ∃ t, readCloud svc 1 s = (.returned (some ⟨svc.arn⟩), t) ∧ t.certificates = s.certificates ∧ t.rows = s.rows := by
    by_cases hfirst : svc.readable 0 = true
    · rw [Service.found, if_pos hfirst] at hmemo
      exact ⟨s, readCloud_of_memo hmemo, rfl, rfl⟩
    · obtain ⟨hfault, hsecond⟩ := hreadable.resolve_left hfirst
      rw [Service.found, if_neg hfirst] at hmemo
      refine ⟨{ s with memo := svc.found 1 }, (readCloud_of_no_memo hmemo hfault).trans ?_, rfl, rfl⟩
      rw [Service.found, if_pos hsecond]
  obtain ⟨t, hread, hcertificates, hrows⟩ := hread
  rw [settle, hdescribe, check_none_bind, if_pos (not_issued hissued), bind_of_returned hread, writes_bind_apply,
    ← hcertificates, ← hrows]
  exact ⟨rfl, rfl⟩

theorem settle_of_not_settles (dbCert : Option Certificate) (hissued : svc.issued = false)
    (hmemo : s.memo = svc.found 0) (h : ¬ Settles svc) :
    (settle svc dbCert s).2.certificates = s.certificates := by
  rw [settle]
  cases hdescribe : svc.fault .describeStatus with
  | some e => rfl
  | none =>
    rw [check_none_bind, if_pos (not_issued hissued)]
    by_cases hfirst : svc.readable 0 = true
    · exact absurd ⟨hdescribe, .inl hfirst⟩ h
    · rw [Service.found, if_neg hfirst] at hmemo
      cases hfault : svc.fault (.readCloud 1) with
      | some e => rw [bind_of_thrown (readCloud_of_fault hmemo hfault)]
      | none =>
        have hsecond : ¬ svc.readable 1 = true := fun hsecond => h ⟨hdescribe, .inr ⟨hfault, hsecond⟩⟩
        rw [bind_of_returned (readCloud_of_no_memo hmemo hfault), Service.found, if_neg hsecond]
        rfl

end Requests

section Cleanup

variable {svc : Service} {input : Input} {s : State}

-- no record of the validation stays, and no certificate that is not issued
structure CleansUp (svc : Service) (s t : State) : Prop where
  records : ∀ r ∈ t.records, r ∈ s.records
  certificates : svc.issued = false → svc.arn ∉ t.certificates ∧ ∀ cert ∈ t.rows, cert.arn ≠ svc.arn

-- the state knows nothing of the certificate yet
structure Unknown (svc : Service) (s : State) : Prop where
  certificates : svc.arn ∉ s.certificates
  rows : ∀ cert ∈ s.rows, cert.arn ≠ svc.arn
  memo : s.memo = none

def Requested (svc : Service) : Prop := Admits svc ∧ svc.fault .requestCertificate = none

-- the certificate is listed, tagged and recorded
def Proceeds (svc : Service) (input : Input) : Prop := Lists svc ∧ svc.arn ≠ "" ∧ Registers svc input

theorem call_of_not_requested (hdns : input.validationMethod = "DNS") (h : ¬ Requested svc) :
    (call svc input s).2 = s := by
  by_cases hadmits : Admits svc
  · obtain ⟨e, hfault⟩ := Option.ne_none_iff_exists'.mp fun hnone => h ⟨hadmits, hnone⟩
    rw [call, bind_of_returned (precheck_of_admits hdns hadmits), requestCertificate, hfault, bind_assoc_apply,
      check_some_bind]
  · obtain ⟨e, hthrown⟩ := @precheck_of_not_admits _ _ s hdns hadmits
    rw [call, bind_of_thrown hthrown]

theorem call_of_not_proceeds (hdns : input.validationMethod = "DNS") (hunknown : Unknown svc s)
    (hrequested : Requested svc) (h : ¬ Proceeds svc input) :
    (call svc input s).2.records = s.records ∧ svc.arn ∈ (call svc input s).2.certificates := by
  have hin : svc.arn ∈ (s.requested svc).certificates := List.mem_append_right _ (List.mem_singleton_self _)
  rw [call, bind_of_returned (precheck_of_admits hdns hrequested.1)]
  by_cases hlists : Lists svc
  · rw [bind_of_returned (requestCertificate_of_lists hrequested.2 hlists)]
    by_cases harn : svc.arn = ""
    · rw [if_pos harn]
      exact ⟨rfl, hin⟩
    · obtain ⟨e, t, hthrown, hrecords, hcertificates⟩ := @register_of_not_registers _ _ (s.requested svc)
        hunknown.memo fun hregisters => h ⟨hlists, harn, hregisters⟩
      rw [if_neg harn, bind_of_thrown hthrown]
      exact ⟨hrecords, hcertificates ▸ hin⟩
  · obtain ⟨e, hthrown⟩ := @requestCertificate_of_not_lists _ s hrequested.2 hlists
    rw [bind_of_thrown hthrown]
    exact ⟨rfl, hin⟩

def State.recorded (svc : Service) (s : State) : State := (s.requested svc).registered svc

theorem call_of_proceeds (hdns : input.validationMethod = "DNS") (hunknown : Unknown svc s)
    (hrequested : Requested svc) (h : Proceeds svc input) :
    ∃ dbCert, call svc input s = (validateCertificate svc >>= fun _ => settle svc dbCert) (s.recorded svc) := by
  obtain ⟨hlists, harn, hregisters⟩ := h
  obtain ⟨dbCert, hregister⟩ := @register_of_registers _ _ (s.requested svc) hunknown.memo hregisters
  refine ⟨dbCert, ?_⟩
  rw [call, bind_of_returned (precheck_of_admits hdns hrequested.1),
    bind_of_returned (requestCertificate_of_lists hrequested.2 hlists), if_neg harn, bind_of_returned hregister,
    if_pos hdns]
  rfl

theorem recorded_removed (hunknown : Unknown svc s) :
    svc.arn ∉ (s.recorded svc).certificates.filter (· ≠ svc.arn) ∧
      ∀ cert ∈ (s.recorded svc).rows.filter (· ≠ ⟨svc.arn⟩), cert.arn ≠ svc.arn := by
  refine ⟨fun h => of_decide_eq_true (List.mem_filter.mp h).2 rfl, fun cert hcert harn => ?_⟩
  exact of_decide_eq_true (List.mem_filter.mp hcert).2 (congrArg Certificate.mk harn)

-- once the certificate is recorded, the rest of the call decides
theorem cleansUp_of_proceeds (hdns : input.validationMethod = "DNS") (hunknown : Unknown svc s)
    (hrequested : Requested svc) (h : Proceeds svc input) :
    CleansUp svc s (call svc input s).2 ↔
      LeavesNone svc s.records ∧ (svc.issued = false → Validates svc s.records ∧ Settles svc) := by
  obtain ⟨dbCert, hcall⟩ := call_of_proceeds hdns hunknown hrequested h
  obtain ⟨t, hvalidated, hsame, hkept⟩ := validated svc (s.recorded svc)
  have hin : svc.arn ∈ t.certificates := by
    rw [hsame.certificates]
    exact List.mem_append_right _ (List.mem_singleton_self _)
  cases hvalidated with
  | thrown e run failed =>
    have hfinal : (call svc input s).2 = t := by rw [hcall, bind_of_thrown run]
    rw [hfinal]
    refine ⟨fun hclean => ⟨hkept.mp hclean.records, fun hissued => ?_⟩, fun hclean => ⟨hkept.mpr hclean.1, fun hissued => ?_⟩⟩
    · exact absurd hin (hclean.certificates hissued).1
    · exact absurd (hclean.2 hissued).1 failed
  | returned run validates =>
    have hfinal : (call svc input s).2 = (settle svc dbCert t).2 := by rw [hcall, bind_of_returned run]
    rw [hfinal]
    have hrecords := @settle_records svc t dbCert
    constructor
    · intro hclean
      have hleft : ∀ r ∈ t.records, r ∈ s.records := hrecords ▸ hclean.records
      refine ⟨hkept.mp hleft, fun hissued => ⟨validates.mpr hleft, ?_⟩⟩
      by_contra hsettles
      have hstays := settle_of_not_settles dbCert hissued hsame.memo hsettles
      exact (hclean.certificates hissued).1 (hstays ▸ hin)
    · rintro ⟨hnone, hsettled⟩
      refine ⟨hrecords.symm ▸ hkept.mpr hnone, fun hissued => ?_⟩
      obtain ⟨hcertificates, hrows⟩ := settle_of_settles dbCert hissued hsame.memo (hsettled hissued).2
      rw [hcertificates, hrows, hsame.certificates, hsame.rows]
      exact recorded_removed hunknown

theorem call_cleansUp_iff (hdns : input.validationMethod = "DNS") (hunknown : Unknown svc s) :
    CleansUp svc s (call svc input s).2 ↔ (Requested svc →
      (Proceeds svc input → LeavesNone svc s.records) ∧
        (svc.issued = false → Proceeds svc input ∧ Validates svc s.records ∧ Settles svc)) := by
  by_cases hrequested : Requested svc
  · rw [forall_prop_of_true hrequested]
    by_cases hproceeds : Proceeds svc input
    · rw [cleansUp_of_proceeds hdns hunknown hrequested hproceeds, forall_prop_of_true hproceeds]
      simp only [hproceeds, true_and]
    · obtain ⟨hrecords, hin⟩ := call_of_not_proceeds hdns hunknown hrequested hproceeds
      constructor
      · intro hclean
        exact ⟨fun h => absurd h hproceeds, fun hissued => absurd hin (hclean.certificates hissued).1⟩
      · rintro ⟨-, hsettled⟩
        exact ⟨hrecords ▸ fun _ => id, fun hissued => absurd (hsettled hissued).1 hproceeds⟩
  · rw [call_of_not_requested hdns hrequested]
    exact iff_of_true ⟨fun _ => id, fun _ => ⟨hunknown.certificates, hunknown.rows⟩⟩ fun h => absurd h hrequested

end Cleanup

end Iasql.Acm
