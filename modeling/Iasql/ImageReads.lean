import Iasql.Exhaustive
import Mathlib.Data.List.Flatten

namespace Iasql.Aws

open Program Prog OrderedMap Paging

section Ids

theorem generateId_singleton (s : String) : generateId [s] = s := by
  apply String.toList_inj.mp
  rw [generateId_toList]
  simp [List.intercalate]

theorem generateId_ne_empty (x y : String) (fields : List String) :
    generateId (x :: y :: fields) ≠ "" := by
  intro h
  have hbar := congrArg (fun s => '|' ∈ s.toList) h
  simp [generateId_toList, List.intercalate] at hbar

variable {W : Type} {cloud : Cloud W} {image : ImageDetail × String} {type : String}
  {region : Option String} {c c' : Context W Entity} {e : Entity}

theorem repositoryImageMapper_returned
    (h : cloud.repositoryImageMapper image type region c = (.returned e, c')) :
    e.entityId = Cloud.imageId image.1 image.2 type region ∧
      truthy image.1.imageDigest = true := by
  unfold Cloud.repositoryImageMapper at h
  cases hdigest : truthy image.1.imageDigest with
  | false =>
    rw [hdigest] at h
    cases h
  | true =>
    rw [hdigest] at h
    obtain ⟨privateRepository, c₁, -, hrest⟩ := bind_returned_inv h
    obtain ⟨publicRepository, c₂, -, hpure⟩ := bind_returned_inv hrest
    cases hpure
    refine ⟨?_, rfl⟩
    refine (entityId_of_columns rfl ?_).trans (generateId_singleton _)
    intro f hf
    rw [List.mem_singleton.mp hf]
    exact generateId_ne_empty _ _ _

end Ids

section Items

variable {name digest tag : String} {image : ImageDetail × String} {detail : ImageDetail}

-- an image as AWS describes it in the repository, for one of its tags
structure Item (name digest : String) (image : ImageDetail × String) : Prop where
  hasDigest : image.1.imageDigest = some digest
  hasName : image.1.repositoryName = some name
  plainName : Plain name
  plainDigest : Plain digest
  plainTag : Plain image.2

theorem Item.imageId_eq (h : Item name digest image) (type : String) (region : Option String) :
    Cloud.imageId image.1 image.2 type region =
      generateId ([digest, image.2, type, name] ++ region.toList) := by
  rw [Cloud.imageId, h.hasDigest, h.hasName]
  rfl

theorem plain_untagged : Plain "<untagged>" := by decide +kernel

theorem plain_private : Plain "private" := by decide +kernel

theorem plain_public : Plain "public" := by decide +kernel

theorem mem_tagged (h : image ∈ Cloud.tagged detail) :
    image.1 = detail ∧ (image.2 = "<untagged>" ∨ image.2 ∈ detail.imageTags) := by
  unfold Cloud.tagged at h
  split at h
  · obtain rfl := List.mem_singleton.mp h
    exact ⟨rfl, .inl rfl⟩
  · obtain ⟨tag, htag, rfl⟩ := List.mem_map.mp h
    exact ⟨rfl, .inr htag⟩

theorem tagged_nodup (h : detail.imageTags.Nodup) : (Cloud.tagged detail).Nodup := by
  unfold Cloud.tagged
  split
  · simp
  · exact h.map fun a b hab => congrArg Prod.snd hab

def isItem (digest tag : String) (image : ImageDetail × String) : Bool :=
  image.1.imageDigest == some digest && image.2 == tag

theorem isItem_iff : isItem digest tag image = true ↔
    image.1.imageDigest = some digest ∧ image.2 = tag := by
  simp [isItem]

theorem countP_tagged (hdigest : detail.imageDigest = some digest) :
    (Cloud.tagged detail).countP (isItem digest tag) = (Cloud.tagged detail).count (detail, tag) := by
  refine List.countP_congr fun image himage => ?_
  obtain ⟨hfst, -⟩ := mem_tagged himage
  rw [isItem_iff, beq_iff_eq, hfst, hdigest]
  exact ⟨fun h => Prod.ext hfst h.2, fun h => ⟨rfl, by rw [h]⟩⟩

theorem countP_tagged_other (hdigest : detail.imageDigest ≠ some digest) :
    (Cloud.tagged detail).countP (isItem digest tag) = 0 := by
  rw [List.countP_eq_zero]
  intro image himage hitem
  obtain ⟨hfst, -⟩ := mem_tagged himage
  exact hdigest (hfst ▸ (isItem_iff.mp hitem).1)

variable {listing : Listing ImageDetail.imageDigest} {entries : List (String × ImageDetail)}
  (hheld : Held listing entries) (hnodup : (entries.map Prod.fst).Nodup)

include hheld hnodup

theorem countP_items : (∃ detail, (digest, detail) ∈ entries ∧
      (entries.flatMap fun p => Cloud.tagged p.2).countP (isItem digest tag) =
        (Cloud.tagged detail).countP (isItem digest tag)) ∨
    digest ∉ entries.map Prod.fst ∧
      (entries.flatMap fun p => Cloud.tagged p.2).countP (isItem digest tag) = 0 := by
  refine countP_keyed hnodup fun p hp hne => countP_tagged_other fun hdigest => ?_
  obtain ⟨t, ht⟩ := hheld p hp
  exact hne ((listing.entries ht).2.2 digest hdigest).symm

theorem countP_items_le (htags : ∀ p ∈ entries, p.2.imageTags.Nodup) :
    (entries.flatMap fun p => Cloud.tagged p.2).countP (isItem digest tag) ≤ 1 := by
  rcases countP_items hheld hnodup with ⟨detail, hmem, hcount⟩ | ⟨-, hcount⟩
  · rw [hcount]
    by_cases hdigest : detail.imageDigest = some digest
    · rw [countP_tagged hdigest]
      exact List.nodup_iff_count_le_one.mp (tagged_nodup (htags _ hmem)) _
    · rw [countP_tagged_other hdigest]
      omega
  · omega

end Items

section Pushed

variable {W : Type} {cloud : Cloud W} {region digest tag id : String}
  {images : List (ImageDetail × String)} {o : List Entity} {w v : Context W Entity}

theorem mem_pushImages (hrun : cloud.pushImages region images w = (.returned o, v)) {e : Entity}
    (he : e ∈ o) :
    ∃ image ∈ images, e.entityId = Cloud.imageId image.1 image.2 "private" (some region) := by
  induction images generalizing w o with
  | nil =>
    cases hrun
    cases he
  | cons image images ih =>
    obtain ⟨result, w₁, hmapper, hrest⟩ := bind_returned_inv hrun
    cases result with
    | error err =>
      cases hrest
      cases he
    | ok pushed =>
      obtain ⟨rest, w₂, hpushed, hpure⟩ := bind_returned_inv hrest
      cases hpure
      rcases List.mem_cons.mp he with rfl | he
      · exact ⟨image, by simp, (repositoryImageMapper_returned (attempt_ok.mp hmapper)).1⟩
      · obtain ⟨image', himage, hid⟩ := ih hpushed he
        exact ⟨image', by simp [himage], hid⟩

theorem pushImages_accounts
    (hids : ∀ image ∈ images, Cloud.imageId image.1 image.2 "private" (some region) = id ↔
      isItem digest tag image = true)
    (hone : images.countP (isItem digest tag) ≤ 1)
    (hrun : cloud.pushImages region images w = (.returned o, v)) :
    Accounts o id (cloud.Reaches region digest tag images w) := by
  induction images generalizing w o with
  | nil =>
    cases hrun
    exact ⟨fun h => h.elim, fun _ => rfl⟩
  | cons image images ih =>
    rw [List.countP_cons] at hone
    obtain ⟨result, w₁, hmapper, hrest⟩ := bind_returned_inv hrun
    cases result with
    | error err =>
      cases hrest
      have hthrown := attempt_error.mp hmapper
      exact ⟨fun h => by simp [Cloud.Reaches, hthrown] at h, fun _ => rfl⟩
    | ok pushed =>
      obtain ⟨rest, w₂, hpushed, hpure⟩ := bind_returned_inv hrest
      cases hpure
      have hreturned := attempt_ok.mp hmapper
      obtain ⟨hid, -⟩ := repositoryImageMapper_returned hreturned
      have hreach : cloud.Reaches region digest tag (image :: images) w ↔
          isItem digest tag image = true ∨ cloud.Reaches region digest tag images w₁ := by
        rw [Cloud.Reaches, hreturned, isItem_iff]
      by_cases hitem : isItem digest tag image = true
      · rw [if_pos hitem] at hone
        refine ⟨fun _ => ?_, fun hnot => absurd (hreach.mpr (.inl hitem)) hnot⟩
        have hnone : rest.countP (·.entityId == id) = 0 := by
          rw [List.countP_eq_zero]
          intro e he heq
          obtain ⟨image', himage, hid'⟩ := mem_pushImages hpushed he
          have hitem' := (hids image' (by simp [himage])).mp (hid'.symm.trans (beq_iff_eq.mp heq))
          have hpos : 0 < images.countP (isItem digest tag) :=
            List.countP_pos_iff.mpr ⟨image', himage, hitem'⟩
          omega
        have hown : (pushed.entityId == id) = true :=
          beq_iff_eq.mpr (hid.trans ((hids image (by simp)).mpr hitem))
        rw [List.countP_cons, if_pos hown, hnone]
      · rw [if_neg hitem] at hone
        have hih := ih (fun image' himage => hids image' (by simp [himage])) hone hpushed
        have hown : ¬ (pushed.entityId == id) = true := fun heq =>
          hitem ((hids image (by simp)).mp (hid.symm.trans (beq_iff_eq.mp heq)))
        refine (hih.of_countP ?_).congr (by rw [hreach]; simp [hitem])
        rw [List.countP_cons, if_neg hown, Nat.add_zero]

end Pushed

section Repositories

variable {W : Type} {cloud : Cloud W} (h : Faithful cloud) {region name digest tag : String}
  {r : Repository} {o : List Entity} {w v : Context W Entity}

def imageTarget (region name digest tag : String) : String :=
  generateId [digest, tag, "private", name, region]

theorem item_tag_plain {detail : ImageDetail} {image : ImageDetail × String}
    (htags : ∀ tag ∈ detail.imageTags, Plain tag) (himage : image ∈ Cloud.tagged detail) :
    Plain image.2 := by
  rcases (mem_tagged himage).2 with heq | hmem
  · exact heq ▸ plain_untagged
  · exact htags _ hmem

include h in
theorem item_of_privateDetails {t : Nat} {image : ImageDetail × String}
    (himage : image ∈ Cloud.privateDetails
      (((cloud.images region name).shown t none).map Prod.snd)) :
    ∃ digest, Item name digest image := by
  obtain ⟨detail, hdetail, htagged⟩ := List.mem_flatMap.mp himage
  obtain ⟨hmem, htruthy⟩ := List.mem_filter.mp hdetail
  obtain ⟨⟨k, d⟩, hp, hd⟩ := List.mem_map.mp hmem
  obtain rfl : d = detail := hd
  have hheld := Shelf.shown_held hp
  obtain ⟨hname, hplainName, hplainDigest, -, hplainTags⟩ := h.images hheld
  obtain ⟨hfst, -⟩ := mem_tagged htagged
  rw [Bool.and_eq_true] at htruthy
  obtain ⟨n, hdigest⟩ := truthy_some htruthy.1
  obtain ⟨m, hrepository⟩ := truthy_some htruthy.2
  obtain rfl := ((cloud.images region name).entries hheld).2.2 n hdigest
  obtain rfl := hname m hrepository
  exact ⟨n, hfst ▸ hdigest, hfst ▸ hrepository, hplainName, hplainDigest,
    item_tag_plain hplainTags htagged⟩

theorem listRepositoryImages_failed {err : Thrown}
    (hfailure : (cloud.images region r.repositoryName).failure (cloud.now w) = some err) :
    atStore (cloud.listRepositoryImages region r) w = (.thrown err, cloud.ticked w) := by
  have hpage : (cloud.images region r.repositoryName).page Prod.snd none
      (cloud.clock.now w.store.world) = .error err := by
    rw [Listing.page, show (cloud.images region r.repositoryName).failure
      (cloud.clock.now w.store.world) = some err from hfailure]
  change ((cloud.clock.call _ w.store).1, cloud.ticked w) = _
  rw [Clock.call, hpage]

theorem listRepositoryImages_answered
    (hfailure : (cloud.images region r.repositoryName).failure (cloud.now w) = none) :
    atStore (cloud.listRepositoryImages region r) w =
      (.returned
        { items := some (((cloud.images region r.repositoryName).shown (cloud.now w) none).map
            Prod.snd)
          nextToken := (cloud.images region r.repositoryName).next (cloud.now w) none },
        cloud.ticked w) := by
  have hpage : (cloud.images region r.repositoryName).page Prod.snd none
      (cloud.clock.now w.store.world) = .ok
        { items := some (((cloud.images region r.repositoryName).shown (cloud.now w) none).map
            Prod.snd)
          nextToken := (cloud.images region r.repositoryName).next (cloud.now w) none } := by
    rw [Listing.page, show (cloud.images region r.repositoryName).failure
      (cloud.clock.now w.store.world) = none from hfailure]
    rfl
  change ((cloud.clock.call _ w.store).1, cloud.ticked w) = _
  rw [Clock.call, hpage]

theorem repositoryImages_answered
    (hfailure : (cloud.images region r.repositoryName).failure (cloud.now w) = none) :
    cloud.repositoryImages region r w = cloud.pushImages region (Cloud.privateDetails
      (((cloud.images region r.repositoryName).shown (cloud.now w) none).map Prod.snd))
      (cloud.ticked w) :=
  bind_of_returned (attempt_ok.mpr (listRepositoryImages_answered hfailure))

theorem repositoryImages_failed {err : Thrown}
    (hfailure : (cloud.images region r.repositoryName).failure (cloud.now w) = some err) :
    cloud.repositoryImages region r w = (.returned [], cloud.ticked w) :=
  bind_of_returned (attempt_error.mpr (listRepositoryImages_failed hfailure))

include h in
theorem mem_repositoryImages (hrun : cloud.repositoryImages region r w = (.returned o, v))
    {e : Entity} (he : e ∈ o) : ∃ digest tag, Plain digest ∧ Plain tag ∧ Plain r.repositoryName ∧
      e.entityId = imageTarget region r.repositoryName digest tag := by
  cases hfailure : (cloud.images region r.repositoryName).failure (cloud.now w) with
  | some err =>
    rw [repositoryImages_failed hfailure] at hrun
    cases hrun
    cases he
  | none =>
    rw [repositoryImages_answered hfailure] at hrun
    obtain ⟨image, himage, hid⟩ := mem_pushImages hrun he
    obtain ⟨digest, hitem⟩ := item_of_privateDetails h himage
    exact ⟨digest, image.2, hitem.plainDigest, hitem.plainTag, hitem.plainName,
      hid.trans (hitem.imageId_eq _ _)⟩

theorem imageTarget_inj {region' name' digest' tag' : String} (hr : Plain region)
    (hr' : Plain region') (hn : Plain name) (hn' : Plain name') (hd : Plain digest)
    (hd' : Plain digest') (ht : Plain tag) (ht' : Plain tag')
    (heq : imageTarget region name digest tag = imageTarget region' name' digest' tag') :
    digest = digest' ∧ tag = tag' ∧ name = name' ∧ region = region' := by
  have hfields := generateId_inj
    (by simp [hr, hn, hd, ht, plain_private]) (by simp [hr', hn', hd', ht', plain_private])
    (by simp) (by simp) heq
  simpa using hfields

include h in
theorem repositoryImages_accounts (hregion : Plain region) (hdigest : Plain digest)
    (htag : Plain tag) (hrun : cloud.repositoryImages region r w = (.returned o, v)) :
    Accounts o (imageTarget region r.repositoryName digest tag)
      ((cloud.images region r.repositoryName).failure (cloud.now w) = none ∧
        cloud.Reaches region digest tag (Cloud.privateDetails
          (((cloud.images region r.repositoryName).shown (cloud.now w) none).map Prod.snd))
          (cloud.ticked w)) := by
  cases hfailure : (cloud.images region r.repositoryName).failure (cloud.now w) with
  | some err =>
    rw [repositoryImages_failed hfailure] at hrun
    cases hrun
    refine ⟨fun hP => ?_, fun _ => rfl⟩
    cases hP.1
  | none =>
    rw [repositoryImages_answered hfailure] at hrun
    refine (@pushImages_accounts _ _ _ digest tag _ _ _ _ _ (fun image himage => ?_) ?_
      hrun).congr (by simp)
    · obtain ⟨digest', hitem⟩ := item_of_privateDetails h himage
      rw [hitem.imageId_eq, isItem_iff, hitem.hasDigest]
      constructor
      · intro heq
        obtain ⟨rfl, rfl, -, -⟩ := imageTarget_inj hregion hregion hitem.plainName hitem.plainName
          hitem.plainDigest hdigest hitem.plainTag htag heq
        exact ⟨rfl, rfl⟩
      · rintro ⟨hd, rfl⟩
        rw [Option.some.inj hd]
        rfl
    · let entries := (cloud.images region r.repositoryName).shown (cloud.now w) none
      have hsub : (Cloud.privateDetails (entries.map Prod.snd)).Sublist
          (entries.flatMap fun p => Cloud.tagged p.2) := by
        have hflat := List.Sublist.flatMap (List.filter_sublist (p := fun d : ImageDetail =>
          truthy d.imageDigest && truthy d.repositoryName) (l := entries.map Prod.snd)) Cloud.tagged
        rwa [List.flatMap_map] at hflat
      refine hsub.countP_le.trans (countP_items_le (held_shown _ _) (Shelf.shown_keys_nodup _ _)
        fun p hp => ?_)
      exact (h.images (Shelf.shown_held hp)).2.2.2.1

end Repositories

section Used

variable {W : Type} {cloud : Cloud W} (h : Faithful cloud) {region name : String}
  {c c' d : Context W Entity} {out : List Entity}

def isRepository (region name : String) (r : Repository) : Bool :=
  r.region == region && r.repositoryName == name

include h in
theorem repositoryRegion_returned {o : List Entity} {u v : Context W Entity}
    (hrun : cloud.repositoryRegion region u = (.returned o, v)) :
    ∃ entries, (cloud.repositories region).collect cloud.fuel (cloud.now u) none =
        some (entries, cloud.now v) ∧ o = entries.flatMap (recordsOf repositoryMapper region) := by
  obtain ⟨st, items, hnow, hlist, rfl⟩ := readRegion_returned h hrun
  obtain ⟨entries, hcollect, rfl⟩ := paginate_returned hlist
  rw [hnow] at hcollect
  exact ⟨entries, hcollect, by rw [List.flatMap_map]; rfl⟩

theorem held_collected {α : Type} {named : α → Option String} {listing : Listing named} {n t u : Nat}
    {entries : List (String × α)} (hcollect : listing.collect n t none = some (entries, u)) :
    Held listing entries := by
  intro p hp
  obtain ⟨s, -, -, hs⟩ := (Shelf.collect_complete hcollect).held p.1 p.2 hp
  exact ⟨s, hs⟩

include h in
theorem repository_counts (hread : cloud.repositoryRead c = (.returned out, d))
    (henabled : cloud.Enabled region)
    (hexists : ∀ t, cloud.now c ≤ t → t ≤ cloud.now d →
      ∃ r, (cloud.repositories region).held t name = some r ∧ r.repositoryName = some name) :
    out.countP (·.entityId == generateId [name, region]) = 1 := by
  obtain ⟨hne, hplain, o, v, hbody, hstart, hend, hcount⟩ := inRegions_first h
    (kept_forward h).repositoryRegion hread henabled
  have hids : ∀ r, r ≠ "" → ∀ u o v, cloud.repositoryRegion r u = (.returned o, v) →
      ∀ e ∈ o, ∃ n, e.entityId = generateId [n, r] := by
    intro r hr u o v hbody e he
    obtain ⟨entries, hcollect, rfl⟩ := repositoryRegion_returned h hbody
    exact id_of_entries repositoryMapper_names hr (held_collected hcollect) he
  obtain ⟨entries, hcollect, rfl⟩ := repositoryRegion_returned h hbody
  have hcomplete := Shelf.collect_complete hcollect
  have hmoves := hcomplete.moves
  obtain ⟨r, hheld, hname⟩ := hexists (cloud.now c) (Nat.le_refl _) (by omega)
  have hmem : name ∈ entries.map Prod.fst := by
    refine hcomplete.every name ((cloud.repositories region).entries hheld).1 fun t hle hlt => ?_
    obtain ⟨r, hr, -⟩ := hexists t (by omega) (by omega)
    exact Option.isSome_iff_exists.mpr ⟨r, hr⟩
  refine (hcount hids name).trans ((accounts_entries repositoryMapper_names hne
    (held_collected hcollect) hcomplete.nodup hplain fun r' hr' => ?_).once hmem)
  obtain ⟨t, hle, hlt, ht⟩ := hcomplete.held name r' hr'
  obtain ⟨r'', hheld'', hname''⟩ := hexists t (by omega) (by omega)
  obtain rfl := Option.some.inj (ht.symm.trans hheld'')
  have hne' := ((cloud.repositories region).entries hheld'').2.1
  simp [repositoryMapper, truthy, hname'', hne']

theorem repositoryMapper_body {r : RepositoryAws} {body : Body}
    (hbody : repositoryMapper r region = some body) : ∃ record, body = .repository record := by
  unfold repositoryMapper at hbody
  split at hbody
  · cases hbody
  · exact ⟨_, (Option.some.inj hbody).symm⟩

include h in
theorem mem_repositoryRead (hread : cloud.repositoryRead c = (.returned out, d)) :
    ∀ e ∈ out, ∃ r, e.body = .repository r ∧ Plain r.region ∧
      e.entityId = generateId [r.repositoryName, r.region] := by
  obtain ⟨hgather, hregions⟩ := inRegions_returned hread
  obtain ⟨-, hnames⟩ := h.regions _ _ _ hregions
  refine gather_forall hgather fun region hmem u o v hrun e he => ?_
  obtain ⟨hne, hplain⟩ := hnames region hmem
  obtain ⟨entries, hcollect, rfl⟩ := repositoryRegion_returned h hrun
  obtain ⟨p, hp, hrecord⟩ := List.mem_flatMap.mp he
  have hid := id_of_mem repositoryMapper_names hne (held_collected hcollect) hp hrecord
  unfold recordsOf at hrecord
  rw [Option.mem_toList, Option.map_eq_some_iff] at hrecord
  obtain ⟨body, hbody, rfl⟩ := hrecord
  obtain ⟨record, rfl⟩ := repositoryMapper_body hbody
  obtain ⟨n, hname, hcolumns⟩ := repositoryMapper_names _ _ _ hbody
  obtain ⟨hn, hr⟩ : record.repositoryName = n ∧ record.region = region := by
    simpa [Body.cloudColumns] using hcolumns
  obtain ⟨t, ht⟩ := held_collected hcollect p hp
  obtain rfl := ((cloud.repositories region).entries ht).2.2 n hname
  exact ⟨record, rfl, hr ▸ hplain, by rw [hid, hn, hr]⟩

theorem countP_repositoriesIn (hplain : Plain region) (hout : ∀ e ∈ out, ∃ r,
      e.body = .repository r ∧ Plain r.region ∧ e.entityId = generateId [r.repositoryName, r.region]) :
    (Cloud.repositoriesIn out).countP (isRepository region name) =
      out.countP (·.entityId == generateId [name, region]) := by
  rw [Cloud.repositoriesIn, List.countP_filterMap]
  refine List.countP_congr fun e he => ?_
  obtain ⟨r, hbody, hr, hid⟩ := hout e he
  rw [hbody, hid, beq_iff_eq]
  change isRepository region name r = true ↔ _
  rw [isRepository, Bool.and_eq_true, beq_iff_eq, beq_iff_eq]
  constructor
  · rintro ⟨rfl, rfl⟩
    rfl
  · intro heq
    obtain ⟨hname, hregion⟩ := generateId_pair_inj hr hplain heq
    exact ⟨hregion, hname⟩

theorem countP_filter_region (repositories : List Repository) :
    (repositories.filter (·.region == region)).countP (·.repositoryName == name) =
      repositories.countP (isRepository region name) := by
  rw [List.countP_filter]
  refine List.countP_congr fun r _ => ?_
  simp [isRepository, and_comm]

theorem fullRead_returned {m : Mapper W Entity} {dest : Dest}
    (hrun : Cloud.fullRead m dest c = (.returned out, d)) :
    ∃ c', (m.crud dest).readFn c = (.returned out, c') ∧ d.store = c'.store := by
  obtain ⟨result, c', hread, hrest⟩ := bind_returned_inv hrun
  cases result with
  | error err => cases err <;> cases hrest
  | ok out' =>
    cases hrest
    exact ⟨c', attempt_ok.mp hread, memo_store dest c' out⟩

include h in
theorem repositoriesAt_counts (hc : MemoOnce c) (hplain : Plain region)
    (hused : cloud.usedRepositories (cloud.afterRegions c) =
      (.returned (cloud.repositoriesAt c), cloud.afterRepositories c))
    (henabled : cloud.Enabled region)
    (hexists : ∀ t, cloud.now c ≤ t → t ≤ cloud.now (cloud.afterRepositories c) →
      ∃ r, (cloud.repositories region).held t name = some r ∧ r.repositoryName = some name) :
    (cloud.repositoriesAt c).countP (isRepository region name) ≤ 1 ∧
      (0 < (cloud.repositoriesAt c).countP (isRepository region name) ↔
        (cloud.memoised c.memoCloud "Repository" = true →
          ∃ r ∈ Cloud.repositoriesIn (c.entities .cloud "Repository"),
            r.region = region ∧ r.repositoryName = name)) := by
  obtain ⟨ctx, c₁, hctx, hrest⟩ := bind_returned_inv hused
  cases hctx
  cases hmemo : cloud.memoised c.memoCloud "Repository" with
  | true =>
    have hmemo' : cloud.memoised (cloud.afterRegions c).memoCloud "Repository" = true := hmemo
    rw [if_pos (by exact hmemo')] at hrest
    have hat : cloud.repositoriesAt c = Cloud.repositoriesIn (c.entities .cloud "Repository") :=
      (Outcome.returned.inj (Prod.mk.inj hrest).1).symm
    rw [hat, ← countP_filter_region]
    refine ⟨hc.privateOnce region name, ?_⟩
    rw [countP_filter_region, List.countP_pos_iff]
    simp [isRepository]
  | false =>
    have hmemo' : ¬ cloud.memoised (cloud.afterRegions c).memoCloud "Repository" = true := by
      change ¬ cloud.memoised c.memoCloud "Repository" = true
      rw [hmemo]
      decide
    rw [if_neg (by exact hmemo')] at hrest
    obtain ⟨out, c₂, hfull, hpure⟩ := bind_returned_inv hrest
    obtain ⟨hat, hafter⟩ := Prod.mk.inj hpure
    have hat := Outcome.returned.inj hat
    obtain ⟨c₃, hread, hstore⟩ := fullRead_returned hfull
    have hread : cloud.repositoryRead (cloud.afterRegions c) = (.returned out, c₃) := hread
    have hnow : cloud.now (cloud.afterRepositories c) = cloud.now c₃ := by
      rw [← hafter]
      exact congrArg (fun st => cloud.clock.now st.world) hstore
    have hone : (cloud.repositoriesAt c).countP (isRepository region name) = 1 := by
      rw [← hat, countP_repositoriesIn hplain (mem_repositoryRead h hread)]
      refine repository_counts h hread henabled fun t hle hle' => hexists t ?_ ?_
      · rwa [now_afterRegions h] at hle
      · rwa [hnow]
    rw [hone]
    simp

end Used

section Private

variable {W : Type} {cloud : Cloud W} (h : Faithful cloud) {region name digest tag : String}
  {repositories : List Repository} {c d u v : Context W Entity} {o out : List Entity}

theorem privateRegion_returned
    (hrun : cloud.privateRegion repositories region u = (.returned o, v)) :
    Prog.gather (cloud.repositoryImages region) (repositories.filter (·.region == region))
      (atStore (cloud.getAwsClient (some region)) u).2 = (.returned o, v) := by
  obtain ⟨_, u', hclient, hgather⟩ := bind_returned_inv hrun
  rw [hclient]
  exact hgather

include h in
theorem mem_privateRegion (hrun : cloud.privateRegion repositories region u = (.returned o, v))
    {e : Entity} (he : e ∈ o) : ∃ name digest tag, Plain name ∧ Plain digest ∧ Plain tag ∧
      e.entityId = imageTarget region name digest tag := by
  refine gather_forall (P := fun e => ∃ name digest tag, Plain name ∧ Plain digest ∧ Plain tag ∧
    e.entityId = imageTarget region name digest tag) (privateRegion_returned hrun)
    (fun r _ w o w' hrun e he => ?_) e he
  obtain ⟨digest, tag, hdigest, htag, hname, hid⟩ := mem_repositoryImages h hrun he
  exact ⟨r.repositoryName, digest, tag, hname, hdigest, htag, hid⟩

include h in
theorem privateRegion_accounts (hplain : Plain region) (hname : Plain name) (hdigest : Plain digest)
    (htag : Plain tag)
    (hone : repositories.countP (isRepository region name) ≤ 1)
    (hrun : cloud.privateRegion repositories region u = (.returned o, v)) :
    let w := atFirst (cloud.repositoryImages region) (·.repositoryName == name)
      (repositories.filter (·.region == region)) (atStore (cloud.getAwsClient (some region)) u).2
    Accounts o (imageTarget region name digest tag)
      (0 < repositories.countP (isRepository region name) ∧
        (cloud.images region name).failure (cloud.now w) = none ∧
          cloud.Reaches region digest tag (Cloud.privateDetails
            (((cloud.images region name).shown (cloud.now w) none).map Prod.snd))
            (cloud.ticked w)) := by
  intro w
  have hgather := privateRegion_returned hrun
  have hothers : ∀ r ∈ repositories.filter (·.region == region), (r.repositoryName == name) = false →
      ∀ u o v, cloud.repositoryImages region r u = (.returned o, v) → ∀ e ∈ o,
        (e.entityId == imageTarget region name digest tag) = false := by
    intro r _ hne u o v hrun e he
    obtain ⟨digest', tag', hd, ht, hn, hid⟩ := mem_repositoryImages h hrun he
    rw [hid, beq_eq_false_iff_ne]
    intro heq
    obtain ⟨-, -, hsame, -⟩ := imageTarget_inj hplain hplain hn hname hd hdigest ht htag heq
    rw [hsame, beq_self_eq_true] at hne
    cases hne
  have hcount := @countP_filter_region region name repositories
  by_cases hany : 0 < repositories.countP (isRepository region name)
  · rw [← hcount, List.countP_pos_iff] at hany
    obtain ⟨r, hr, hrname, o', v', hbody, -, -, hsame⟩ := gather_first
      (F := Frame.ofField fun _ => ()) (p := (·.repositoryName == name)) (fun _ _ => rfl) hgather hany
    rw [← countP_filter_region, List.countP_eq_length_filter] at hone
    have haccounts := repositoryImages_accounts h hplain hdigest htag hbody
    rw [beq_iff_eq.mp hrname] at haccounts
    refine (haccounts.of_countP (hsame _ hone hothers)).congr ?_
    rw [← hcount, List.countP_pos_iff]
    exact ⟨fun hP => ⟨hany, hP⟩, fun hP => hP.2⟩
  · refine ⟨fun hP => absurd hP.1 hany, fun _ => ?_⟩
    rw [List.countP_eq_zero]
    intro e he
    have hnone : ∀ r ∈ repositories.filter (·.region == region),
        (r.repositoryName == name) = false := by
      intro r hr
      rw [← hcount, List.countP_pos_iff] at hany
      cases hrname : r.repositoryName == name with
      | false => rfl
      | true => exact absurd ⟨r, hr, hrname⟩ hany
    have := gather_forall hgather (P := fun e =>
      (e.entityId == imageTarget region name digest tag) = false)
      (fun r hr u o v hrun => hothers r hr (hnone r hr) u o v hrun) e he
    simp [this]

end Private

section Whole

variable {W : Type} {cloud : Cloud W} (h : Faithful cloud) {c d : Context W Entity}
  {out : List Entity}

structure Parts (cloud : Cloud W) (c d c₃ : Context W Entity) (out privateImages publicImages :
    List Entity) : Prop where
  enabled : cloud.getEnabledAwsRegions c.store =
    (.returned (cloud.regionsAt c), (cloud.afterRegions c).store)
  used : cloud.usedRepositories (cloud.afterRegions c) =
    (.returned (cloud.repositoriesAt c), cloud.afterRepositories c)
  privates : Prog.gather (cloud.privateRegion (cloud.repositoriesAt c)) (cloud.regionsAt c)
    (cloud.afterRepositories c) = (.returned privateImages, c₃)
  client : (atStore (cloud.getAwsClient none) c₃).2 = cloud.afterPrivate c
  publics : Prog.gather cloud.publicRepositoryImages
    (cloud.usedPublicRepositories (cloud.afterPrivate c)) (cloud.afterPrivate c) =
      (.returned publicImages, d)
  whole : out = privateImages ++ publicImages

theorem repositoryImageRead_returned (hread : cloud.repositoryImageRead c = (.returned out, d)) :
    ∃ c₃ privateImages publicImages, Parts cloud c d c₃ out privateImages publicImages := by
  obtain ⟨regions, c₁, hregions, hread⟩ := bind_returned_inv hread
  obtain ⟨repositories, c₂, hused, hread⟩ := bind_returned_inv hread
  obtain ⟨privateImages, c₃, hprivate, hread⟩ := bind_returned_inv hread
  obtain ⟨_, c₄, hclient, hread⟩ := bind_returned_inv hread
  obtain ⟨publicRepositories, c₅, hpublics, hread⟩ := bind_returned_inv hread
  obtain ⟨publicImages, c₆, hpublic, hpure⟩ := bind_returned_inv hread
  cases hpure
  cases hpublics
  obtain ⟨hfst, rfl⟩ : (cloud.getEnabledAwsRegions c.store).1 = .returned regions ∧
      cloud.afterRegions c = c₁ := Prod.mk.inj hregions
  have hat : cloud.regionsAt c = regions := by rw [Cloud.regionsAt, hfst]
  have hrepositories : cloud.repositoriesAt c = repositories := by
    rw [Cloud.repositoriesAt, hused]
  have hafter : cloud.afterRepositories c = c₂ := by rw [Cloud.afterRepositories, hused]
  have hlast : cloud.afterPrivate c = c₄ := by
    rw [Cloud.afterPrivate, hrepositories, hat, hafter, hprivate, hclient]
  subst hat hrepositories hafter hlast
  exact ⟨c₃, privateImages, publicImages,
    { enabled := run_eq hfst
      used := hused
      privates := hprivate
      client := by rw [hclient]
      publics := hpublic
      whole := rfl }⟩

def publicTarget (name digest tag : String) : String :=
  generateId [digest, tag, "public", name]

theorem gather_mapped {type : String} {region : Option String} {u v : Context W Entity}
    {o : List Entity} {items : List (ImageDetail × String)}
    (hrun : Prog.gather (fun image => do
      return [← cloud.repositoryImageMapper image type region]) items u = (.returned o, v)) :
    o.map Entity.entityId = (items.map fun image => Cloud.imageId image.1 image.2 type region) ∧
      ∀ image ∈ items, truthy image.1.imageDigest = true := by
  induction items generalizing u o with
  | nil =>
    cases hrun
    exact ⟨rfl, by simp⟩
  | cons image items ih =>
    obtain ⟨first, u₁, hfirst, hrest⟩ := bind_returned_inv hrun
    obtain ⟨rest, u₂, hitems, hpure⟩ := bind_returned_inv hrest
    cases hpure
    obtain ⟨e, u₃, hmapper, hpure⟩ := bind_returned_inv hfirst
    cases hpure
    obtain ⟨hid, hdigest⟩ := repositoryImageMapper_returned hmapper
    obtain ⟨hids, hdigests⟩ := ih hitems
    refine ⟨by simp [hid, hids], fun image' hmem => ?_⟩
    rcases List.mem_cons.mp hmem with rfl | hmem
    · exact hdigest
    · exact hdigests image' hmem

include h in
theorem publicRepositoryImages_returned {rp : PublicRepository} {u v : Context W Entity}
    {o : List Entity} (hrun : cloud.publicRepositoryImages rp u = (.returned o, v)) :
    let items := ((cloud.publicImages rp.repositoryName).shown (cloud.now u) none).flatMap
      (fun p => Cloud.tagged p.2)
    (∀ image ∈ items, ∃ digest, Item rp.repositoryName digest image) ∧
      o.map Entity.entityId = (items.map fun image =>
        Cloud.imageId image.1 image.2 "public" none) ∧ cloud.now u < cloud.now v := by
  obtain ⟨ri, u₁, hpage, hgather⟩ := bind_returned_inv hrun
  obtain ⟨hcall, rfl⟩ : (cloud.listPublicRepositoryImages rp u.store).1 = .returned ri ∧
      { u with store := (cloud.listPublicRepositoryImages rp u.store).2 } = u₁ :=
    Prod.mk.inj hpage
  obtain ⟨hitems, -, hmoved⟩ := page_returned (run_eq hcall)
  rw [hitems, List.flatMap_map] at hgather
  obtain ⟨hids, hdigests⟩ := gather_mapped hgather
  refine ⟨fun image himage => ?_, hids, ?_⟩
  · obtain ⟨⟨k, detail⟩, hp, htagged⟩ := List.mem_flatMap.mp himage
    have hheld := Shelf.shown_held hp
    obtain ⟨hname, hplainName, hplainDigest, -, hplainTags⟩ := h.publicImages hheld
    have hfst : image.1 = detail := (mem_tagged htagged).1
    obtain ⟨n, hdigest⟩ := truthy_some (hdigests image himage)
    obtain rfl := ((cloud.publicImages rp.repositoryName).entries hheld).2.2 n (hfst ▸ hdigest)
    exact ⟨n, hdigest, hfst ▸ hname, hplainName, hplainDigest,
      item_tag_plain hplainTags htagged⟩
  · have hkeep : cloud.now _ ≤ cloud.now v :=
      Frame.rel_of_eq (F := ctxFrame cloud.forward) (Frame.keeps_gather fun image _ =>
        Frame.keeps_bind ((kept_forward h).repositoryImageMapper image _ _) fun _ =>
          Frame.keeps_pure _) hgather
    have hstart : cloud.now { u with store := (cloud.listPublicRepositoryImages rp u.store).2 } =
        cloud.now u + 1 := hmoved
    omega

theorem publicTarget_inj {name name' digest digest' tag tag' : String} (hn : Plain name)
    (hn' : Plain name') (hd : Plain digest) (hd' : Plain digest') (ht : Plain tag)
    (ht' : Plain tag') (heq : publicTarget name digest tag = publicTarget name' digest' tag') :
    digest = digest' ∧ tag = tag' ∧ name = name' := by
  have hfields := generateId_inj
    (by simp [hn, hd, ht, plain_public]) (by simp [hn', hd', ht', plain_public])
    (by simp) (by simp) heq
  simpa using hfields

theorem private_ne_public {region name name' digest digest' tag tag' : String}
    (hr : Plain region) (hn : Plain name) (hn' : Plain name') (hd : Plain digest)
    (hd' : Plain digest') (ht : Plain tag) (ht' : Plain tag') :
    imageTarget region name digest tag ≠ publicTarget name' digest' tag' := by
  intro heq
  have hfields := generateId_inj
    (by simp [hr, hn, hd, ht, plain_private]) (by simp [hn', hd', ht', plain_public])
    (by simp) (by simp) heq
  simp at hfields

include h in
theorem publicRepositoryImages_accounts {rp : PublicRepository} {digest tag : String}
    {u v : Context W Entity} {o : List Entity} (hdigest : Plain digest) (htag : Plain tag)
    (hexists : ∃ image, (cloud.publicImages rp.repositoryName).held (cloud.now u) digest =
      some image ∧ image.imageDigest = some digest ∧ (image, tag) ∈ Cloud.tagged image)
    (hrun : cloud.publicRepositoryImages rp u = (.returned o, v)) :
    Accounts o (publicTarget rp.repositoryName digest tag)
      (digest ∈ ((cloud.publicImages rp.repositoryName).shown (cloud.now u) none).map Prod.fst) := by
  obtain ⟨hitems, hids, -⟩ := publicRepositoryImages_returned h hrun
  let listing := cloud.publicImages rp.repositoryName
  let entries := listing.shown (cloud.now u) none
  have hcount : o.countP (·.entityId == publicTarget rp.repositoryName digest tag) =
      (entries.flatMap fun p => Cloud.tagged p.2).countP (isItem digest tag) := by
    have hmap := congrArg (List.countP (· == publicTarget rp.repositoryName digest tag)) hids
    rw [List.countP_map, List.countP_map] at hmap
    refine hmap.trans (List.countP_congr fun image himage => ?_)
    obtain ⟨digest', hitem⟩ := hitems image himage
    change (Cloud.imageId image.1 image.2 "public" none == _) = true ↔ _
    rw [beq_iff_eq, hitem.imageId_eq, isItem_iff, hitem.hasDigest]
    constructor
    · intro heq
      obtain ⟨rfl, rfl, -⟩ := publicTarget_inj hitem.plainName hitem.plainName hitem.plainDigest
        hdigest hitem.plainTag htag heq
      exact ⟨rfl, rfl⟩
    · rintro ⟨hd, rfl⟩
      rw [Option.some.inj hd]
      rfl
  rcases @countP_items digest tag listing _ (held_shown (cloud.now u) none)
    (Shelf.shown_keys_nodup (cloud.now u) none)
    with ⟨detail, hmem, hsame⟩ | ⟨hnot, hnone⟩
  · obtain ⟨image, hheld, himageDigest, himage⟩ := hexists
    have hdetail := Shelf.shown_held hmem
    obtain rfl := Option.some.inj (hdetail.symm.trans hheld)
    obtain ⟨-, -, -, hnodup, -⟩ := h.publicImages hheld
    have hone : (Cloud.tagged detail).count (detail, tag) = 1 :=
      List.count_eq_one_of_mem (tagged_nodup hnodup) himage
    refine ⟨fun _ => ?_, fun hnot => absurd (List.mem_map.mpr ⟨_, hmem, rfl⟩) hnot⟩
    rw [hcount, hsame, countP_tagged himageDigest, hone]
  · exact ⟨fun hmem => absurd hmem hnot, fun _ => hcount.trans hnone⟩

end Whole

end Iasql.Aws
