import Iasql.ContainerDefinitions

namespace Iasql.ContainerDefinitions

open Aws

section Environment

variable {numberText : ℚ → String} {d : Dict String JsVal}

theorem objectIs_str {value : JsVal} {s : String} :
    objectIs value (.str s) = true ↔ value = .str s := by
  cases value <;> simp [objectIs]

def written (numberText : ℚ → String) (d : Dict String JsVal) : List (String × String) :=
  d.entries.map fun ev => (ev.1, valueText numberText ev.2)

theorem keys_written : OrderedMap.keys (written numberText d) = d.keys := by
  simp [OrderedMap.keys, written, Dict.keys]

theorem entries_readEnvironment : (readEnvironment (written numberText d)).entries =
    ((written numberText d).filter (·.1 ≠ proto)).map fun ev => (ev.1, .str ev.2) := by
  refine Dict.entries_ofList ?_
  have hnodup : (OrderedMap.keys (written numberText d)).Nodup := keys_written ▸ d.nodup
  have hsublist := (List.filter_sublist (p := fun ev : String × String => ev.1 ≠ proto)
    (l := written numberText d)).map Prod.fst
  simpa [OrderedMap.keys, List.map_map, Function.comp_def] using hnodup.sublist hsublist

theorem mem_readEnvironment {name : String} {value : JsVal} :
    (name, value) ∈ (readEnvironment (written numberText d)).entries ↔
      name ≠ proto ∧ ∃ v, (name, v) ∈ d.entries ∧ value = .str (valueText numberText v) := by
  rw [entries_readEnvironment]
  constructor
  · intro h
    obtain ⟨⟨n, text⟩, hmem, heq⟩ := List.mem_map.mp h
    obtain ⟨hwritten, hproto⟩ := List.mem_filter.mp hmem
    obtain ⟨⟨m, v⟩, hv, hpair⟩ := List.mem_map.mp hwritten
    cases hpair
    cases heq
    exact ⟨of_decide_eq_true hproto, v, hv, rfl⟩
  · rintro ⟨hproto, v, hv, rfl⟩
    have hwritten : (name, valueText numberText v) ∈ written numberText d :=
      List.mem_map.mpr ⟨(name, v), hv, rfl⟩
    exact List.mem_map.mpr ⟨_, List.mem_filter.mpr ⟨hwritten, decide_eq_true hproto⟩, rfl⟩

-- a variable is found again where its value is a text and its name counts as found
def KeptVariable (name : String) (value : JsVal) : Prop :=
  name ≠ "" ∧ name ≠ proto ∧ ∃ s, value = .str s

theorem length_readEnvironment (h : ∀ name value, (name, value) ∈ d.entries → name ≠ proto) :
    (readEnvironment (written numberText d)).keys.length = d.keys.length := by
  have hall : (written numberText d).filter (·.1 ≠ proto) = written numberText d := by
    refine List.filter_eq_self.mpr fun ev hev => ?_
    obtain ⟨⟨name, value⟩, hmem, rfl⟩ := List.mem_map.mp hev
    exact decide_eq_true (h name value hmem)
  rw [Dict.keys, OrderedMap.keys, entries_readEnvironment, hall]
  simp [written, Dict.keys, OrderedMap.keys]

theorem envVariablesEq_iff : envVariablesEq d (readEnvironment (written numberText d)) = true ↔
    ∀ name value, (name, value) ∈ d.entries → KeptVariable name value := by
  rw [envVariablesEq, Bool.and_eq_true, beq_iff_eq, List.all_eq_true]
  constructor
  · rintro ⟨-, hall⟩ name value hmem
    have hfound := hall (name, value) hmem
    rw [Option.any_map, Option.any_eq_true] at hfound
    obtain ⟨⟨n, v⟩, hfind, hname⟩ := hfound
    have hsame := List.find?_some hfind
    rw [Bool.and_eq_true, beq_iff_eq] at hsame
    obtain ⟨rfl, his⟩ := hsame
    obtain ⟨hproto, w, -, rfl⟩ := mem_readEnvironment.mp (List.mem_of_find?_eq_some hfind)
    exact ⟨by simpa using hname, hproto, _, objectIs_str.mp his⟩
  · intro h
    refine ⟨(length_readEnvironment fun name value hmem => (h name value hmem).2.1).symm, ?_⟩
    rintro ⟨name, value⟩ hmem
    obtain ⟨hname, hproto, s, rfl⟩ := h name value hmem
    have hread : (name, .str s) ∈ (readEnvironment (written numberText d)).entries :=
      mem_readEnvironment.mpr ⟨hproto, .str s, hmem, by rw [valueText]⟩
    have hsome : ((readEnvironment (written numberText d)).entries.find? fun bv =>
        name == bv.1 && objectIs (.str s) bv.2).isSome = true := by
      refine List.find?_isSome.mpr ⟨(name, .str s), hread, ?_⟩
      rw [Bool.and_eq_true, beq_iff_eq]
      exact ⟨rfl, objectIs_str.mpr rfl⟩
    obtain ⟨⟨n, v⟩, hfind⟩ := Option.isSome_iff_exists.mp hsome
    have hsame := List.find?_some hfind
    rw [Bool.and_eq_true, beq_iff_eq] at hsame
    obtain ⟨rfl, -⟩ := hsame
    rw [hfind]
    simpa using hname

end Environment

section Ports

variable {c : ContainerDefinition}

def sentPorts (c : ContainerDefinition) : Option (List PortMapping) :=
  if truthyPort c.containerPort && truthyPort c.hostPort && c.protocol.isSome then
    some [⟨c.containerPort, c.hostPort, c.protocol⟩]
  else none

def portRead (mappings : Option (List PortMapping)) : Option PortMapping := (mappings.getD []).getLast?

-- a mapping is sent as a whole or not at all, and a port that is zero counts as absent
def KeptPorts (c : ContainerDefinition) : Prop :=
  (c.containerPort = none ∧ c.hostPort = none ∧ c.protocol = none) ∨
    (truthyPort c.containerPort = true ∧ truthyPort c.hostPort = true ∧ c.protocol.isSome = true)

theorem ports_iff : (c.containerPort = (portRead (sentPorts c)).bind (·.containerPort) ∧
    c.hostPort = (portRead (sentPorts c)).bind (·.hostPort) ∧
    c.protocol = (portRead (sentPorts c)).bind (·.protocol)) ↔ KeptPorts c := by
  by_cases h : (truthyPort c.containerPort && truthyPort c.hostPort && c.protocol.isSome) = true
  · have hkept : KeptPorts c := by
      rw [Bool.and_eq_true, Bool.and_eq_true, and_assoc] at h
      exact .inr h
    rw [sentPorts, if_pos h]
    exact iff_of_true ⟨rfl, rfl, rfl⟩ hkept
  · rw [sentPorts, if_neg h]
    refine (or_iff_left ?_).symm
    rw [Bool.and_eq_true, Bool.and_eq_true, and_assoc] at h
    exact h

end Ports

section Logs

variable {known : Known} {region clientRegion : String} {c : ContainerDefinition}

def sentLogs (clientRegion : String) (c : ContainerDefinition) : Option LogConfiguration :=
  c.logGroup.map fun logGroup => ⟨"awslogs", logGroup.logGroupName, clientRegion, "awslogs-" ++ c.name⟩

-- the log group of its name is known in the region, and is the same
def KeptLogs (known : Known) (region : String) (c : ContainerDefinition) : Prop :=
  ∀ logGroup ∈ c.logGroup, ∃ found, known.logGroup logGroup.logGroupName region = .ok found ∧
    found.bind (·.logGroupArn) = logGroup.logGroupArn

theorem logs_iff : (∃ found, readLogGroup known region (sentLogs clientRegion c) = .ok found ∧
    c.logGroup.bind (·.logGroupArn) = found.bind (·.logGroupArn)) ↔ KeptLogs known region c := by
  cases hlogs : c.logGroup with
  | none =>
    have hread : readLogGroup known region (sentLogs clientRegion c) = .ok none := by
      rw [sentLogs, hlogs]
      rfl
    rw [hread, KeptLogs, hlogs]
    exact iff_of_true ⟨none, rfl, rfl⟩ fun _ h => absurd h (Option.not_mem_none _)
  | some logGroup =>
    have hread : readLogGroup known region (sentLogs clientRegion c) =
        known.logGroup logGroup.logGroupName region := by
      rw [sentLogs, hlogs]
      rfl
    rw [hread, KeptLogs, hlogs]
    constructor
    · rintro ⟨found, hfound, harn⟩ _ ⟨⟩
      exact ⟨found, hfound, harn.symm⟩
    · intro h
      obtain ⟨found, hfound, harn⟩ := h logGroup rfl
      exact ⟨found, hfound, harn.symm⟩

end Logs

section Repositories

variable {known : Known} {region uri name : String} {c : ContainerDefinition} {image : Option String}

-- the repositories of a container are rows, and no two of them are of one name and region
structure Stored (known : Known) (c : ContainerDefinition) : Prop where
  hasId : ∀ r ∈ c.repository, r.id.isSome = true
  repository : ∀ r ∈ c.repository, ∀ name region,
    (known.repository name region).bind (·.id) = r.id ↔ name = r.repositoryName ∧ region = r.region
  hasName : ∀ p ∈ c.publicRepository, p.repositoryName.isSome = true
  publicRepository : ∀ p ∈ c.publicRepository, ∀ name ∈ p.repositoryName,
    (known.publicRepository name).isSome = true

-- no repository is known that an image seems to be of
def Unclaimed (known : Known) (region image : String) : Prop :=
  if includes "amazonaws.com" image then known.repository (lastPart image) region = none
  else includes "public.ecr.aws" image →
    lastPart image ≠ "" ∧ known.publicRepository (lastPart image) = none

theorem readRepositories_eq_none : readRepositories known region (some uri) = (none, none) ↔
    Unclaimed known region uri := by
  rw [readRepositories, Unclaimed]
  split
  · simp
  · split
    · next hpublic =>
      rw [readPublicRepository]
      split <;> simp [*]
    · next hpublic => simp [hpublic]

theorem private_lastPart (h : PrivateUri uri name) : lastPart uri = lastPart name := by
  obtain ⟨registry, rfl, -⟩ := h
  exact lastPart_append registry name

theorem private_includes (h : PrivateUri uri name) : includes "amazonaws.com" uri = true := by
  obtain ⟨registry, rfl, hregistry, -⟩ := h
  exact includes_append_left (includes_append_left hregistry _) _

theorem private_clean (h : PrivateUri uri name) : '@' ∉ uri.toList ∧ ':' ∉ uri.toList :=
  h.choose_spec.2.2

theorem public_clean (h : PublicUri uri name) : '@' ∉ uri.toList ∧ ':' ∉ uri.toList :=
  h.choose_spec.2.2

theorem public_lastPart (h : PublicUri uri name) : lastPart uri = lastPart name := by
  obtain ⟨registryAlias, rfl, -⟩ := h
  exact lastPart_append _ name

theorem public_includes (h : PublicUri uri name) : includes "public.ecr.aws" uri = true := by
  obtain ⟨registryAlias, rfl, -⟩ := h
  have hhost : includes "public.ecr.aws" "public.ecr.aws/" = true := by decide
  exact includes_append_left (includes_append_left (includes_append_left hhost _) _) _

theorem readRepositories_private (h : PrivateUri uri name) :
    readRepositories known region (some uri) = (known.repository (lastPart name) region, none) := by
  rw [readRepositories, if_pos (private_includes h), private_lastPart h]

theorem readRepositories_public (h : PublicUri uri name) (hhost : includes "amazonaws.com" uri = false) :
    readRepositories known region (some uri) = (none, readPublicRepository known (lastPart name)) := by
  rw [readRepositories, hhost, if_neg Bool.false_ne_true, if_pos (public_includes h), public_lastPart h]

-- the repository whose name is read back is the one of that name
theorem readPublicRepository_iff (hname : name ≠ "")
    (hknown : (known.publicRepository name).isSome = true) :
    (readPublicRepository known (lastPart name)).bind (·.repositoryName) = some name ↔
      '/' ∉ name.toList := by
  rw [← lastPart_eq_iff, readPublicRepository]
  split
  · next hempty =>
    rw [hempty]
    exact iff_of_false nofun (Ne.symm hname)
  · constructor
    · intro h
      obtain ⟨p, hp, hrepositoryName⟩ := Option.bind_eq_some_iff.mp h
      have hnamed := known.named _ _ hp
      exact Option.some.inj (hnamed.symm.trans hrepositoryName)
    · intro h
      obtain ⟨p, hp⟩ := Option.isSome_iff_exists.mp hknown
      rw [h, hp]
      exact known.named _ _ hp

end Repositories

section Images

variable {known : Known} {region uri base name : String} {c : ContainerDefinition}
  {image containerImage : Option String} {repository : Repository} {publicRepository : PublicRepository}

-- the columns that name the image, as they are compared with what is read of an image
def Placed (known : Known) (region : String) (c : ContainerDefinition)
    (containerImage : Option String) : Prop :=
  let repositories := readRepositories known region containerImage
  c.publicRepository.bind (·.repositoryName) = repositories.2.bind (·.repositoryName) ∧
    c.repository.bind (·.id) = repositories.1.bind (·.id) ∧
    c.image = if repositories.1.isNone && repositories.2.isNone then containerImage else none

def ReadsImage (known : Known) (region : String) (c : ContainerDefinition)
    (image : Option String) : Prop :=
  let decoded := decodeImage (encodeImage image c.digest c.tag)
  Placed known region c decoded.containerImage ∧ decoded.digest = c.digest ∧ decoded.tag = c.tag

-- the columns that are read back as they are, apart from the digest and the tag
def KeptName (known : Known) (region : String) (c : ContainerDefinition) : Prop :=
  match c.image, c.repository, c.publicRepository with
  | some image, none, none =>
    image ≠ "" ∧ '@' ∉ image.toList ∧ (c.digest = none → ':' ∉ image.toList) ∧
      Unclaimed known region image
  | none, some repository, none => '/' ∉ repository.repositoryName.toList ∧ repository.region = region
  | none, none, some publicRepository =>
    (∀ name ∈ publicRepository.repositoryName, '/' ∉ name.toList) ∧
      ∀ uri ∈ publicRepository.repositoryUri, includes "amazonaws.com" uri = false
  | _, _, _ => False

theorem eq_none_of_bind {α β : Type} {o : Option α} {f : α → Option β}
    (hsome : ∀ a ∈ o, (f a).isSome = true) (h : o.bind f = none) : o = none := by
  refine Option.eq_none_iff_forall_not_mem.mpr fun a ha => ?_
  have hnone : f a = none := Option.bind_eq_none_iff.mp h a ha
  simpa [hnone] using hsome a ha

-- an image is read where no repository is
theorem placed_image (himage : c.image = some base) (h : Placed known region c containerImage) :
    containerImage = some base ∧ readRepositories known region containerImage = (none, none) := by
  obtain ⟨-, -, h⟩ := h
  rw [himage] at h
  generalize readRepositories known region containerImage = repositories at h ⊢
  obtain ⟨r, p⟩ := repositories
  cases r <;> cases p <;> cases h
  exact ⟨rfl, rfl⟩

theorem placed_named_iff (hstored : Stored known c) (himage : c.image = some base) :
    Placed known region c (some base) ↔
      c.repository = none ∧ c.publicRepository = none ∧ Unclaimed known region base := by
  constructor
  · intro h
    have hnone := (placed_image himage h).2
    obtain ⟨hpublic, hrepository, -⟩ := h
    rw [hnone] at hpublic hrepository
    exact ⟨eq_none_of_bind hstored.hasId hrepository, eq_none_of_bind hstored.hasName hpublic,
      readRepositories_eq_none.mp hnone⟩
  · rintro ⟨hrepository, hpublic, hunclaimed⟩
    rw [Placed, readRepositories_eq_none.mpr hunclaimed, hrepository, hpublic, himage]
    exact ⟨rfl, rfl, rfl⟩

theorem placed_private_iff (hstored : Stored known c) (himage : c.image = none)
    (hrepository : c.repository = some repository) (huri : PrivateUri uri repository.repositoryName) :
    Placed known region c (some uri) ↔ c.publicRepository = none ∧
      '/' ∉ repository.repositoryName.toList ∧ repository.region = region := by
  have hread := @readRepositories_private known region _ _ huri
  have hid := hstored.hasId repository hrepository
  have hlaw := hstored.repository repository hrepository (lastPart repository.repositoryName) region
  rw [lastPart_eq_iff, eq_comm (a := region)] at hlaw
  rw [Placed, hread, hrepository, himage, ← hlaw, Option.bind_some]
  constructor
  · rintro ⟨hpublic, hsame, -⟩
    exact ⟨eq_none_of_bind hstored.hasName hpublic, hsame.symm⟩
  · rintro ⟨hpublic, hsame⟩
    rw [hpublic]
    refine ⟨rfl, hsame.symm, ?_⟩
    obtain ⟨id, hid⟩ := Option.isSome_iff_exists.mp hid
    obtain ⟨found, hfound, -⟩ := Option.bind_eq_some_iff.mp (hsame.trans hid)
    rw [hfound]
    rfl

theorem placed_public_iff (hstored : Stored known c) (himage : c.image = none)
    (hrepository : c.repository = none) (hpublic : c.publicRepository = some publicRepository)
    (hname : publicRepository.repositoryName = some name) (huri : PublicUri uri name) :
    Placed known region c (some uri) ↔ '/' ∉ name.toList ∧ includes "amazonaws.com" uri = false := by
  have hne : name ≠ "" := huri.choose_spec.2.1
  have hknown := hstored.publicRepository publicRepository hpublic name hname
  have hread := @readPublicRepository_iff known name hne hknown
  cases hhost : includes "amazonaws.com" uri with
  | true =>
    refine iff_of_false ?_ (fun h => Bool.noConfusion h.2)
    rintro ⟨h, -, -⟩
    rw [readRepositories, if_pos hhost, hpublic, Option.bind_some, hname] at h
    cases h
  | false =>
    rw [Placed, readRepositories_public huri hhost, hpublic, hrepository, himage, Option.bind_some,
      hname, and_iff_left rfl, ← hread]
    constructor
    · exact fun h => h.1.symm
    · intro h
      refine ⟨h.symm, rfl, ?_⟩
      obtain ⟨found, hfound, -⟩ := Option.bind_eq_some_iff.mp h
      rw [hfound]
      rfl

-- of an address only the digest and the tag are in question
theorem reads_address_iff (hat : '@' ∉ uri.toList) (hcolon : ':' ∉ uri.toList) :
    ReadsImage known region c (some uri) ↔ Suffix c.digest c.tag ∧ Placed known region c (some uri) := by
  have hclean := @decode_clean_iff uri c.digest c.tag hat hcolon
  constructor
  · rintro ⟨hplaced, hsuffix⟩
    rw [containerImage_eq hat hcolon hsuffix.2] at hplaced
    exact ⟨hclean.mp hsuffix, hplaced⟩
  · rintro ⟨hsuffix, hplaced⟩
    have hread := hclean.mpr hsuffix
    refine ⟨?_, hread⟩
    rw [containerImage_eq hat hcolon hread.2]
    exact hplaced

theorem reads_named_iff (hstored : Stored known c) (himage : c.image = some base) :
    ReadsImage known region c (some base) ↔ Suffix c.digest c.tag ∧
      '@' ∉ base.toList ∧ (c.digest = none → ':' ∉ base.toList) ∧
      c.repository = none ∧ c.publicRepository = none ∧ Unclaimed known region base := by
  rw [← placed_named_iff hstored himage]
  have hwhole := @decode_encode_iff base c.digest c.tag
  constructor
  · rintro ⟨hplaced, hdigest, htag⟩
    have hbase := (placed_image himage hplaced).1
    rw [hbase] at hplaced
    have hdecoded : decodeImage (encodeImage (some base) c.digest c.tag) =
        ⟨some base, c.digest, c.tag⟩ := Decoded.ext hbase hdigest htag
    obtain ⟨hat, hcolon, hsuffix⟩ := hwhole.mp hdecoded
    exact ⟨hsuffix, hat, hcolon, hplaced⟩
  · rintro ⟨hsuffix, hat, hcolon, hplaced⟩
    rw [ReadsImage, hwhole.mpr ⟨hat, hcolon, hsuffix⟩]
    exact ⟨hplaced, rfl, rfl⟩

-- where the image of a container is taken from
inductive Sent (c : ContainerDefinition) : Option String → Prop where
  | ofImage (base : String) (himage : c.image = some base) (hne : base ≠ "") : Sent c (some base)
  | ofRepository (repository : Repository) (uri : String) (hfalsy : Aws.truthy c.image = false)
      (hrepository : c.repository = some repository) (huri : repository.repositoryUri = some uri)
      (hne : uri ≠ "") : Sent c (some uri)
  | ofPublicRepository (publicRepository : PublicRepository) (uri : String)
      (hfalsy : Aws.truthy c.image = false) (hrepository : c.repository = none)
      (hpublic : c.publicRepository = some publicRepository)
      (huri : publicRepository.repositoryUri = some uri) (hne : uri ≠ "") : Sent c (some uri)
  | ofNothing (hfalsy : Aws.truthy c.image = false) (hrepository : c.repository = none)
      (hpublic : c.publicRepository = none) : Sent c none

theorem imageOf_sent (h : imageOf c = .ok image) : Sent c image := by
  cases htruthy : Aws.truthy c.image with
  | true =>
    rw [imageOf, if_pos htruthy] at h
    obtain ⟨base, himage, hne⟩ := truthy_eq_some htruthy
    cases h
    rw [himage]
    exact .ofImage base himage hne
  | false =>
    rw [imageOf, htruthy, if_neg Bool.false_ne_true] at h
    cases hrepository : c.repository with
    | some repository =>
      rw [hrepository] at h
      cases huri : Aws.truthy repository.repositoryUri with
      | false =>
        simp only [huri] at h
        cases h
      | true =>
        simp only [huri] at h
        cases h
        obtain ⟨uri, huri, hne⟩ := truthy_eq_some huri
        rw [huri]
        exact .ofRepository repository uri htruthy hrepository huri hne
    | none =>
      rw [hrepository] at h
      cases hpublic : c.publicRepository with
      | none =>
        rw [hpublic] at h
        cases h
        exact .ofNothing htruthy hrepository hpublic
      | some publicRepository =>
        rw [hpublic] at h
        cases huri : Aws.truthy publicRepository.repositoryUri with
        | false =>
          simp only [huri] at h
          cases h
        | true =>
          simp only [huri] at h
          cases h
          obtain ⟨uri, huri, hne⟩ := truthy_eq_some huri
          rw [huri]
          exact .ofPublicRepository publicRepository uri htruthy hrepository hpublic huri hne

theorem not_keptName_empty (hempty : c.image = some "") : ¬ KeptName known region c := by
  rw [KeptName, hempty]
  cases c.repository with
  | some r => exact id
  | none =>
    cases c.publicRepository with
    | some p => exact id
    | none => exact fun h => h.1 rfl

-- an image that is empty is not what the address of a repository is read as
theorem not_reads_empty (hempty : c.image = some "") (hat : '@' ∉ uri.toList)
    (hcolon : ':' ∉ uri.toList) (hne : uri ≠ "") : ¬ ReadsImage known region c (some uri) := by
  rintro ⟨hplaced, -, htag⟩
  have hread := (placed_image hempty hplaced).1
  rw [containerImage_eq hat hcolon htag] at hread
  exact hne (Option.some.inj hread)

theorem not_reads_nothing (hempty : c.image = some "") : ¬ ReadsImage known region c none := by
  rintro ⟨hplaced, hdigest, htag⟩
  by_cases hsuffix : Aws.truthy c.digest = true ∨ Aws.truthy c.tag = true
  · have hencode : encodeImage none c.digest c.tag =
        encodeImage (some "undefined") c.digest c.tag := by
      rcases hsuffix with h | h <;> simp [encodeImage, h]
    rw [hencode] at hplaced hdigest htag
    exact not_reads_empty hempty (by decide) (by decide) (by decide) ⟨hplaced, hdigest, htag⟩
  · have hencode : encodeImage none c.digest c.tag = none := by
      rw [not_or, Bool.not_eq_true, Bool.not_eq_true] at hsuffix
      simp [encodeImage, hsuffix]
    rw [hencode] at hplaced
    cases (placed_image hempty hplaced).1

theorem images_iff (haccepted : Accepted c) (hstored : Stored known c) (h : imageOf c = .ok image) :
    ReadsImage known region c image ↔ Suffix c.digest c.tag ∧ KeptName known region c := by
  cases imageOf_sent h with
  | ofImage base himage hne =>
    rw [reads_named_iff hstored himage, KeptName, himage]
    refine and_congr_right fun _ => ?_
    cases c.repository <;> cases c.publicRepository <;> simp [hne]
  | ofRepository repository uri hfalsy hrepository huri hne =>
    have hlocated := repository.located uri huri
    obtain ⟨hat, hcolon⟩ := private_clean hlocated
    rcases falsy_cases hfalsy with himage | himage
    · rw [reads_address_iff hat hcolon, placed_private_iff hstored himage hrepository hlocated,
        KeptName, himage, hrepository]
      refine and_congr_right fun _ => ?_
      cases c.publicRepository <;> simp
    · exact iff_of_false (not_reads_empty himage hat hcolon hne) fun h => not_keptName_empty himage h.2
  | ofPublicRepository publicRepository uri hfalsy hrepository hpublic huri hne =>
    obtain ⟨name, hname, hlocated⟩ := publicRepository.located uri huri
    obtain ⟨hat, hcolon⟩ := public_clean hlocated
    rcases falsy_cases hfalsy with himage | himage
    · rw [reads_address_iff hat hcolon,
        placed_public_iff hstored himage hrepository hpublic hname hlocated, KeptName, himage,
        hrepository, hpublic]
      refine and_congr_right fun _ => ?_
      simp [hname, huri]
    · exact iff_of_false (not_reads_empty himage hat hcolon hne) fun h => not_keptName_empty himage h.2
  | ofNothing hfalsy hrepository hpublic =>
    rcases falsy_cases hfalsy with himage | himage
    · have hplaced := haccepted.image himage
      rw [hrepository, hpublic] at hplaced
      rcases hplaced with hplaced | hplaced <;> cases hplaced
    · exact iff_of_false (not_reads_nothing himage) fun h => not_keptName_empty himage h.2

end Images

section RoundTrip

variable {known : Known} {numberText : ℚ → String} {region : String} {c : ContainerDefinition}
  {container : Container}

-- what is read of a container counts as the definition
def Survives (known : Known) (region : String) (c : ContainerDefinition)
    (container : Container) : Prop :=
  ∃ out, containerDefinitionMapper known region container = .ok out ∧ containersEq c out = true

structure Kept (known : Known) (region : String) (c : ContainerDefinition) : Prop where
  suffix : Suffix c.digest c.tag
  image : KeptName known region c
  ports : KeptPorts c
  environment : ∀ name value, (name, value) ∈ (c.envVariables.getD ∅).entries →
    KeptVariable name value
  logGroup : KeptLogs known region c

theorem toContainer_eq (h : toContainer numberText region c = .ok container) :
    ∃ image, imageOf c = .ok image ∧
    container = {
      name := c.name
      image := encodeImage image c.digest c.tag
      cpu := c.cpu
      memory := c.memory
      memoryReservation := c.memoryReservation
      essential := c.essential
      environment := written numberText (c.envVariables.getD ∅)
      portMappings := sentPorts c
      logConfiguration := sentLogs region c
    } := by
  rw [toContainer] at h
  cases himage : imageOf c with
  | error e =>
    rw [himage] at h
    cases h
  | ok image =>
    rw [himage] at h
    cases h
    exact ⟨image, rfl, rfl⟩

theorem exists_map_ok {ε α β : Type} {x : Except ε α} {f : α → β} {P : β → Prop} :
    (∃ out, x.map f = .ok out ∧ P out) ↔ ∃ a, x = .ok a ∧ P (f a) := by
  cases x with
  | error e => exact iff_of_false (fun ⟨_, h, _⟩ => by cases h) (fun ⟨_, h, _⟩ => by cases h)
  | ok a =>
    constructor
    · rintro ⟨_, ⟨⟩, h⟩
      exact ⟨a, rfl, h⟩
    · rintro ⟨_, ⟨⟩, h⟩
      exact ⟨f a, rfl, h⟩

theorem containersEq_iff {a b : ContainerDefinition} : containersEq a b = true ↔
    a.cpu = b.cpu ∧ envVariablesEq (a.envVariables.getD ∅) (b.envVariables.getD ∅) = true ∧
      a.essential = b.essential ∧ a.logGroup.bind (·.logGroupArn) = b.logGroup.bind (·.logGroupArn) ∧
      a.memory = b.memory ∧ a.memoryReservation = b.memoryReservation ∧ a.name = b.name ∧
      (a.containerPort = b.containerPort ∧ a.hostPort = b.hostPort ∧ a.protocol = b.protocol) ∧
      (a.publicRepository.bind (·.repositoryName) = b.publicRepository.bind (·.repositoryName) ∧
        a.repository.bind (·.id) = b.repository.bind (·.id) ∧ a.image = b.image) ∧
      b.digest = a.digest ∧ b.tag = a.tag := by
  simp only [containersEq, Bool.and_eq_true, beq_iff_eq, and_assoc, eq_comm (a := b.digest),
    eq_comm (a := b.tag)]

theorem container_survives_iff (haccepted : Accepted c) (hstored : Stored known c)
    (hcreated : toContainer numberText region c = .ok container) :
    Survives known region c container ↔ Kept known region c := by
  obtain ⟨image, himage, rfl⟩ := toContainer_eq hcreated
  have himages := @images_iff known region c image haccepted hstored himage
  have hports := @ports_iff c
  have henvironment := @envVariablesEq_iff numberText (c.envVariables.getD ∅)
  have hlogs := @logs_iff known region region c
  rw [Survives, containerDefinitionMapper, exists_map_ok]
  constructor
  · rintro ⟨found, hfound, heq⟩
    obtain ⟨-, henv, -, harn, -, -, -, hreadPorts, hread⟩ := containersEq_iff.mp heq
    obtain ⟨hsuffix, hname⟩ := himages.mp hread
    exact {
      suffix := hsuffix
      image := hname
      ports := hports.mp hreadPorts
      environment := henvironment.mp henv
      logGroup := hlogs.mp ⟨found, hfound, harn⟩
    }
  · intro hkept
    obtain ⟨found, hfound, harn⟩ := hlogs.mpr hkept.logGroup
    have hread := himages.mpr ⟨hkept.suffix, hkept.image⟩
    have henv := henvironment.mpr hkept.environment
    exact ⟨found, hfound, containersEq_iff.mpr
      ⟨rfl, henv, rfl, harn, rfl, rfl, rfl, hports.mpr hkept.ports, hread⟩⟩

def integerText (q : ℚ) : String := toString q.num

def app : Repository where
  id := some 1
  repositoryName := "team/app"
  repositoryUri := some "1.dkr.ecr.us-east-1.amazonaws.com/team/app"
  located := by
    rintro _ ⟨⟩
    exact ⟨"1.dkr.ecr.us-east-1.amazonaws.com", by decide, by decide, by decide, by decide⟩
  region := "us-east-1"

-- one repository is known
def oneRepository : Known where
  repository name region := if name = "team/app" ∧ region = "us-east-1" then some app else none
  publicRepository _ := none
  named := by rintro _ _ ⟨⟩
  logGroup _ _ := .ok none

def redis : ContainerDefinition where
  name := "cache"
  image := some "redis"
  tag := some "7"
  containerPort := some 6379
  hostPort := some 6379
  protocol := some .tcp
  envVariables := some (Dict.ofList [("MODE", .str "cache")])
  region := "us-east-1"

def sentRedis (image : Option String) (environment : List (String × String)) : Container where
  name := "cache"
  image := image
  cpu := none
  memory := none
  memoryReservation := none
  essential := false
  environment := environment
  portMappings := some [⟨some 6379, some 6379, some .tcp⟩]
  logConfiguration := none

theorem stored_of_image (h : c.repository = none) (h' : c.publicRepository = none) :
    Stored known c where
  hasId := by simp [h]
  repository := by simp [h]
  hasName := by simp [h']
  publicRepository := by simp [h']

theorem redis_survives :
    Survives oneRepository "us-east-1" redis (sentRedis (some "redis:7") [("MODE", "cache")]) := by
  have hcreated : toContainer integerText "us-east-1" redis =
      .ok (sentRedis (some "redis:7") [("MODE", "cache")]) := by decide
  refine (container_survives_iff ⟨by rintro ⟨⟩, .inr rfl⟩ (stored_of_image rfl rfl) hcreated).mpr ?_
  exact {
    suffix := ⟨by decide, by decide, by decide⟩
    image := ⟨by decide, by decide, fun _ => by decide, fun h => absurd h (by decide)⟩
    ports := .inr ⟨by decide, by decide, rfl⟩
    environment := by
      intro name value hmem
      obtain ⟨rfl, rfl⟩ := Prod.mk.inj (List.mem_singleton.mp hmem)
      exact ⟨by decide, by decide, _, rfl⟩
    logGroup := by rintro _ ⟨⟩
  }

theorem not_survives {out : ContainerDefinition}
    (hout : containerDefinitionMapper known region container = .ok out)
    (hne : containersEq c out = false) : ¬ Survives known region c container := by
  rintro ⟨out', hout', heq⟩
  obtain rfl : out = out' := Except.ok.inj (hout.symm.trans hout')
  rw [hne] at heq
  cases heq

theorem stored_app (h : c.repository = some app) (h' : c.publicRepository = none) :
    Stored oneRepository c where
  hasId := by
    rw [h]
    rintro _ ⟨⟩
    rfl
  repository := by
    rw [h]
    rintro _ ⟨⟩ name region
    by_cases hname : name = "team/app" ∧ region = "us-east-1"
    · simp [oneRepository, hname, app]
    · simp [oneRepository, hname, app]
  hasName := by simp [h']
  publicRepository := by simp [h']

-- a number, a port of a registry, a digest in the image and a slash in the name of a repository
theorem containers_change :
    (∃ c container, Accepted c ∧ Stored oneRepository c ∧
      c.envVariables = some (Dict.ofList [("test", .num 2)]) ∧
      toContainer integerText "us-east-1" c = .ok container ∧
      ¬ Survives oneRepository "us-east-1" c container) ∧
    (∃ c container, Accepted c ∧ Stored oneRepository c ∧ c.image = some "localhost:5000/app" ∧
      toContainer integerText "us-east-1" c = .ok container ∧
      ¬ Survives oneRepository "us-east-1" c container) ∧
    (∃ c container, Accepted c ∧ Stored oneRepository c ∧ c.image = some "app:v1@sha256:0a" ∧
      toContainer integerText "us-east-1" c = .ok container ∧
      ¬ Survives oneRepository "us-east-1" c container) ∧
    ∃ c container, Accepted c ∧ Stored oneRepository c ∧ c.repository = some app ∧
      toContainer integerText "us-east-1" c = .ok container ∧
      ¬ Survives oneRepository "us-east-1" c container := by
  refine ⟨?_, ?_, ?_, ?_⟩
  · refine ⟨{ redis with envVariables := some (Dict.ofList [("test", .num 2)]) },
      sentRedis (some "redis:7") [("test", "2")], ⟨nofun, .inr rfl⟩, stored_of_image rfl rfl, rfl,
      by decide, ?_⟩
    exact not_survives rfl (by decide)
  · refine ⟨{ redis with image := some "localhost:5000/app" },
      sentRedis (some "localhost:5000/app:7") [("MODE", "cache")], ⟨nofun, .inr rfl⟩,
      stored_of_image rfl rfl, rfl, by decide, ?_⟩
    exact not_survives rfl (by decide)
  · refine ⟨{ redis with image := some "app:v1@sha256:0a", tag := none },
      sentRedis (some "app:v1@sha256:0a") [("MODE", "cache")], ⟨nofun, .inr rfl⟩,
      stored_of_image rfl rfl, rfl, by decide, ?_⟩
    exact not_survives rfl (by decide)
  · refine ⟨{ redis with image := none, repository := some app },
      sentRedis (some "1.dkr.ecr.us-east-1.amazonaws.com/team/app:7") [("MODE", "cache")],
      ⟨fun _ => .inl rfl, .inr rfl⟩, stored_app rfl rfl, rfl, by decide, ?_⟩
    exact not_survives rfl (by decide)

end RoundTrip

end Iasql.ContainerDefinitions
