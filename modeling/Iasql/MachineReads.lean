import Iasql.Instances
import Iasql.SingleReads
import Mathlib.Data.List.Lex

namespace Iasql

open Aws EntityIds SingleReads

namespace Docker

inductive DockerContainerStates where
  | created | restarting | running | removing | paused | exited | dead
deriving DecidableEq

structure DockerContainer where
  id : Option Nat := none
  serverName : String
  containerId : Option String
  name : Option String
  image : String
  env : Option (List String)
  command : Option (List String)
  entrypoint : Option (List String)
  created : Option String
  ports : Option JsVal
  labels : Option (Dict String String)
  state : Option DockerContainerStates
  volumes : Option (List String)
  mounts : Option JsVal
  binds : Option (List String)

def DockerContainer.entityId (e : DockerContainer) : String :=
  if e.serverName != "" && Aws.truthy e.containerId then generateId [e.serverName, e.containerId.getD ""]
  else (e.id.map toString).getD "undefined"

inductive Entrypoint where
  | command (text : String)
  | commands (texts : List String)
deriving DecidableEq

structure ContainerInspectInfo where
  id : String
  nonempty : id ≠ ""
  name : String
  created : String
  state : DockerContainerStates
  image : String
  env : Option (List String) := none
  cmd : Option (List String) := none
  entrypoint : Option Entrypoint := none
  labels : Option (Dict String String) := none
  -- the keys of the volumes
  volumes : Option (List String) := none
  portBindings : Option JsVal := none
  mounts : Option JsVal := none
  binds : Option (List String) := none

-- listContainers gives the containers that run, and all of them when it is asked to
def ContainerInspectInfo.listed (c : ContainerInspectInfo) : Bool :=
  c.state == .running || c.state == .paused || c.state == .restarting

-- the servers with credentials in the database, and the containers of those that answer
structure Content where
  sshCredentials : List String
  named : ∀ name ∈ sshCredentials, name ≠ ""
  containers : String → Option (List ContainerInspectInfo)

def columns : CloudColumns := ⟨["serverName", "containerId"], by decide, by decide⟩

def mapper : MapperBase := ofColumns columns "id"

-- the code units that sort compares
def codeUnits (s : String) : List Nat :=
  s.toList.flatMap fun c =>
    if c.toNat < 0x10000 then [c.toNat]
    else [0xD800 + (c.toNat - 0x10000) / 0x400, 0xDC00 + (c.toNat - 0x10000) % 0x400]

def containerMapper (serverName : String) (container : ContainerInspectInfo) : DockerContainer where
  serverName
  containerId := some container.id
  name := some (if container.name.startsWith "/" then (container.name.drop 1).toString else container.name)
  image := container.image
  env := container.env
  command := container.cmd
  entrypoint := container.entrypoint.bind fun
    | .command text => if text = "" then none else some [text]
    | .commands texts => some texts
  created := some container.created
  ports := container.portBindings
  labels := container.labels
  state := some container.state
  volumes := some ((container.volumes.getD []).mergeSort fun a b => decide (codeUnits a ≤ codeUnits b))
  mounts := container.mounts
  binds := container.binds

variable (c : Content)

def getDockerForServer (serverName : String) : Except Thrown (Option (List ContainerInspectInfo)) :=
  if serverName ∈ c.sshCredentials then .ok (c.containers serverName)
  else .error (.error "No credentials found")

def readOne (id : String) : Except Thrown (Option DockerContainer) :=
  let fields := mapper.idFields id
  let serverName := (EntityIds.field fields "serverName").getD "undefined"
  match getDockerForServer c serverName with
  | .error err => .error err
  | .ok none => .ok none
  | .ok (some docker) =>
    let rawContainer := (docker.filter (·.listed)).find? fun container =>
      some container.id == EntityIds.field fields "containerId"
    .ok (rawContainer.map (containerMapper serverName))

def readAll : List DockerContainer :=
  c.sshCredentials.flatMap fun serverName =>
    ((c.containers serverName).getD []).map (containerMapper serverName)

def readFn : ReadFn DockerContainer where
  entityName := "DockerContainer"
  entityId e := .ok e.entityId
  one := readOne c
  all := .ok (readAll c)

-- the server that an id names has a container under it that listContainers gives, or not
def Runs (id : String) : Prop :=
  ∃ containers container, c.containers ((split id)[0]?.getD "") = some containers ∧ container ∈ containers ∧
    container.listed = true ∧ (split id)[1]? = some container.id

-- a container, in whatever state, has the id
def Exists (id : String) : Prop :=
  ∃ serverName ∈ c.sshCredentials, ∃ containers container, c.containers serverName = some containers ∧
    container ∈ containers ∧ generateId [serverName, container.id] = id

-- the id is of a container that runs, or of none
def Readable (id : String) : Prop :=
  (split id)[0]?.getD "" ∈ c.sshCredentials ∧
    (Runs c id ∧ id = generateId [(split id)[0]?.getD "", (split id)[1]?.getD ""] ∨
      ¬ Runs c id ∧ ¬ Exists c id)

variable {c} {id : String} {serverName : String} {container : ContainerInspectInfo}

theorem entityId_mapped (hserver : serverName ≠ "") :
    (containerMapper serverName container).entityId = generateId [serverName, container.id] := by
  simp [DockerContainer.entityId, containerMapper, hserver, Aws.truthy, container.nonempty]

theorem exists_iff : Exists c id ↔ ∃ e ∈ readAll c, e.entityId = id := by
  constructor
  · rintro ⟨serverName, hserver, containers, container, hcontainers, hcontainer, hid⟩
    refine ⟨containerMapper serverName container, ?_, by rw [entityId_mapped (c.named _ hserver), hid]⟩
    refine List.mem_flatMap.mpr ⟨serverName, hserver, ?_⟩
    rw [hcontainers]
    exact List.mem_map_of_mem hcontainer
  · rintro ⟨e, he, hid⟩
    obtain ⟨serverName, hserver, he⟩ := List.mem_flatMap.mp he
    obtain ⟨container, hcontainer, rfl⟩ := List.mem_map.mp he
    rw [entityId_mapped (c.named _ hserver)] at hid
    cases hcontainers : c.containers serverName with
    | none =>
      rw [hcontainers] at hcontainer
      exact absurd hcontainer List.not_mem_nil
    | some containers =>
      rw [hcontainers] at hcontainer
      exact ⟨serverName, hserver, containers, container, hcontainers, hcontainer, hid⟩

theorem fields_of_id (id : String) :
    (EntityIds.field (mapper.idFields id) "serverName").getD "undefined" = (split id)[0]?.getD "" ∧
      EntityIds.field (mapper.idFields id) "containerId" = (split id)[1]? :=
  ⟨first_field rfl, field_idFields rfl⟩

theorem readOne_none (hserver : (split id)[0]?.getD "" ∈ c.sshCredentials) :
    readOne c id = .ok none ↔ ¬ Runs c id := by
  obtain ⟨hname, hcontainer⟩ := fields_of_id id
  simp only [readOne, hname, hcontainer, getDockerForServer, if_pos hserver, Runs]
  cases hcontainers : c.containers ((split id)[0]?.getD "") with
  | none => simp
  | some containers =>
    simp only [Except.ok.injEq, Option.map_eq_none_iff, List.find?_eq_none, List.mem_filter, beq_iff_eq,
      Option.some.injEq, and_imp]
    constructor
    · rintro h ⟨containers', container, rfl, hmem, hlisted, hid⟩
      exact h container hmem hlisted hid.symm
    · intro h container hmem hlisted hid
      exact h ⟨containers, container, rfl, hmem, hlisted, hid.symm⟩

-- what a read by id finds is a container that runs, on the server that the id names
theorem readOne_some {e : DockerContainer} (h : readOne c id = .ok (some e)) :
    e ∈ readAll c ∧ Runs c id ∧
      e.entityId = generateId [(split id)[0]?.getD "", (split id)[1]?.getD ""] := by
  obtain ⟨hname, hcontainer⟩ := fields_of_id id
  simp only [readOne, hname, hcontainer, getDockerForServer] at h
  by_cases hserver : (split id)[0]?.getD "" ∈ c.sshCredentials
  · rw [if_pos hserver] at h
    cases hcontainers : c.containers ((split id)[0]?.getD "") with
    | none =>
      rw [hcontainers] at h
      cases h
    | some containers =>
      rw [hcontainers] at h
      obtain ⟨container, hfind, rfl⟩ := Option.map_eq_some_iff.mp (Except.ok.inj h)
      obtain ⟨hmem, hlisted⟩ := List.mem_filter.mp (List.mem_of_find?_eq_some hfind)
      have hid : some container.id = (split id)[1]? := by simpa using List.find?_some hfind
      refine ⟨List.mem_flatMap.mpr ⟨_, hserver, ?_⟩, ⟨containers, container, hcontainers, hmem, hlisted,
        hid.symm⟩, ?_⟩
      · rw [hcontainers]
        exact List.mem_map_of_mem hmem
      · rw [entityId_mapped (c.named _ hserver), ← hid, Option.getD_some]
  · rw [if_neg hserver] at h
    cases h

theorem readOne_error (hserver : (split id)[0]?.getD "" ∉ c.sshCredentials)
    (answer : Option DockerContainer) : readOne c id ≠ .ok answer := by
  obtain ⟨hname, -⟩ := fields_of_id id
  simp [readOne, hname, getDockerForServer, hserver]

theorem reads_agree_iff : (readFn c).Agrees id (readAll c) ↔ id ≠ "" ∧ Readable c id := by
  have hone : (readFn c).one id = readOne c id := rfl
  rw [@ReadFn.agrees_iff_of_ids _ (readFn c) id (readAll c) DockerContainer.entityId fun _ => rfl, hone,
    Readable]
  refine and_congr_right fun _ => ?_
  by_cases hserver : (split id)[0]?.getD "" ∈ c.sshCredentials
  · rw [and_iff_right hserver, exists_iff, readOne_none hserver]
    refine or_congr ?_ ⟨fun h => ⟨h.2, fun ⟨e, he, heq⟩ => h.1 e he heq⟩,
      fun h => ⟨fun e he heq => h.2 ⟨e, he, heq⟩, h.1⟩⟩
    constructor
    · rintro ⟨e, he, heq, hread⟩
      obtain ⟨-, hruns, hentity⟩ := readOne_some hread
      exact ⟨hruns, heq.symm.trans hentity⟩
    · rintro ⟨hruns, heq⟩
      rcases hread : readOne c id with err | _ | e
      · obtain ⟨hname, -⟩ := fields_of_id id
        simp only [readOne, hname, getDockerForServer, if_pos hserver] at hread
        cases hcontainers : c.containers ((split id)[0]?.getD "") <;> rw [hcontainers] at hread <;>
          cases hread
      · exact absurd hruns ((readOne_none hserver).mp hread)
      · obtain ⟨he, -, hentity⟩ := readOne_some hread
        exact ⟨e, he, hentity.trans heq.symm, rfl⟩
  · refine iff_of_false ?_ fun h => hserver h.1
    rintro (⟨e, -, -, hread⟩ | ⟨-, hread⟩)
    · exact readOne_error hserver _ hread
    · exact readOne_error hserver _ hread

end Docker

namespace Instances

-- the instances that the client of each region has, by their ids
structure Content where
  l : Reads
  defaultRegion : String
  instances : String → Dict String AwsInstance
  identified : ∀ region instanceId raw, (instances region).get? instanceId = some raw →
    raw.instanceId = some instanceId ∧ instanceId ≠ "" ∧ Plain instanceId
  regions : ∀ region ∈ l.enabledRegions, region ≠ "" ∧ Plain region

def columns : CloudColumns := ⟨["instanceId", "region"], by decide, by decide⟩

def mapper : MapperBase := ofColumns columns "id"

def ended (raw : AwsInstance) : Bool := raw.state == .terminated || raw.state == .shuttingDown

variable (c : Content)

def getInstance (region : Option String) (instanceId : String) : Except Thrown AwsInstance :=
  match (c.instances (region.getD c.defaultRegion)).get? instanceId with
  | none => .error (.error "InvalidInstanceID.NotFound")
  | some raw => .ok raw

-- spot instances are excluded here only, and the region is any
def readOne (id : String) : Except Thrown (Option Instance) :=
  let fields := mapper.idFields id
  let region := EntityIds.field fields "region"
  match getInstance c region ((EntityIds.field fields "instanceId").getD "undefined") with
  | .error err => .error err
  | .ok rawInstance =>
    if rawInstance.isSpot || ended rawInstance then .ok none
    else .ok (instanceMapper c.l rawInstance (region.getD ""))

def readAll : List Instance :=
  c.l.enabledRegions.flatMap fun region =>
    (c.instances region).entries.filterMap fun i =>
      if ended i.2 then none else instanceMapper c.l i.2 region

def readFn : ReadFn Instance where
  entityName := "Instance"
  entityId e := .ok e.entityId
  one := readOne c
  all := .ok (readAll c)

-- the region of an id is enabled, and nothing stands behind it
def Listed (id : String) : Prop :=
  ∃ region ∈ c.l.enabledRegions, id = generateId [(split id)[0]?.getD "", region]

-- AWS has the instance, and it is a spot instance exactly where its region is not read
def Readable (id : String) : Prop :=
  ∃ raw, (c.instances ((split id)[1]?.getD c.defaultRegion)).get? ((split id)[0]?.getD "") = some raw ∧
    (ended raw = false → Aws.truthy raw.instanceType = true → (raw.isSpot = true ↔ ¬ Listed c id))

variable {c} {id region instanceId : String} {raw : AwsInstance} {e : Instance}

theorem split_of_listed (hregion : region ∈ c.l.enabledRegions)
    (hid : id = generateId [(split id)[0]?.getD "", region]) :
    split id = [(split id)[0]?.getD "", region] := by
  obtain ⟨part, hpart, hplain⟩ := exists_firstPart id
  rw [hpart, Option.getD_some] at hid ⊢
  rw [hid, split_generateId hplain (c.regions region hregion).2]

theorem instanceMapper_typed (hraw : (c.instances region).get? instanceId = some raw) (named : String) :
    instanceMapper c.l raw named =
      if Aws.truthy raw.instanceType = true then some (mapped c.l raw named) else none := by
  obtain ⟨hinstance, hne, -⟩ := c.identified _ _ _ hraw
  have htruthy : Aws.truthy raw.instanceId = true := by
    rw [hinstance]
    simpa [Aws.truthy] using hne
  rw [instanceMapper, htruthy, Bool.true_and]

theorem entityId_mapped (hraw : (c.instances region).get? instanceId = some raw)
    (hregion : region ∈ c.l.enabledRegions) :
    (mapped c.l raw region).entityId = generateId [instanceId, region] := by
  obtain ⟨hinstance, hne, -⟩ := c.identified _ _ _ hraw
  simp [Instance.entityId, mapped, hinstance, Aws.truthy, hne, (c.regions region hregion).1]

theorem mem_readAll : e ∈ readAll c ↔ ∃ region ∈ c.l.enabledRegions, ∃ instanceId raw,
    (c.instances region).get? instanceId = some raw ∧ ended raw = false ∧
      Aws.truthy raw.instanceType = true ∧ e = mapped c.l raw region := by
  rw [readAll, List.mem_flatMap]
  refine exists_congr fun region => and_congr_right fun _ => ?_
  constructor
  · intro he
    obtain ⟨⟨instanceId, raw⟩, hmem, hread⟩ := List.mem_filterMap.mp he
    have hraw := Dict.get?_eq_some.mpr hmem
    rw [instanceMapper_typed hraw] at hread
    cases hended : ended raw with
    | true => simp [hended] at hread
    | false =>
      cases htyped : Aws.truthy raw.instanceType with
      | false => simp [hended, htyped] at hread
      | true =>
        simp only [hended, htyped, Bool.false_eq_true, if_false, if_true] at hread
        exact ⟨instanceId, raw, hraw, hended, htyped, (Option.some.inj hread).symm⟩
  · rintro ⟨instanceId, raw, hraw, hended, htyped, rfl⟩
    refine List.mem_filterMap.mpr ⟨(instanceId, raw), Dict.get?_eq_some.mp hraw, ?_⟩
    rw [instanceMapper_typed hraw, htyped, hended]
    rfl

-- the instance that a record of the full read is of, and where its id finds it
theorem found_of_mem (he : e ∈ readAll c) (hid : e.entityId = id) : Listed c id ∧ ∃ raw,
    (c.instances ((split id)[1]?.getD c.defaultRegion)).get? ((split id)[0]?.getD "") = some raw ∧
      ended raw = false ∧ Aws.truthy raw.instanceType = true := by
  obtain ⟨region, hregion, instanceId, raw, hraw, hended, htyped, rfl⟩ := mem_readAll.mp he
  rw [entityId_mapped hraw hregion] at hid
  have hsplit : split id = [instanceId, region] :=
    hid ▸ split_generateId (c.identified _ _ _ hraw).2.2 (c.regions region hregion).2
  refine ⟨⟨region, hregion, ?_⟩, raw, ?_, hended, htyped⟩
  · rw [hsplit]
    exact hid.symm
  · rw [hsplit]
    exact hraw

theorem fields_of_id (id : String) :
    (EntityIds.field (mapper.idFields id) "instanceId").getD "undefined" = (split id)[0]?.getD "" ∧
      EntityIds.field (mapper.idFields id) "region" = (split id)[1]? :=
  ⟨first_field rfl, field_idFields rfl⟩

theorem readOne_found
    (hraw : (c.instances ((split id)[1]?.getD c.defaultRegion)).get? ((split id)[0]?.getD "") = some raw) :
    readOne c id = if raw.isSpot || ended raw || !Aws.truthy raw.instanceType then .ok none
      else .ok (some (mapped c.l raw ((split id)[1]?.getD ""))) := by
  obtain ⟨hinstance, hregion⟩ := fields_of_id id
  simp only [readOne, hinstance, hregion, getInstance, hraw, instanceMapper_typed hraw]
  cases raw.isSpot || ended raw <;> cases Aws.truthy raw.instanceType <;> rfl

theorem readOne_missing
    (hraw : (c.instances ((split id)[1]?.getD c.defaultRegion)).get? ((split id)[0]?.getD "") = none)
    (answer : Option Instance) : readOne c id ≠ .ok answer := by
  obtain ⟨hinstance, hregion⟩ := fields_of_id id
  simp [readOne, hinstance, hregion, getInstance, hraw]

-- an instance that a read by id shows is the record of the full read where its region is read
theorem shown_iff
    (hraw : (c.instances ((split id)[1]?.getD c.defaultRegion)).get? ((split id)[0]?.getD "") = some raw)
    (hended : ended raw = false) (htyped : Aws.truthy raw.instanceType = true) :
    (mapped c.l raw ((split id)[1]?.getD "") ∈ readAll c ∧
      (mapped c.l raw ((split id)[1]?.getD "")).entityId = id) ↔ Listed c id := by
  constructor
  · rintro ⟨he, hid⟩
    exact (found_of_mem he hid).1
  · rintro ⟨region, hregion, hid⟩
    have hsplit := split_of_listed hregion hid
    have hsecond : (split id)[1]? = some region := by rw [hsplit]; rfl
    rw [hsecond, Option.getD_some] at hraw ⊢
    refine ⟨mem_readAll.mpr ⟨region, hregion, _, raw, hraw, hended, htyped, rfl⟩, ?_⟩
    rw [entityId_mapped hraw hregion]
    exact hid.symm

theorem reads_agree_iff : (readFn c).Agrees id (readAll c) ↔ id ≠ "" ∧ Readable c id := by
  have hone : (readFn c).one id = readOne c id := rfl
  rw [@ReadFn.agrees_iff_of_ids _ (readFn c) id (readAll c) Instance.entityId fun _ => rfl, hone, Readable]
  refine and_congr_right fun _ => ?_
  cases hraw : (c.instances ((split id)[1]?.getD c.defaultRegion)).get? ((split id)[0]?.getD "") with
  | none =>
    refine iff_of_false ?_ ?_
    · rintro (⟨e, -, -, hread⟩ | ⟨-, hread⟩)
      · exact readOne_missing hraw _ hread
      · exact readOne_missing hraw _ hread
    · rintro ⟨raw, hfound, -⟩
      cases hfound
  | some raw =>
    have hfound : ∀ e ∈ readAll c, e.entityId = id → Listed c id ∧ ended raw = false ∧
        Aws.truthy raw.instanceType = true := by
      intro e he heq
      obtain ⟨hlisted, raw', hraw', hended, htyped⟩ := found_of_mem he heq
      obtain rfl : raw = raw' := Option.some.inj (hraw.symm.trans hraw')
      exact ⟨hlisted, hended, htyped⟩
    have hnone : ended raw = true ∨ Aws.truthy raw.instanceType = false →
        ∀ e ∈ readAll c, ¬ e.entityId = id := by
      intro hhidden e he heq
      obtain ⟨-, hended, htyped⟩ := hfound e he heq
      rw [hended, htyped] at hhidden
      rcases hhidden with h | h <;> cases h
    rw [readOne_found hraw]
    simp only [Option.some.injEq, exists_eq_left']
    cases hended : ended raw with
    | true =>
      rw [Bool.or_true, Bool.true_or, if_pos rfl]
      exact iff_of_true (.inr ⟨hnone (.inl hended), rfl⟩) nofun
    | false =>
      cases htyped : Aws.truthy raw.instanceType with
      | false =>
        rw [Bool.not_false, Bool.or_true, if_pos rfl]
        exact iff_of_true (.inr ⟨hnone (.inr htyped), rfl⟩) fun _ => nofun
      | true =>
        have hshown := shown_iff hraw hended htyped
        cases hspot : raw.isSpot with
        | true =>
          rw [Bool.true_or, Bool.true_or, if_pos rfl, forall_prop_of_true rfl, forall_prop_of_true rfl,
            iff_true_left rfl]
          constructor
          · rintro (⟨e, -, -, hread⟩ | ⟨hothers, -⟩)
            · cases hread
            · exact fun hlisted => hothers _ (hshown.mpr hlisted).1 (hshown.mpr hlisted).2
          · exact fun hlisted => .inr ⟨fun e he heq => hlisted (hfound e he heq).1, rfl⟩
        | false =>
          rw [Bool.or_false, Bool.not_true, Bool.or_false, if_neg Bool.false_ne_true, forall_prop_of_true rfl,
            forall_prop_of_true rfl, iff_false_left Bool.false_ne_true, not_not, ← hshown]
          constructor
          · rintro (⟨e, he, heq, hread⟩ | ⟨-, hread⟩)
            · cases hread
              exact ⟨he, heq⟩
            · cases hread
          · exact fun h => .inl ⟨_, h.1, h.2, rfl⟩

end Instances

end Iasql
