import Iasql.Instances

namespace Iasql.BlockDevices

open Aws Instances

section Generate

inductive GeneralPurposeVolumeType where
  | gp2 | gp3
deriving DecidableEq

structure GeneralPurposeVolume where
  volumeType : GeneralPurposeVolumeType
  size : Nat := 8
  isRootDevice : Option Bool := some false
  iops : Option Nat := none
  throughput : Option Nat := none
  snapshotId : Option String := none
deriving DecidableEq

structure InstanceBlockDeviceMapping where
  deviceName : String
  volumeId : Option Nat := none
  volume : Option GeneralPurposeVolume := none
  deleteOnTermination : Bool := true
  region : String
deriving DecidableEq

inductive VolumeType where
  | gp2 | gp3 | io1 | io2 | sc1 | st1 | standard
deriving DecidableEq

structure EbsBlockDevice where
  deleteOnTermination : Option Bool := none
  iops : Option Nat := none
  snapshotId : Option String := none
  volumeSize : Option Nat := none
  volumeType : Option VolumeType := none
  kmsKeyId : Option String := none
  throughput : Option Nat := none
  outpostArn : Option String := none
  encrypted : Option Bool := none
deriving DecidableEq

structure BlockDeviceMapping where
  deviceName : Option String := none
  virtualName : Option String := none
  ebs : Option EbsBlockDevice := none
  noDevice : Option String := none
deriving DecidableEq

structure Image where
  blockDeviceMappings : Option (List BlockDeviceMapping) := none
deriving DecidableEq

def GeneralPurposeVolumeType.aws : GeneralPurposeVolumeType → VolumeType
  | .gp2 => .gp2
  | .gp3 => .gp3

def noDevice : Thrown := .error "Error mapping volume to a device that does not exist for the AMI"

def notRoot : Thrown := .error "Error mapping volume that is not root"

def noVolume : Thrown := .error "Could not find related volume data"

def noImage : Thrown := .error "Could not find instance image"

def InstanceBlockDeviceMapping.hasVolume (m : InstanceBlockDeviceMapping) : Bool := m.volumeId.getD 0 != 0

def checkMap (imageMapping : List BlockDeviceMapping) (instanceMap : InstanceBlockDeviceMapping) :
    Except Thrown Unit :=
  if (imageMapping.find? (·.deviceName == some instanceMap.deviceName)).isNone then .error noDevice
  else if instanceMap.hasVolume && instanceMap.volume.bind (·.isRootDevice) != some true then .error notRoot
  else .ok ()

-- what a volume leaves of the disk of the image
def volumeEbs (instance' : Instance) (encrypted : Bool) (vol : InstanceBlockDeviceMapping)
    (volume : GeneralPurposeVolume) (ebs : Option EbsBlockDevice) : EbsBlockDevice where
  deleteOnTermination := some vol.deleteOnTermination
  iops := if volume.volumeType ≠ .gp2 then volume.iops else none
  snapshotId := if Aws.truthy volume.snapshotId && instance'.region == vol.region then volume.snapshotId
    else ebs.bind (·.snapshotId)
  volumeSize := some volume.size
  volumeType := some volume.volumeType.aws
  kmsKeyId := ebs.bind (·.kmsKeyId)
  throughput := volume.throughput
  outpostArn := ebs.bind (·.outpostArn)
  encrypted := some encrypted

def mapDevice (instanceMaps : List InstanceBlockDeviceMapping) (instance' : Instance) (encrypted : Bool)
    (imageMap : BlockDeviceMapping) : Except Thrown BlockDeviceMapping :=
  match instanceMaps.find? (some ·.deviceName == imageMap.deviceName) with
  | none => .ok { imageMap with ebs := imageMap.ebs.map fun ebs => { ebs with encrypted := some encrypted } }
  | some vol =>
    if !vol.hasVolume then .ok { imageMap with ebs := none, noDevice := some "" }
    else match vol.volume with
      | some volume =>
        if volume.isRootDevice != some true then .error notRoot
        else .ok { imageMap with ebs := some (volumeEbs instance' encrypted vol volume imageMap.ebs) }
      | none => .error noVolume

def generateBlockDeviceMapping (describeImages : String → String → Except Thrown (List Image)) (ami : String)
    (instanceMaps : List InstanceBlockDeviceMapping) (instance' : Instance) (encrypted : Bool) :
    Except Thrown (Option (List BlockDeviceMapping)) := do
  let images ← describeImages instance'.region ami
  match images.getLast? with
  | none => throw noImage
  | some amiImage =>
    let imageMapping := amiImage.blockDeviceMappings
    instanceMaps.forM (checkMap (imageMapping.getD []))
    match imageMapping with
    | none => return none
    | some imageMapping => return some (← imageMapping.mapM (mapDevice instanceMaps instance' encrypted))

end Generate

section Exact

-- the device is not of the image, or its volume is no root device that is loaded
def Rejected (imageMapping : List BlockDeviceMapping) (instanceMap : InstanceBlockDeviceMapping) : Prop :=
  (∀ d ∈ imageMapping, d.deviceName ≠ some instanceMap.deviceName) ∨
    instanceMap.hasVolume = true ∧ ∀ volume, instanceMap.volume = some volume → volume.isRootDevice ≠ some true

structure Carries (instance' : Instance) (vol : InstanceBlockDeviceMapping) (volume : GeneralPurposeVolume)
    (d d' : EbsBlockDevice) : Prop where
  size : d'.volumeSize = some volume.size
  type : d'.volumeType = some volume.volumeType.aws
  throughput : d'.throughput = volume.throughput
  snapshot : instance'.region = vol.region → Aws.truthy volume.snapshotId = true → d'.snapshotId = volume.snapshotId
  noSnapshot : instance'.region ≠ vol.region ∨ Aws.truthy volume.snapshotId = false → d'.snapshotId = d.snapshotId
  iops : volume.volumeType ≠ .gp2 → d'.iops = volume.iops
  noIops : volume.volumeType = .gp2 → d'.iops = none

-- what becomes of a device of the image
structure Built (instanceMaps : List InstanceBlockDeviceMapping) (instance' : Instance) (encrypted : Bool)
    (d d' : BlockDeviceMapping) : Prop where
  deviceName : d'.deviceName = d.deviceName
  unrequested : (∀ m ∈ instanceMaps, d.deviceName ≠ some m.deviceName) →
    d' = { d with ebs := d.ebs.map fun ebs => { ebs with encrypted := some encrypted } }
  suppressed : ∀ m ∈ instanceMaps, d.deviceName = some m.deviceName → m.hasVolume = false →
    d'.ebs = none ∧ d'.noDevice = some ""
  replaced : ∀ m ∈ instanceMaps, d.deviceName = some m.deviceName → m.hasVolume = true →
    ∃ volume ebs, m.volume = some volume ∧ d'.ebs = some ebs ∧ Carries instance' m volume (d.ebs.getD {}) ebs

variable {imageMapping : List BlockDeviceMapping} {instanceMaps : List InstanceBlockDeviceMapping}
  {instanceMap vol : InstanceBlockDeviceMapping} {volume : GeneralPurposeVolume} {instance' : Instance}
  {encrypted : Bool} {imageMap : BlockDeviceMapping}

theorem carries_volumeEbs (ebs : Option EbsBlockDevice) :
    Carries instance' vol volume (ebs.getD {}) (volumeEbs instance' encrypted vol volume ebs) where
  size := rfl
  type := rfl
  throughput := rfl
  snapshot hregion hsnapshot := by
    have hown : (Aws.truthy volume.snapshotId && instance'.region == vol.region) = true := by
      rw [hsnapshot, hregion, beq_self_eq_true, Bool.and_self]
    exact if_pos hown
  noSnapshot h := by
    have hother : ¬ (Aws.truthy volume.snapshotId && instance'.region == vol.region) = true := by
      rw [Bool.and_eq_true, beq_iff_eq]
      rcases h with h | h
      · exact fun hown => h hown.2
      · exact fun hown => Bool.noConfusion (h.symm.trans hown.1)
    refine (if_neg hother).trans ?_
    cases ebs <;> rfl
  iops h := if_pos h
  noIops h := if_neg (not_not.mpr h)

theorem not_rejected_iff : ¬ Rejected imageMapping instanceMap ↔
    (∃ d ∈ imageMapping, d.deviceName = some instanceMap.deviceName) ∧
      (instanceMap.hasVolume = true → ∃ volume, instanceMap.volume = some volume ∧ volume.isRootDevice = some true) := by
  rw [Rejected]
  push Not
  rfl

theorem isRootDevice_iff : instanceMap.volume.bind (·.isRootDevice) = some true ↔
    ∃ volume, instanceMap.volume = some volume ∧ volume.isRootDevice = some true :=
  Option.bind_eq_some_iff

theorem checkMap_eq_ok : checkMap imageMapping instanceMap = .ok () ↔ ¬ Rejected imageMapping instanceMap := by
  rw [not_rejected_iff, ← isRootDevice_iff, checkMap]
  split
  · next hnone =>
    rw [Option.isNone_iff_eq_none, List.find?_eq_none] at hnone
    refine iff_of_false nofun ?_
    rintro ⟨⟨d, hd, hname⟩, -⟩
    exact hnone d hd (beq_iff_eq.mpr hname)
  · next hsome =>
    have hfound : ∃ d ∈ imageMapping, d.deviceName = some instanceMap.deviceName := by
      obtain ⟨d, hd⟩ := Option.ne_none_iff_exists'.mp (mt Option.isNone_iff_eq_none.mpr hsome)
      have hname := List.find?_some hd
      exact ⟨d, List.mem_of_find?_eq_some hd, beq_iff_eq.mp hname⟩
    rw [and_iff_right hfound]
    split
    · next hbad =>
      rw [Bool.and_eq_true, bne_iff_ne] at hbad
      exact iff_of_false nofun fun hroot => hbad.2 (hroot hbad.1)
    · next hgood =>
      rw [Bool.and_eq_true, bne_iff_ne, not_and, not_not] at hgood
      exact iff_of_true rfl hgood

theorem forM_eq_ok {α ε : Type} {f : α → Except ε Unit} {xs : List α} :
    xs.forM f = .ok () ↔ ∀ x ∈ xs, f x = .ok () := by
  induction xs with
  | nil => exact iff_of_true rfl nofun
  | cons x xs ih =>
    rw [List.forall_mem_cons, ← ih]
    change (f x >>= fun _ => xs.forM f) = _ ↔ _
    cases f x with
    | error err => exact iff_of_false nofun fun h => nomatch h.1
    | ok _ => exact (and_iff_right rfl).symm

theorem mapM_eq_ok {α β ε : Type} {f : α → Except ε β} {R : α → β → Prop} {xs : List α}
    (h : ∀ x ∈ xs, ∃ y, f x = .ok y ∧ R x y) : ∃ ys, xs.mapM f = .ok ys ∧ List.Forall₂ R xs ys := by
  induction xs with
  | nil => exact ⟨[], rfl, .nil⟩
  | cons x xs ih =>
    obtain ⟨hx, hxs⟩ := List.forall_mem_cons.mp h
    obtain ⟨y, hy, hr⟩ := hx
    obtain ⟨ys, hys, hrs⟩ := ih hxs
    refine ⟨y :: ys, ?_, .cons hr hrs⟩
    rw [List.mapM_cons, hy, hys]
    rfl

theorem mapDevice_built (hmaps : (instanceMaps.map (·.deviceName)).Nodup)
    (hrejected : ∀ m ∈ instanceMaps, ¬ Rejected imageMapping m) (imageMap : BlockDeviceMapping) :
    ∃ d', mapDevice instanceMaps instance' encrypted imageMap = .ok d' ∧
      Built instanceMaps instance' encrypted imageMap d' := by
  rw [mapDevice]
  cases hfind : instanceMaps.find? (some ·.deviceName == imageMap.deviceName) with
  | none =>
    have hnone : ∀ m ∈ instanceMaps, imageMap.deviceName ≠ some m.deviceName := fun m hm hname =>
      List.find?_eq_none.mp hfind m hm (beq_iff_eq.mpr hname.symm)
    exact ⟨_, rfl, rfl, fun _ => rfl, fun m hm hname => absurd hname (hnone m hm),
      fun m hm hname => absurd hname (hnone m hm)⟩
  | some vol =>
    have hvol := List.mem_of_find?_eq_some hfind
    have hfound := List.find?_some hfind
    have hname : some vol.deviceName = imageMap.deviceName := beq_iff_eq.mp hfound
    have hunique : ∀ m ∈ instanceMaps, imageMap.deviceName = some m.deviceName → m = vol := by
      intro m hm hm'
      exact List.inj_on_of_nodup_map hmaps hm hvol (Option.some.inj (hm'.symm.trans hname.symm))
    by_cases hvolume : vol.hasVolume = true
    · obtain ⟨volume, hloaded, hroot⟩ := (not_rejected_iff.mp (hrejected vol hvol)).2 hvolume
      dsimp only
      rw [if_neg (by simp [hvolume]), hloaded]
      dsimp only
      rw [if_neg (by simp [hroot])]
      refine ⟨_, rfl, rfl, fun h => absurd hname.symm (h vol hvol), fun m hm hm' hno => ?_, fun m hm hm' _ => ?_⟩
      · rw [hunique m hm hm', hvolume] at hno
        cases hno
      · rw [hunique m hm hm']
        exact ⟨volume, _, hloaded, rfl, carries_volumeEbs _⟩
    · dsimp only
      rw [if_pos (by simp [hvolume])]
      refine ⟨_, rfl, rfl, fun h => absurd hname.symm (h vol hvol), fun _ _ _ _ => ⟨rfl, rfl⟩, fun m hm hm' hyes => ?_⟩
      rw [hunique m hm hm'] at hyes
      exact absurd hyes hvolume

variable {describeImages : String → String → Except Thrown (List Image)} {ami : String} {images : List Image}
  {image : Image}

theorem generate_eq (hread : describeImages instance'.region ami = .ok images) (himage : images.getLast? = some image) :
    generateBlockDeviceMapping describeImages ami instanceMaps instance' encrypted = do
      instanceMaps.forM (checkMap (image.blockDeviceMappings.getD []))
      match image.blockDeviceMappings with
      | none => return none
      | some imageMapping => return some (← imageMapping.mapM (mapDevice instanceMaps instance' encrypted)) := by
  rw [generateBlockDeviceMapping, hread]
  change (match images.getLast? with | none => _ | some amiImage => _) = _
  rw [himage]

-- refused exactly for a bad request, and otherwise one entry for each device of the image
theorem generateBlockDeviceMapping_exact (hread : describeImages instance'.region ami = .ok images)
    (himage : images.getLast? = some image) (hmaps : (instanceMaps.map (·.deviceName)).Nodup) :
    ((∃ err, generateBlockDeviceMapping describeImages ami instanceMaps instance' encrypted = .error err) ↔
        ∃ m ∈ instanceMaps, Rejected (image.blockDeviceMappings.getD []) m) ∧
      ((∀ m ∈ instanceMaps, ¬ Rejected (image.blockDeviceMappings.getD []) m) →
        ∃ out, generateBlockDeviceMapping describeImages ami instanceMaps instance' encrypted = .ok out ∧
          List.Forall₂ (Built instanceMaps instance' encrypted) (image.blockDeviceMappings.getD []) (out.getD [])) := by
  have hreturns : (∀ m ∈ instanceMaps, ¬ Rejected (image.blockDeviceMappings.getD []) m) →
      ∃ out, generateBlockDeviceMapping describeImages ami instanceMaps instance' encrypted = .ok out ∧
        List.Forall₂ (Built instanceMaps instance' encrypted) (image.blockDeviceMappings.getD []) (out.getD []) := by
    intro hrejected
    have hchecks : instanceMaps.forM (checkMap (image.blockDeviceMappings.getD [])) = .ok () :=
      forM_eq_ok.mpr fun m hm => checkMap_eq_ok.mpr (hrejected m hm)
    rw [generate_eq hread himage, hchecks]
    cases hmapping : image.blockDeviceMappings with
    | none => exact ⟨none, rfl, .nil⟩
    | some imageMapping =>
      rw [hmapping] at hrejected
      obtain ⟨out, hout, hbuilt⟩ := mapM_eq_ok fun d (_ : d ∈ imageMapping) =>
        @mapDevice_built _ _ instance' encrypted hmaps hrejected d
      refine ⟨some out, ?_, hbuilt⟩
      change (imageMapping.mapM _ >>= fun ds => Except.ok (some ds)) = _
      rw [hout]
      rfl
  refine ⟨⟨fun herr => ?_, fun hrejected => ?_⟩, hreturns⟩
  · by_contra hnone
    obtain ⟨out, hout, -⟩ := hreturns fun m hm hbad => hnone ⟨m, hm, hbad⟩
    obtain ⟨err, herr⟩ := herr
    rw [hout] at herr
    cases herr
  · have hchecks : instanceMaps.forM (checkMap (image.blockDeviceMappings.getD [])) ≠ .ok () := by
      intro hok
      obtain ⟨m, hm, hbad⟩ := hrejected
      exact checkMap_eq_ok.mp (forM_eq_ok.mp hok m hm) hbad
    rw [generate_eq hread himage]
    cases hforM : instanceMaps.forM (checkMap (image.blockDeviceMappings.getD [])) with
    | ok _ => exact absurd hforM hchecks
    | error err => exact ⟨err, rfl⟩

def linux : Image where
  blockDeviceMappings := some [
    { deviceName := some "/dev/xvda", ebs := some { snapshotId := some "snap-image", volumeSize := some 8 } },
    { deviceName := some "/dev/sdb", ebs := some { volumeSize := some 4 } }]

def web : Instance := { ami := "ami-1", instanceType := "t2.micro", region := "us-east-1" }

def rootMap : InstanceBlockDeviceMapping where
  deviceName := "/dev/xvda"
  volumeId := some 1
  volume := some { volumeType := .gp3, size := 50, isRootDevice := some true, iops := some 3000 }
  region := "us-east-1"

def dataMap : InstanceBlockDeviceMapping := { deviceName := "/dev/sdb", region := "us-east-1" }

theorem generateBlockDeviceMapping_web :
    ((∃ err, generateBlockDeviceMapping (fun _ _ => .ok [linux]) "ami-1" [rootMap, dataMap] web false = .error err) ↔
        ∃ m ∈ [rootMap, dataMap], Rejected (linux.blockDeviceMappings.getD []) m) ∧
      ((∀ m ∈ [rootMap, dataMap], ¬ Rejected (linux.blockDeviceMappings.getD []) m) →
        ∃ out, generateBlockDeviceMapping (fun _ _ => .ok [linux]) "ami-1" [rootMap, dataMap] web false = .ok out ∧
          List.Forall₂ (Built [rootMap, dataMap] web false) (linux.blockDeviceMappings.getD []) (out.getD [])) :=
  generateBlockDeviceMapping_exact rfl rfl (by decide)

-- a volume with a size only starts from the snapshot of the image
theorem size_only_volume_has_image_snapshot :
    rootMap.volume.bind (·.snapshotId) = none ∧ rootMap.region = web.region ∧
      (generateBlockDeviceMapping (fun _ _ => .ok [linux]) "ami-1" [rootMap] web false).map
          (fun out => (out.getD []).map fun d => d.ebs.bind (·.snapshotId)) =
        .ok [some "snap-image", none] := by
  refine ⟨rfl, rfl, ?_⟩
  decide

end Exact

end Iasql.BlockDevices
