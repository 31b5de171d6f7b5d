import Iasql.MachineReads
import Iasql.RecordReads

namespace Iasql

open Aws SingleReads

-- a read by id agrees with the full read exactly where there is nothing to read, or, for a container
-- that runs and for an instance on demand, where nothing is left out
theorem single_reads_agree_iff (route53 : Route53.Content) (s3 : BucketObjects.Content)
    (docker : Docker.Content) (ec2 : Instances.Content) (records : List Route53.Found) (objects : List Restores.BucketObject)
    (containers : List Docker.DockerContainer) (instances : List Instances.Instance)
    (recordId objectId containerId instanceId : String)
    (hrecords : (Route53.readFn route53).read none = .ok (.many records))
    (hobjects : (BucketObjects.readFn s3).read none = .ok (.many objects))
    (hcontainers : (Docker.readFn docker).read none = .ok (.many containers))
    (hinstances : (Instances.readFn ec2).read none = .ok (.many instances)) :
    ((Route53.readFn route53).Agrees recordId records ↔ recordId ≠ "" ∧ ∀ r ∈ route53.rawRecords,
      ¬ Route53.Named recordId r.1 ∧ ¬ Route53.TakenOver route53 recordId r.1 r.2) ∧
    ((BucketObjects.readFn s3).Agrees objectId objects ↔
      objectId ≠ "" ∧ ¬ BucketObjects.Listed s3 objectId) ∧
    ((Docker.readFn docker).Agrees containerId containers ↔
      containerId ≠ "" ∧ Docker.Readable docker containerId) ∧
    ((Instances.readFn ec2).Agrees instanceId instances ↔
      instanceId ≠ "" ∧ Instances.Readable ec2 instanceId) := by
  obtain rfl := Except.ok.inj (ReadFn.all_of_read hcontainers)
  obtain rfl := Except.ok.inj (ReadFn.all_of_read hinstances)
  exact ⟨Route53.reads_agree_iff (ReadFn.all_of_read hrecords),
    BucketObjects.reads_agree_iff (ReadFn.all_of_read hobjects), Docker.reads_agree_iff,
    Instances.reads_agree_iff⟩

section Contents

namespace Route53

def zone : HostedZone where
  hostedZoneId := some "/hostedzone/Z1"
  domainName := "example.com."

def wwwRecord : AwsResourceRecordSet where
  name := "www.example.com."
  type := .A
  ttl := some 300
  resourceRecords := some ["10.0.0.1"]

def oneRecord : Content where
  ctx := {
    dbHostedZone := fun id => if id = "/hostedzone/Z1" then some zone else none
    cloudHostedZone := fun _ => none
    dbLoadBalancers := []
    cloudLoadBalancers := []
  }
  hostedZones := [zone]
  records _ := .ok [wwwRecord]

end Route53

namespace BucketObjects

def assets : Restores.Bucket := ⟨"assets", "us-east-1"⟩

def oneObject : Content where
  enabledRegions := ["us-east-1"]
  buckets := .ok [assets]
  bucket id := if id = "assets|us-east-1" then some assets else none
  known := by
    rintro bs ⟨⟩ b hb
    obtain rfl := List.mem_singleton.mp hb
    exact ⟨by decide, assets, by decide, rfl⟩
  objects _ _ _ := .ok [{ key := some "index.html" }]

end BucketObjects

namespace Docker

def nginx : ContainerInspectInfo where
  id := "c1"
  nonempty := by decide
  name := "/nginx"
  created := "2023-04-01T00:00:00Z"
  state := .running
  image := "nginx"

def stopped : ContainerInspectInfo := { nginx with id := "c2", nonempty := by decide, state := .exited }

def oneServer : Content where
  sshCredentials := ["web"]
  named := by decide
  containers _ := some [nginx, stopped]

end Docker

namespace Instances

def started : AwsInstance where
  instanceId := some "i-1"
  instanceType := some "t3.micro"

def only (raw : AwsInstance) (hraw : raw.instanceId = some "i-1") : Content where
  l := {
    enabledRegions := ["us-east-1"]
    securityGroup := fun _ _ => none
    role := fun _ => none
    subnet := fun _ _ => none
  }
  defaultRegion := "us-east-1"
  instances _ := (∅ : Dict String AwsInstance).set "i-1" raw
  identified := by
    intro _ instanceId raw' h
    by_cases heq : instanceId = "i-1"
    · subst heq
      rw [Dict.get?_set_self] at h
      cases h
      exact ⟨hraw, by decide, by decide⟩
    · rw [Dict.get?_set_ne heq] at h
      cases h
  regions := by decide

end Instances

def allRecords : List Route53.Found :=
  ((Route53.mapRecords Route53.oneRecord Route53.oneRecord.rawRecords).toOption.getD []).map .record

def allObjects : List Restores.BucketObject :=
  (BucketObjects.readAll BucketObjects.oneObject).toOption.getD []

def onDemand : Instances.Content := Instances.only Instances.started rfl

def spot : Instances.Content := Instances.only { Instances.started with isSpot := true } rfl

theorem machines_read :
    (Route53.readFn Route53.oneRecord).Agrees "/hostedzone/Z1|ftp.example.com.|A" allRecords ∧
      (BucketObjects.readFn BucketObjects.oneObject).Agrees "gone.html|assets" allObjects ∧
      (Docker.readFn Docker.oneServer).Agrees "web|c1" (Docker.readAll Docker.oneServer) ∧
      (Instances.readFn onDemand).Agrees "i-1|us-east-1" (Instances.readAll onDemand) := by
  obtain ⟨hrecord, hobject, hcontainer, hinstance⟩ := single_reads_agree_iff Route53.oneRecord
    BucketObjects.oneObject Docker.oneServer onDemand allRecords allObjects (Docker.readAll Docker.oneServer)
    (Instances.readAll onDemand) "/hostedzone/Z1|ftp.example.com.|A" "gone.html|assets" "web|c1"
    "i-1|us-east-1" rfl rfl rfl rfl
  refine ⟨hrecord.mpr ⟨by decide, ?_⟩, hobject.mpr ⟨by decide, ?_⟩, hcontainer.mpr ⟨by decide, ?_⟩,
    hinstance.mpr ⟨by decide, ?_⟩⟩
  · intro r hr
    obtain rfl : r = (Route53.wwwRecord, "/hostedzone/Z1") := List.mem_singleton.mp hr
    refine ⟨by decide, ?_⟩
    rintro ⟨-, parent, hparent, hid⟩
    cases hparent
    revert hid
    decide
  · rintro ⟨bs, b, objects, o, ⟨⟩, hb, ⟨⟩, ho, hid⟩
    obtain rfl := List.mem_singleton.mp hb
    obtain rfl := List.mem_singleton.mp (List.takeWhile_subset _ ho)
    revert hid
    decide
  · refine ⟨by decide, .inl ⟨⟨_, Docker.nginx, rfl, List.mem_cons_self, rfl, by decide⟩, by decide⟩⟩
  · refine ⟨Instances.started, by decide, fun _ _ => iff_of_false (by decide) (not_not.mpr ?_)⟩
    exact ⟨"us-east-1", by decide, by decide⟩

-- a record set, an object, a container that is stopped and a spot instance
theorem reads_disagree :
    ¬ (Route53.readFn Route53.oneRecord).Agrees "/hostedzone/Z1|www.example.com.|A" allRecords ∧
      ¬ (BucketObjects.readFn BucketObjects.oneObject).Agrees "index.html|assets" allObjects ∧
      ¬ (Docker.readFn Docker.oneServer).Agrees "web|c2" (Docker.readAll Docker.oneServer) ∧
      ¬ (Instances.readFn spot).Agrees "i-1|us-east-1" (Instances.readAll spot) := by
  refine ⟨?_, ?_, ?_, ?_⟩
  · rw [Route53.reads_agree_iff rfl]
    rintro ⟨-, h⟩
    exact (h (Route53.wwwRecord, "/hostedzone/Z1") (List.mem_singleton_self _)).1 (by decide)
  · rw [BucketObjects.reads_agree_iff rfl]
    rintro ⟨-, h⟩
    exact h ⟨_, BucketObjects.assets, _, { key := some "index.html" }, rfl, List.mem_singleton_self _, rfl,
      List.mem_singleton_self _, by decide⟩
  · rw [Docker.reads_agree_iff]
    rintro ⟨-, -, ⟨⟨_, container, ⟨⟩, hmem, hlisted, hid⟩, -⟩ | ⟨-, hexists⟩⟩
    · simp only [List.mem_cons, List.not_mem_nil, or_false] at hmem
      rcases hmem with rfl | rfl
      · revert hid
        decide
      · cases hlisted
    · refine hexists ⟨"web", List.mem_singleton_self _, _, Docker.stopped, rfl, ?_, by decide⟩
      exact List.mem_cons_of_mem _ List.mem_cons_self
  · rw [Instances.reads_agree_iff]
    rintro ⟨-, raw, hraw, hkept⟩
    obtain rfl : { Instances.started with isSpot := true } = raw := by
      have hspot : (spot.instances "us-east-1").get? "i-1" =
          some { Instances.started with isSpot := true } := rfl
      exact Option.some.inj (hspot.symm.trans hraw)
    exact (hkept rfl rfl).mp rfl ⟨"us-east-1", List.mem_singleton_self _, by decide⟩

end Contents

end Iasql
