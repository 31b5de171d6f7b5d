import Iasql.Aws
import Iasql.Calculus.Program

namespace Iasql.Buckets

open Program Prog Aws

section Operations

structure Bucket where
  name : String
  region : String
deriving DecidableEq

inductive Request where
  | headBucket (region name : String)
  | createBucket (region name : String)
deriving DecidableEq

-- the enabled regions, and whether aws_credentials has a row with an access key
structure Ctx where
  enabledAwsRegions : List String
  awsCreds : Bool

-- awsClient: the regions whose client is cached
structure State where
  awsClient : List String := []
  buckets : List Bucket := []
  requests : List Request := []
deriving DecidableEq

-- what goes wrong with a request, after those that were sent, for a reason of its own
abbrev Fault := List Request → Request → Option Thrown

variable (ctx : Ctx) (fault : Fault)

def noCredentials : Thrown := .error "No credentials found"

def notFound : Thrown := .error "NotFound"

def bucketAlreadyExists : Thrown := .error "BucketAlreadyExists"

def alreadyExists : Thrown := .error "Cannot create the bucket, it already exists in another region"

def getAwsClient (region : String) : Prog State Thrown Unit := do
  let cached ← reads State.awsClient
  if region ∈ cached then return ()
  else if ctx.awsCreds then writes fun s => { s with awsClient := region :: s.awsClient }
  else fail noCredentials

def send (request : Request) : Prog State Thrown Unit := do
  let sent ← reads State.requests
  writes fun s => { s with requests := s.requests ++ [request] }
  match fault sent request with
  | some err => fail err
  | none => return ()

def headBucket (region name : String) : Prog State Thrown Unit := do
  send fault (.headBucket region name)
  let buckets ← reads State.buckets
  if ⟨name, region⟩ ∈ buckets then return () else fail notFound

def createBucket (region name : String) : Prog State Thrown Unit := do
  send fault (.createBucket region name)
  let buckets ← reads State.buckets
  if ∃ b ∈ buckets, b.name = name then fail bucketAlreadyExists
  else writes fun s => { s with buckets := s.buckets ++ [⟨name, region⟩] }

-- the handler of the probe absorbs the refusal as well
def probe (name region : String) : Prog State Thrown Unit := do
  getAwsClient ctx region
  let _ ← attempt do
    headBucket fault region name
    (fail alreadyExists : Prog State Thrown Unit)
  return ()

def createOne (e : Bucket) : Prog State Thrown Unit := do
  each (probe ctx fault e.name) ctx.enabledAwsRegions
  getAwsClient ctx e.region
  createBucket fault e.region e.name

def create (es : List Bucket) : Prog State Thrown (List Bucket) := do
  each (createOne ctx fault) es
  return es

end Operations

section Requests

-- the createBucket requests that were sent
def State.created (s : State) : List Bucket :=
  s.requests.filterMap fun
    | .createBucket region name => some ⟨name, region⟩
    | .headBucket _ _ => none

def HasClient (ctx : Ctx) (s : State) (region : String) : Prop := region ∈ s.awsClient ∨ ctx.awsCreds = true

-- a bucket of the name is in an enabled region
def Held (ctx : Ctx) (s : State) (name : String) : Prop :=
  ∃ region ∈ ctx.enabledAwsRegions, ⟨name, region⟩ ∈ s.buckets

structure Kept (ctx : Ctx) (s t : State) : Prop where
  created : t.created = s.created
  hasClient : ∀ region, HasClient ctx t region ↔ HasClient ctx s region

variable {ctx : Ctx} {fault : Fault} {s t u : State} {name region : String} {request : Request}

theorem Kept.refl : Kept ctx s s := ⟨rfl, fun _ => Iff.rfl⟩

theorem Kept.trans (h : Kept ctx s t) (k : Kept ctx t u) : Kept ctx s u :=
  ⟨k.created.trans h.created, fun region => (k.hasClient region).trans (h.hasClient region)⟩

theorem getAwsClient_returned (h : HasClient ctx s region) :
    ∃ t, getAwsClient ctx region s = (.returned (), t) ∧ Kept ctx s t := by
  rw [getAwsClient, reads_bind_apply]
  by_cases hcached : region ∈ s.awsClient
  · rw [if_pos hcached]
    exact ⟨s, rfl, .refl⟩
  · have hcreds : ctx.awsCreds = true := h.resolve_left hcached
    rw [if_neg hcached, if_pos hcreds]
    exact ⟨_, rfl, rfl, fun _ => iff_of_true (.inr hcreds) (.inr hcreds)⟩

theorem getAwsClient_thrown (h : ¬ HasClient ctx s region) :
    getAwsClient ctx region s = (.thrown noCredentials, s) := by
  obtain ⟨hcached, hcreds⟩ := not_or.mp h
  rw [getAwsClient, reads_bind_apply, if_neg hcached, if_neg hcreds]
  rfl

def State.sent (request : Request) (s : State) : State := { s with requests := s.requests ++ [request] }

theorem send_cases :
    send fault request s = (.returned (), s.sent request) ∨
      ∃ err, send fault request s = (.thrown err, s.sent request) := by
  rw [send, reads_bind_apply, writes_bind_apply]
  cases fault s.requests request with
  | none => exact .inl rfl
  | some err => exact .inr ⟨err, rfl⟩

-- after the request, the rest of the program decides
theorem rel_send_bind {α : Type} (F : Frame State) {k : Unit → Prog State Thrown α} (hk : F.Keeps (k ())) :
    F.rel (s.sent request) ((send fault request >>= k) s).2 := by
  rcases @send_cases fault s request with hsend | ⟨err, hsend⟩
  · rw [bind_of_returned hsend]
    exact hk _
  · rw [bind_of_thrown hsend]
    exact F.refl _

theorem createBucket_created :
    (createBucket fault region name s).2.created = s.created ++ [⟨name, region⟩] := by
  have hrequests : (createBucket fault region name s).2.requests = (s.sent (.createBucket region name)).requests := by
    refine rel_send_bind (Frame.ofField State.requests) fun t => ?_
    rw [reads_bind_apply]
    split <;> rfl
  rw [State.created, hrequests, State.sent, List.filterMap_append]
  rfl

theorem kept_sent_headBucket : Kept ctx s (s.sent (.headBucket region name)) where
  created := by
    rw [State.created, State.sent, List.filterMap_append]
    exact List.append_nil _
  hasClient _ := Iff.rfl

-- the block under the handler throws whatever the probe finds
theorem refusal_thrown :
    ∃ err, (headBucket fault region name >>= fun _ => (fail alreadyExists : Prog State Thrown Unit)) s =
      (.thrown err, s.sent (.headBucket region name)) := by
  rw [headBucket]
  rcases @send_cases fault s (.headBucket region name) with hsend | ⟨err, hsend⟩
  · rw [bind_assoc_apply, bind_of_returned hsend, bind_assoc_apply, reads_bind_apply]
    split <;> exact ⟨_, rfl⟩
  · rw [bind_assoc_apply, bind_of_thrown hsend]
    exact ⟨err, rfl⟩

theorem probe_returned (h : HasClient ctx s region) :
    ∃ t, probe ctx fault name region s = (.returned (), t) ∧ Kept ctx s t := by
  obtain ⟨t, hclient, hkept⟩ := getAwsClient_returned h
  obtain ⟨err, hthrown⟩ := @refusal_thrown fault t name region
  refine ⟨t.sent (.headBucket region name), ?_, hkept.trans kept_sent_headBucket⟩
  rw [probe, bind_of_returned hclient, bind_of_returned (attempt_error.mpr hthrown)]
  rfl

theorem probe_thrown (h : ¬ HasClient ctx s region) :
    probe ctx fault name region s = (.thrown noCredentials, s) := by
  rw [probe, bind_of_thrown (getAwsClient_thrown h)]

theorem probes_returned {regions : List String} (h : ∀ region ∈ regions, HasClient ctx s region) :
    ∃ t, each (probe ctx fault name) regions s = (.returned (), t) ∧ Kept ctx s t := by
  induction regions generalizing s with
  | nil => exact ⟨s, rfl, .refl⟩
  | cons region regions ih =>
    obtain ⟨hfirst, hrest⟩ := List.forall_mem_cons.mp h
    obtain ⟨t, hprobe, hkept⟩ := @probe_returned _ fault _ name _ hfirst
    obtain ⟨u, hprobes, hkept'⟩ := @ih t fun r hr => (hkept.hasClient r).mpr (hrest r hr)
    refine ⟨u, ?_, hkept.trans hkept'⟩
    rw [each, bind_of_returned hprobe, hprobes]

theorem probes_thrown {regions : List String} (h : ∃ region ∈ regions, ¬ HasClient ctx s region) :
    ∃ t, each (probe ctx fault name) regions s = (.thrown noCredentials, t) ∧ Kept ctx s t := by
  induction regions generalizing s with
  | nil =>
    obtain ⟨_, hmem, -⟩ := h
    cases hmem
  | cons region regions ih =>
    rw [each]
    by_cases hfirst : HasClient ctx s region
    · obtain ⟨t, hprobe, hkept⟩ := @probe_returned _ fault _ name _ hfirst
      have hrest : ∃ r ∈ regions, ¬ HasClient ctx t r := by
        obtain ⟨r, hr, hno⟩ := h
        rcases List.mem_cons.mp hr with rfl | hr
        · exact absurd hfirst hno
        · exact ⟨r, hr, fun hclient => hno ((hkept.hasClient r).mp hclient)⟩
      obtain ⟨u, hprobes, hkept'⟩ := ih hrest
      exact ⟨u, by rw [bind_of_returned hprobe, hprobes], hkept.trans hkept'⟩
    · exact ⟨s, bind_of_thrown (probe_thrown hfirst), .refl⟩

end Requests

section Refusal

variable {ctx : Ctx} {fault : Fault} {s : State} {e : Bucket}

-- the regions whose client the creation of a bucket asks for
def Clients (ctx : Ctx) (s : State) (e : Bucket) : Prop :=
  ∀ region ∈ ctx.enabledAwsRegions ++ [e.region], HasClient ctx s region

-- the bucket is asked for, whatever the content of the cloud
theorem create_created (h : Clients ctx s e) :
    (create ctx fault [e] s).2.created = s.created ++ [e] := by
  obtain ⟨hregions, hregion⟩ := List.forall_mem_append.mp h
  obtain ⟨t, hprobes, hkept⟩ := @probes_returned _ fault _ e.name _ hregions
  obtain ⟨u, hclient, hkept'⟩ := getAwsClient_returned ((hkept.hasClient _).mpr (hregion _ (List.mem_singleton_self _)))
  have hone : (createOne ctx fault e s).2.created = s.created ++ [e] := by
    rw [createOne, bind_of_returned hprobes, bind_of_returned hclient, createBucket_created,
      (hkept.trans hkept').created]
  rw [create, bind_pure_snd, each, each, bind_unit_apply, hone]

theorem create_without_client (h : ¬ Clients ctx s e) :
    ∃ t, create ctx fault [e] s = (.thrown noCredentials, t) ∧ t.created = s.created := by
  have hone : ∃ t, createOne ctx fault e s = (.thrown noCredentials, t) ∧ Kept ctx s t := by
    rw [createOne]
    by_cases hregions : ∀ region ∈ ctx.enabledAwsRegions, HasClient ctx s region
    · obtain ⟨t, hprobes, hkept⟩ := @probes_returned _ fault _ e.name _ hregions
      have hregion : ¬ HasClient ctx t e.region := by
        rw [hkept.hasClient]
        exact fun hregion => h (List.forall_mem_append.mpr ⟨hregions, List.forall_mem_singleton.mpr hregion⟩)
      exact ⟨t, by rw [bind_of_returned hprobes, bind_of_thrown (getAwsClient_thrown hregion)], hkept⟩
    · push Not at hregions
      obtain ⟨t, hprobes, hkept⟩ := @probes_thrown _ fault _ e.name _ hregions
      exact ⟨t, bind_of_thrown hprobes, hkept⟩
  obtain ⟨t, hone, hkept⟩ := hone
  refine ⟨t, ?_, hkept.created⟩
  rw [create, each, bind_assoc_apply, bind_of_thrown hone]

-- a held name is refused without a request, and any other is asked for once, in the bucket's region
structure RefusesHeld (ctx : Ctx) (fault : Fault) (s : State) (e : Bucket) : Prop where
  refused : Held ctx s e.name →
    ∃ err t, create ctx fault [e] s = (.thrown err, t) ∧ t.created = s.created
  made : ¬ Held ctx s e.name → (create ctx fault [e] s).2.created = s.created ++ [e]

theorem refusesHeld_iff (ctx : Ctx) (fault : Fault) (s : State) (e : Bucket) :
    RefusesHeld ctx fault s e ↔ (Held ctx s e.name ↔ ¬ Clients ctx s e) := by
  by_cases hclients : Clients ctx s e
  · have hmade := @create_created _ fault _ _ hclients
    rw [iff_not_comm, iff_true_left hclients]
    refine ⟨fun h hheld => ?_, fun h => ⟨fun hheld => absurd hheld h, fun _ => hmade⟩⟩
    obtain ⟨err, t, hthrown, hnone⟩ := h.refused hheld
    rw [hthrown, hnone] at hmade
    exact List.cons_ne_nil e [] (List.self_eq_append_right.mp hmade)
  · obtain ⟨t, hthrown, hnone⟩ := @create_without_client _ fault _ _ hclients
    rw [iff_true_right hclients]
    refine ⟨fun h => by_contra fun hheld => ?_, fun h => ⟨fun _ => ⟨_, t, hthrown, hnone⟩, fun hheld => absurd h hheld⟩⟩
    have hmade := h.made hheld
    rw [hthrown, hnone] at hmade
    exact List.cons_ne_nil e [] (List.self_eq_append_right.mp hmade)

def bothRegions : Ctx := { enabledAwsRegions := ["us-east-1", "us-east-2"], awsCreds := true }

def heldAssets : State := { buckets := [⟨"assets", "us-east-1"⟩] }

def assets : Bucket := ⟨"assets", "us-east-2"⟩

theorem held_assets_asked_for :
    Held bothRegions heldAssets assets.name ∧
      (create bothRegions (fun _ _ => none) [assets] heldAssets).2.created = [assets] ∧
      ¬ RefusesHeld bothRegions (fun _ _ => none) heldAssets assets := by
  have hheld : Held bothRegions heldAssets assets.name :=
    ⟨"us-east-1", List.mem_cons_self, List.mem_singleton_self _⟩
  have hmade : (create bothRegions (fun _ _ => none) [assets] heldAssets).2.created = [assets] :=
    create_created fun _ _ => .inr rfl
  refine ⟨hheld, hmade, fun h => ?_⟩
  obtain ⟨err, t, hthrown, hnone⟩ := h.refused hheld
  rw [hthrown, hnone] at hmade
  cases hmade

end Refusal

end Iasql.Buckets
