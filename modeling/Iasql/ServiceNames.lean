import Mathlib.Data.List.Infix
import Mathlib.Data.List.TakeWhile
import Iasql.Comparators

namespace Iasql.Endpoints

open Aws

section Services

inductive EndpointGatewayService where
  | dynamodb | s3
deriving DecidableEq

def EndpointGatewayService.text : EndpointGatewayService → String
  | dynamodb => "dynamodb"
  | s3 => "s3"

-- the values of an enumeration, in its order: no text ends with another, or with a dot and another
structure Services (V : Type) where
  values : List V
  text : V → String
  complete : ∀ v, v ∈ values
  apart : ∀ v ∈ values, ∀ w ∈ values, endsWith (text v) (text w) = true → v = w
  dotless : ∀ v ∈ values, ∀ w ∈ values, endsWith (text v) ("." ++ text w) = false

def gatewayServices : Services EndpointGatewayService where
  values := [.dynamodb, .s3]
  text := EndpointGatewayService.text
  complete v := by cases v <;> decide
  apart := by decide
  dotless := by decide

def interfaceServices : Services EndpointInterfaceService where
  values := [.s3, .s3Global, .apiGateway, .rds, .logs, .codebuild, .codedeploy, .codepipeline, .ec2, .ecr,
    .ecs, .elb, .elasticache, .lambda, .memorydb]
  text := EndpointInterfaceService.text
  complete v := by cases v <;> decide
  apart := by decide
  dotless := by decide

variable {V : Type} (services : Services V)

def serviceFromServiceName (serviceName : String) : Option V :=
  services.values.find? fun val => endsWith serviceName (services.text val)

def vpcEndpointServiceName (serviceNames : List String) (service : V) : Option String :=
  serviceNames.find? (includes (services.text service))

def getGatewayServiceFromServiceName := serviceFromServiceName gatewayServices

def getInterfaceServiceFromServiceName := serviceFromServiceName interfaceServices

def getVpcEndpointGatewayServiceName := vpcEndpointServiceName gatewayServices

def getVpcEndpointInterfaceServiceName := vpcEndpointServiceName interfaceServices

end Services

-- a prefix that ends in a dot, and the service named after it
structure ServiceName where
  region : String
  service : String
deriving DecidableEq

def ServiceName.text (n : ServiceName) : String := n.region ++ "." ++ n.service

section Texts

variable {s t : String}

theorem endsWith_iff : endsWith s t = true ↔ t.toList <:+ s.toList := List.isSuffixOf_iff_suffix

theorem includes_of_endsWith (h : endsWith s t = true) : includes t s = true :=
  includes_iff.mpr (endsWith_iff.mp h).isInfix

end Texts

section Decoding

variable {V : Type} {services : Services V} {n : ServiceName} {v w : V}

theorem Services.eq_of_endsWith (h : endsWith (services.text v) (services.text w) = true) : v = w :=
  services.apart v (services.complete v) w (services.complete w) h

theorem ServiceName.endsWith_service (n : ServiceName) : endsWith n.text ("." ++ n.service) = true := by
  have htext : n.text.toList = n.region.toList ++ ("." ++ n.service).toList := by
    rw [ServiceName.text, String.append_assoc, String.toList_append]
  rw [endsWith_iff, htext]
  exact List.suffix_append _ _

theorem endsWith_named (hnamed : n.service = services.text v) :
    endsWith n.text (services.text v) = true := by
  rw [endsWith_iff, ServiceName.text, String.toList_append, hnamed]
  exact List.suffix_append _ _

-- a service whose text ends a name is the one that the name gives
theorem eq_of_named (hnamed : n.service = services.text v)
    (h : endsWith n.text (services.text w) = true) : v = w := by
  have hdot := endsWith_iff.mp n.endsWith_service
  rw [String.toList_append, hnamed] at hdot
  rcases List.suffix_or_suffix_of_suffix (endsWith_iff.mp h) hdot with hw | hv
  · rcases List.suffix_cons_iff.mp hw with heq | hsuffix
    · have hends : endsWith (services.text w) ("." ++ services.text v) = true := by
        rw [endsWith_iff, String.toList_append, heq]
        exact List.suffix_rfl
      rw [services.dotless w (services.complete w) v (services.complete v)] at hends
      cases hends
    · exact services.eq_of_endsWith (endsWith_iff.mpr hsuffix)
  · have hends : endsWith (services.text w) ("." ++ services.text v) = true := by
      rw [endsWith_iff, String.toList_append]
      exact hv
    rw [services.dotless w (services.complete w) v (services.complete v)] at hends
    cases hends

theorem serviceFromServiceName_ends {serviceName : String}
    (h : serviceFromServiceName services serviceName = some w) :
    endsWith serviceName (services.text w) = true := (List.find?_eq_some_iff_append.mp h).1

theorem serviceFromServiceName_isSome {serviceName : String}
    (h : endsWith serviceName (services.text w) = true) :
    ∃ v, serviceFromServiceName services serviceName = some v :=
  Option.isSome_iff_exists.mp (List.find?_isSome.mpr ⟨w, services.complete w, h⟩)

theorem serviceFromServiceName_named (hnamed : n.service = services.text v) :
    serviceFromServiceName services n.text = some v := by
  obtain ⟨w, hw⟩ := serviceFromServiceName_isSome (endsWith_named hnamed)
  rw [hw, eq_of_named hnamed (serviceFromServiceName_ends hw)]

-- a name is read as the service that it gives, or as none
def DecodesOwn (services : Services V) (n : ServiceName) : Prop :=
  ∀ w, serviceFromServiceName services n.text = some w → n.service = services.text w

-- no text of a service ends a name without being the service it gives
def EndsAlone (services : Services V) (n : ServiceName) : Prop :=
  ∀ w, endsWith n.text (services.text w) = true → n.service = services.text w

theorem decodesOwn_iff : DecodesOwn services n ↔ EndsAlone services n := by
  constructor
  · intro h w hw
    obtain ⟨v, hv⟩ := serviceFromServiceName_isSome hw
    rw [← eq_of_named (h v hv) hw]
    exact h v hv
  · exact fun h w hw => h w (serviceFromServiceName_ends hw)

end Decoding

section Encoding

variable {V : Type} {services : Services V} {names : List ServiceName} {v : V}

def Offered (services : Services V) (names : List ServiceName) (v : V) : Prop :=
  ∃ n ∈ names, n.service = services.text v

-- where AWS offers a service, the name found for it gives it and is read back as it
def RoundTrips (services : Services V) (names : List ServiceName) (v : V) : Prop :=
  Offered services names v → ∃ n ∈ names, n.service = services.text v ∧
    vpcEndpointServiceName services (names.map ServiceName.text) v = some n.text ∧
    serviceFromServiceName services n.text = some v

def gives (services : Services V) (names : List ServiceName) (v : V) (m : ServiceName) : Bool :=
  names.any fun n => decide (n.text = m.text) && decide (n.service = services.text v)

-- before the first name that gives the service there is none that contains its text
def Unshadowed (services : Services V) (names : List ServiceName) (v : V) : Prop :=
  ∀ m ∈ names.takeWhile fun m => !gives services names v m, includes (services.text v) m.text = false

theorem gives_iff {m : ServiceName} : gives services names v m = true ↔
    ∃ n ∈ names, n.text = m.text ∧ n.service = services.text v := by
  simp [gives]

theorem gives_includes {m : ServiceName} (h : gives services names v m = true) :
    includes (services.text v) m.text = true := by
  obtain ⟨n, -, htext, hnamed⟩ := gives_iff.mp h
  rw [← htext]
  exact includes_of_endsWith (endsWith_named hnamed)

-- the search ends in the part before the first name that gives the service, or at that name
theorem vpcEndpointServiceName_of_unshadowed (hoffered : Offered services names v)
    (h : Unshadowed services names v) :
    ∃ n ∈ names, n.service = services.text v ∧
      vpcEndpointServiceName services (names.map ServiceName.text) v = some n.text := by
  obtain ⟨n, hn, hnamed⟩ := hoffered
  have hgives : gives services names v n = true := gives_iff.mpr ⟨n, hn, rfl, hnamed⟩
  cases hrest : names.dropWhile fun m => !gives services names v m with
  | nil =>
    have hsplit := @List.takeWhile_append_dropWhile _ (fun m => !gives services names v m) names
    rw [hrest, List.append_nil] at hsplit
    rw [← hsplit] at hn
    have hnot := List.mem_takeWhile_imp hn
    rw [hgives] at hnot
    cases hnot
  | cons first rest =>
    have hfirst : gives services names v first = true := by
      have hhead := List.head?_dropWhile_not (fun m => !gives services names v m) names
      rw [hrest] at hhead
      simpa using hhead
    obtain ⟨m, hm, htext, hservice⟩ := gives_iff.mp hfirst
    refine ⟨m, hm, hservice, ?_⟩
    rw [vpcEndpointServiceName, List.find?_map, ← List.takeWhile_append_dropWhile (l := names)
      (p := fun m => !gives services names v m), hrest, List.find?_append, htext]
    have hnone : (names.takeWhile fun m => !gives services names v m).find?
        (includes (services.text v) ∘ ServiceName.text) = none :=
      List.find?_eq_none.mpr fun k hk => by simpa using h k hk
    rw [hnone, Option.none_or, List.find?_cons_of_pos (by exact gives_includes hfirst)]
    rfl

theorem unshadowed_of_vpcEndpointServiceName {n : ServiceName} (hn : n ∈ names)
    (hnamed : n.service = services.text v)
    (h : vpcEndpointServiceName services (names.map ServiceName.text) v = some n.text) :
    Unshadowed services names v := by
  intro m hm
  rw [Bool.eq_false_iff]
  intro hincludes
  rw [vpcEndpointServiceName, List.find?_map, ← List.takeWhile_append_dropWhile (l := names)
    (p := fun m => !gives services names v m), List.find?_append] at h
  have hsome : ((names.takeWhile fun m => !gives services names v m).find?
      (includes (services.text v) ∘ ServiceName.text)).isSome := List.find?_isSome.mpr ⟨m, hm, hincludes⟩
  obtain ⟨k, hk⟩ := Option.isSome_iff_exists.mp hsome
  rw [hk, Option.some_or, Option.map_some, Option.some.injEq] at h
  have hgives : gives services names v k = true := gives_iff.mpr ⟨n, hn, h.symm, hnamed⟩
  have hnot := List.mem_takeWhile_imp (List.mem_of_find?_eq_some hk)
  rw [hgives] at hnot
  cases hnot

theorem services_roundTrip_iff :
    RoundTrips services names v ↔ (Offered services names v → Unshadowed services names v) := by
  refine forall_congr' fun hoffered => ?_
  constructor
  · rintro ⟨n, hn, hnamed, hfound, -⟩
    exact unshadowed_of_vpcEndpointServiceName hn hnamed hfound
  · intro h
    obtain ⟨n, hn, hnamed, hfound⟩ := vpcEndpointServiceName_of_unshadowed hoffered h
    exact ⟨n, hn, hnamed, hfound, serviceFromServiceName_named hnamed⟩

-- what holds for both kinds of endpoints
theorem services_survive_iff (names : List ServiceName) (i : EndpointInterfaceService)
    (g : EndpointGatewayService) (n : ServiceName) :
    (RoundTrips interfaceServices names i ↔
        (Offered interfaceServices names i → Unshadowed interfaceServices names i)) ∧
      (RoundTrips gatewayServices names g ↔
        (Offered gatewayServices names g → Unshadowed gatewayServices names g)) ∧
      (DecodesOwn interfaceServices n ↔ EndsAlone interfaceServices n) ∧
      (DecodesOwn gatewayServices n ↔ EndsAlone gatewayServices n) :=
  ⟨services_roundTrip_iff, services_roundTrip_iff, decodesOwn_iff, decodesOwn_iff⟩

-- AWS lists the names in their order
def usEastNames : List ServiceName :=
  [⟨"com.amazonaws", "s3-global.accesspoint"⟩, ⟨"com.amazonaws.us-east-1", "ec2"⟩,
    ⟨"com.amazonaws.us-east-1", "s3"⟩]

-- a service of a customer, whose id ends as EC2 is written
def ownService : ServiceName := ⟨"com.amazonaws.vpce.us-east-1", "vpce-svc-0a1b2c3d4e5f6aec2"⟩

theorem services_confused :
    ¬ RoundTrips interfaceServices usEastNames .s3 ∧
      getInterfaceServiceFromServiceName "com.amazonaws.s3-global.accesspoint" = some .s3Global ∧
      ¬ DecodesOwn interfaceServices ownService := by
  refine ⟨fun h => ?_, by decide, fun h => ?_⟩
  · obtain ⟨n, hn, hnamed, hfound, -⟩ := h ⟨⟨"com.amazonaws.us-east-1", "s3"⟩, by decide, rfl⟩
    have hfirst : vpcEndpointServiceName interfaceServices (usEastNames.map ServiceName.text) .s3 =
        some "com.amazonaws.s3-global.accesspoint" := by decide
    have htext : n.text = "com.amazonaws.s3-global.accesspoint" :=
      Option.some.inj (hfound.symm.trans hfirst)
    have hall : ∀ m ∈ usEastNames, m.service = interfaceServices.text .s3 →
        m.text ≠ "com.amazonaws.s3-global.accesspoint" := by decide
    exact hall n hn hnamed htext
  · exact absurd (h .ec2 (by decide)) (by decide)

end Encoding

end Iasql.Endpoints
