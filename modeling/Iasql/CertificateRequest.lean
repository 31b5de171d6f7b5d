import Iasql.Calculus.Faults
import Iasql.Json
import Iasql.ZoneRenaming

namespace Iasql.Acm

open Program Prog Aws Route53

section Types

structure ResourceRecord where
  name : Option String
  value : Option String
deriving DecidableEq

structure DomainValidation where
  domainName : Option String
  validationDomain : Option String
  resourceRecord : Option ResourceRecord := none
deriving DecidableEq

inductive CertificateStatus where
  | pendingValidation | issued | inactive | expired | validationTimedOut | revoked | failed
deriving DecidableEq

-- a certificate of the database and of the memo, by its arn
structure Certificate where
  arn : String
deriving DecidableEq

-- what may throw, with the number of the turn in a loop
inductive Call where
  | modules
  | getAwsClient
  | requestCertificate
  | getCertificatesSummary (i : Nat)
  | createCertificateTags
  | readCloud (i : Nat)
  | createDb
  | readDb
  | describeOptions (i : Nat)
  | readZones (i : Nat)
  | route53Client (i : Nat)
  | createRecord (i : Nat)
  | getRecord (i : Nat)
  | waitUntilIssued
  | describeStatus
  | updateDb
deriving DecidableEq

-- the answers of AWS and of the database to one request; issued: ACM issues it during the request
structure Service where
  fault : Call → Option Thrown := fun _ => none
  installed : List String := ["aws_acm", "aws_route53"]
  certificateArn : Option String := none
  listed : Nat → List (Option String) := fun _ => []
  readable : Nat → Bool := fun _ => false
  described : Nat → Option (List DomainValidation) := fun _ => none
  zones : Option (List HostedZone) := none
  reread : Nat → Option ResourceRecordSet := fun _ => none
  status : Option CertificateStatus := none
  issued : Bool := false
  issued_of_status : status = some .issued → issued = true

-- records: of Route53; changes: the records that CREATE was asked for; certificates: of ACM
structure State where
  records : List ResourceRecordSet := []
  changes : List ResourceRecordSet := []
  certificates : List String := []
  rows : List Certificate := []
  memo : Option Certificate := none
deriving DecidableEq

-- tags: what safeParse makes of the text
structure Input where
  validationMethod : String
  tags : Option JsVal

structure Response where
  arn : String
  status : Option String
  message : String
deriving DecidableEq

end Types

section Validation

variable (svc : Service)

def couldNotValidate : Thrown := .error "Error creating hosted zone, could not validate"

def invalidChangeBatch : Thrown := .error "InvalidChangeBatch"

def canValidate (options : List DomainValidation) : Bool :=
  options.any fun option => Aws.truthy option.domainName && option.resourceRecord.isSome

-- the first description, out of 30, of a certificate that can be validated
def describeOptions : Prog State Thrown (Option (List DomainValidation)) :=
  poll (fun i => svc.fault (.describeOptions i)) (fun i => (svc.described i).filter canValidate) 30 0

def domainToCheck (zone : HostedZone) : String :=
  if zone.domainName.toList.getLast? = some '.' then String.ofList zone.domainName.toList.dropLast
  else zone.domainName

def parentZone (zones : List HostedZone) (domainName : String) : Option HostedZone :=
  zones.find? fun zone => getNameFromDomain domainName (domainToCheck zone) != ""

def validationRecord (zone : HostedZone) (name : String) (value : Option String) : ResourceRecordSet where
  name
  parentHostedZone := zone
  record := value
  ttl := some 300
  recordType := .CNAME

-- Route53 has one record of a name and type in a zone
def recordKey (record : ResourceRecordSet) : Option String × String × RecordType :=
  (record.parentHostedZone.hostedZoneId, record.name, record.recordType)

-- the new record is read again, and is returned where it is found and mapped
def createRecord (i : Nat) (record : ResourceRecordSet) : Prog State Thrown (Option ResourceRecordSet) := do
  check (svc.fault (.route53Client i))
  writes fun s => { s with changes := s.changes ++ [record] }
  check (svc.fault (.createRecord i))
  let records ← reads State.records
  if ∃ r ∈ records, recordKey r = recordKey record then fail invalidChangeBatch
  else do
    writes fun s => { s with records := s.records ++ [record] }
    check (svc.fault (.getRecord i))
    return svc.reread i

def validateOption (i : Nat) (domainOption : DomainValidation) : Prog State Thrown (List ResourceRecordSet) := do
  if Aws.truthy domainOption.domainName && Aws.truthy domainOption.validationDomain then do
    check (svc.fault (.readZones i))
    match parentZone (svc.zones.getD []) (domainOption.domainName.getD ""), domainOption.resourceRecord with
    | some zone, some resourceRecord =>
      if Aws.truthy resourceRecord.name then do
        let record := validationRecord zone (resourceRecord.name.getD "") resourceRecord.value
        match ← attempt (createRecord svc i record) with
        | .error _ => fail couldNotValidate
        | .ok (some _) => return [record]
        | .ok none => return []
      else return []
    | _, _ => return []
  else return []

def validateOptions : Nat → List DomainValidation → Prog State Thrown (List ResourceRecordSet)
  | _, [] => return []
  | i, o :: os => do
    let created ← validateOption svc i o
    let rest ← validateOptions (i + 1) os
    return created ++ rest

def deleteRecords (rrs : List ResourceRecordSet) (s : State) : State :=
  { s with records := s.records.filter fun r => recordKey r ∉ rrs.map recordKey }

def validateCertificate : Prog State Thrown Unit := do
  match ← describeOptions svc with
  | none => return ()
  | some options => do
    let createdRecordsets ← validateOptions svc 0 options
    runIf (createdRecordsets ≠ []) (check (svc.fault .waitUntilIssued))
    writes (deleteRecords createdRecordsets)

end Validation

section Request

variable (svc : Service) (input : Input)

def notInstalled : Thrown := .error "DNS validated certificates only possible if \"aws_route53 is installed"

def notIterable : Thrown := .error "Cannot convert undefined or null to object"

def noRecord : Thrown := .error "Cannot set properties of undefined (setting 'id')"

def CertificateStatus.text : CertificateStatus → String
  | .pendingValidation => "PENDING_VALIDATION"
  | .issued => "ISSUED"
  | .inactive => "INACTIVE"
  | .expired => "EXPIRED"
  | .validationTimedOut => "VALIDATION_TIMED_OUT"
  | .revoked => "REVOKED"
  | .failed => "FAILED"

def Service.arn : String := svc.certificateArn.getD ""

def precheck : Prog State Thrown Unit := do
  runIf (input.validationMethod = "DNS") do
    check (svc.fault .modules)
    if "aws_route53" ∈ svc.installed then return () else fail notInstalled
  check (svc.fault .getAwsClient)

-- waits for the certificate to be listed, for 30 turns
def waitListed : Prog State Thrown (Option Unit) :=
  poll (fun i => svc.fault (.getCertificatesSummary i))
    (fun i => if svc.arn ∈ (svc.listed i).map (·.getD "") then some () else none) 30 0

def requestCertificate : Prog State Thrown String := do
  check (svc.fault .requestCertificate)
  writes fun s => { s with certificates := s.certificates ++ [svc.arn] }
  let _ ← waitListed svc
  return svc.arn

-- Object.entries, of which only the number of entries matters here
def entriesOf : Option JsVal → Except Thrown Nat
  | none => .error notIterable
  | some .null => .error notIterable
  | some (.obj fields) => .ok fields.length
  | some (.arr xs) => .ok xs.length
  | some (.str s) => .ok s.length
  | some _ => .ok 0

-- a certificate of the memo is not read again
def readCloud (i : Nat) : Prog State Thrown (Option Certificate) := do
  match ← reads State.memo with
  | some cert => return some cert
  | none => do
    check (svc.fault (.readCloud i))
    if svc.readable i then do
      writes fun s => { s with memo := some ⟨svc.arn⟩ }
      return some ⟨svc.arn⟩
    else return none

def register : Prog State Thrown (Option Certificate) := do
  match entriesOf input.tags with
  | .error err => fail err
  | .ok transformedTags => do
    runIf (transformedTags ≠ 0) (check (svc.fault .createCertificateTags))
    let requestedCert ← readCloud svc 0
    check (svc.fault .createDb)
    writes fun s => { s with rows := s.rows ++ requestedCert.toList }
    check (svc.fault .readDb)
    reads fun s => s.rows.find? (·.arn = svc.arn)

def deleteCertificate (cert : Certificate) (s : State) : State :=
  { s with certificates := s.certificates.filter (· ≠ cert.arn), rows := s.rows.filter (· ≠ cert) }

-- a certificate that is not issued is removed, and any other is saved as it is now
def settle (dbCert : Option Certificate) : Prog State Thrown (List Response) := do
  check (svc.fault .describeStatus)
  let status := svc.status.map CertificateStatus.text
  if svc.status ≠ some .issued then do
    let cloudCert ← readCloud svc 1
    writes (cloudCert.elim id deleteCertificate)
    return [⟨svc.arn, status, "Certificate could not be validated"⟩]
  else do
    writes fun s => { s with memo := none }
    let cert ← readCloud svc 2
    if cert = none ∧ dbCert ≠ none then fail noRecord else check (svc.fault .updateDb)
    return [⟨svc.arn, status, "Successfully validated the certificate"⟩]

def call : Prog State Thrown (List Response) := do
  precheck svc input
  let requestedCertArn ← requestCertificate svc
  if requestedCertArn = "" then return [⟨"", some "ERROR", "Error requesting certificate"⟩]
  else do
    let dbCert ← register svc input
    if input.validationMethod = "DNS" then do
      validateCertificate svc
      settle svc dbCert
    else return [⟨"", some "PENDING", "Check your email for next steps to validate the certificate request"⟩]

end Request

end Iasql.Acm
