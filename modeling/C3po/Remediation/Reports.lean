import C3po.Stored.Json
import C3po.Universe.Service

/-! The normalized container report and what the remediation controller accepts of it.

A report is a JSON object. Its hash is a parameter, with the text in which the report names it.
-/

set_option autoImplicit false

namespace C3po.Remediation
open C3po.Library C3po.Stored
open C3po.Universe (strip)

abbrev Value := Json Empty

def text? : Value → Option String
  | .text value => some value
  | _ => none

def items? : Value → Option (List Value)
  | .array _ items => some (List.ofFn items)
  | _ => none

def isTrue : Value → Bool
  | .bool value => value
  | _ => false

inductive Severity where
  | critical
  | high
  | medium
  | low
  | unknown
  deriving DecidableEq, Repr

def Severity.name : Severity → String
  | .critical => "critical"
  | .high => "high"
  | .medium => "medium"
  | .low => "low"
  | .unknown => "unknown"

def highCritical : List Severity := [.critical, .high]

def allSeverities : List Severity := [.critical, .high, .medium, .low, .unknown]

/-- Only the sealed positive-control fixture predates the per-occurrence evidence. -/
def occurrenceOptionalScopes : List String := ["controller_dry_run"]

def productionScope : String := "production_runtime"

def reportSchema : String := "C3PO_CONTAINER_VULNERABILITY_REPORT-v2"

structure Finding where
  image : String
  vulnerabilityId : String
  severity : Severity
  package : String
  installedVersion : String
  fixedVersion : String
  target : String
  deriving DecidableEq, Repr

/-- The fields in the order in which the two lists are compared. -/
def Finding.fields (finding : Finding) : List String :=
  [finding.image, finding.vulnerabilityId, finding.severity.name, finding.package, finding.installedVersion,
    finding.fixedVersion, finding.target]

/-- The canonical order, over every field. -/
def Finding.order (finding : Finding) : ℕ ×ₗ List String :=
  toLex (allSeverities.idxOf finding.severity, [finding.vulnerabilityId, finding.image, finding.package,
    finding.installedVersion, finding.fixedVersion, finding.target])

abbrev Counts := Severity → ℕ

def tally (findings : List Finding) : Counts := fun severity => findings.countP fun finding => finding.severity = severity

section Fields

/-- `_nonnegative_int`. -/
def nonnegativeInt (value : Value) (field : String) : Except String ℕ :=
  match value with
  | .integer count => if count < 0 then .error (field ++ " must be a non-negative integer") else .ok count.toNat
  | _ => .error (field ++ " must be a non-negative integer")

def fixableField (raw : Value) (field : String) : Except String String :=
  match text? (raw.get field) with
  | none => .error ("fixable finding " ++ field ++ " must be a non-empty string")
  | some value =>
    if strip value = "" then .error ("fixable finding " ++ field ++ " must be a non-empty string") else .ok (strip value)

/-- Only the fixed version of an occurrence may be blank. -/
def occurrenceField (raw : Value) (field : String) : Except String String :=
  match text? (raw.get field) with
  | none => .error ("occurrence " ++ field ++ " must be a string")
  | some value =>
    if field ≠ "fixed_version" ∧ strip value = "" then .error ("occurrence " ++ field ++ " must be a string")
    else .ok (strip value)

/-- The fields of a finding, in order, and its severity among the known ones. -/
def readFinding (read : String → Except String String) (known : List Severity) (unrated : String) (label : String) :
    Except String Finding := do
  let vulnerabilityId ← read "vulnerability_id"
  let severity ← read "severity"
  let package ← read "package"
  let installedVersion ← read "installed_version"
  let fixedVersion ← read "fixed_version"
  let target ← read "target"
  match known.find? fun level => level.name = severity with
  | none => .error unrated
  | some level => .ok ⟨label, vulnerabilityId, level, package, installedVersion, fixedVersion, target⟩

def fixableFinding (label : String) (raw : Value) : Except String Finding :=
  if raw.isObject then readFinding (fixableField raw) highCritical "fixable finding severity must be critical or high" label
  else .error "fixable finding must be an object"

def occurrence (label : String) (raw : Value) : Except String Finding :=
  if raw.isObject then readFinding (occurrenceField raw) allSeverities "occurrence severity is not a known level" label
  else .error "occurrence must be an object"

end Fields

section Images

/-- One image of the first pass: its label is new, and its critical and high findings follow the
earlier ones. -/
def listImage (state : List String × List Finding) (image : Value) : Except String (List String × List Finding) :=
  if ¬ image.isObject then .error "each image entry must be an object"
  else
    match text? (image.get "label") with
    | none => .error "image labels must be non-empty and unique"
    | some label =>
      if label = "" ∨ label ∈ state.1 then .error "image labels must be non-empty and unique"
      else
        match items? (image.get "fixable_high_critical") with
        | none => .error ("image " ++ label ++ " is missing fixable_high_critical evidence")
        | some raws => do
          let findings ← raws.mapM (fixableFinding label)
          pure (state.1 ++ [label], state.2 ++ findings)

def labelOf (image : Value) : String := (text? (image.get "label")).getD ""

def declares (value : Value) (field : String) (count : ℕ) (mismatch : ℕ → String) : Except String Unit := do
  let declared ← nonnegativeInt value field
  if declared = count then pure () else .error (mismatch declared)

def mismatchText (subject severity : String) (details totals : ℕ) : String :=
  subject ++ "fixable " ++ severity ++ " detail/count mismatch: details=" ++ toString details ++ ", totals=" ++ toString totals

def checkImageCounts (image : Value) (label : String) (occurrences fixable : List Finding) : Except String Unit := do
  let declared := image.get "fix_available"
  if ¬ declared.isObject then .error ("image " ++ label ++ " fix_available must be an object")
  else
    declares (declared.get "medium") (label ++ ".fix_available.medium") (tally fixable .medium)
      (mismatchText ("image " ++ label ++ ": ") "medium" (tally fixable .medium))
    declares (declared.get "low") (label ++ ".fix_available.low") (tally fixable .low)
      (mismatchText ("image " ++ label ++ ": ") "low" (tally fixable .low))
    declares (image.get "unknown") (label ++ ".unknown") (tally occurrences .unknown)
      fun _ => "image " ++ label ++ ": unrated occurrence count mismatch"
    declares (image.get "unknown_fix_available") (label ++ ".unknown_fix_available") (tally fixable .unknown)
      fun _ => "image " ++ label ++ ": unrated fixable detail/count mismatch"

/-- One image of the second pass: its fixable occurrences. -/
def auditImage (findings : List Finding) (image : Value) : Except String (List Finding) :=
  let label := labelOf image
  match items? (image.get "occurrences") with
  | none => .error ("image " ++ label ++ " is missing occurrences evidence")
  | some raws => do
    let occurrences ← raws.mapM (occurrence label)
    let fixable := occurrences.filter fun finding => finding.fixedVersion ≠ ""
    let listed := (fixable.filter fun finding => finding.severity ∈ highCritical).map Finding.fields
    let expected := (findings.filter fun finding => finding.image = label).map Finding.fields
    if stableSort id listed ≠ stableSort id expected then
      .error ("image " ++ label ++ ": fixable critical/high occurrences do not match fixable_high_critical")
    else
      checkImageCounts image label occurrences fixable
      pure fixable

/-- The findings and counts of one audited image over those before it. -/
def addImage (findings : List Finding) (state : Counts × List Finding) (image : Value) : Except String (Counts × List Finding) := do
  let fixable ← auditImage findings image
  pure (fun severity => if severity ∈ highCritical then state.1 severity else state.1 severity + tally fixable severity,
    state.2 ++ fixable.filter fun finding => finding.severity ∉ highCritical)

end Images

section Report
variable {Key : Type} (sha256 : Value → Key) (hexdigest : Key → String)

/-- Sixty-four lowercase hexadecimal digits. -/
def isHash (text : String) : Bool :=
  text.length = 64 ∧ text.toList.all fun character => character ∈ "0123456789abcdef".toList

def checkHeader (report : Value) (expectedScope : String) (requireDeadMan : Bool) : Except String Unit :=
  match text? (report.get "report_sha256") with
  | none => .error "report_sha256 must be a lowercase SHA-256"
  | some observed =>
    if ¬ isHash observed then .error "report_sha256 must be a lowercase SHA-256"
    else if observed ≠ hexdigest (sha256 (report.erase "report_sha256")) then .error "normalized report self-hash mismatch"
    else if text? (report.get "schema") ≠ some reportSchema then .error "unsupported normalized report schema"
    else if text? (report.get "scope") ≠ some expectedScope then
      .error ("remediation controller expected scope " ++ expectedScope)
    else if text? (report.get "scan_status") ≠ some "complete" ∨ (items? (report.get "errors")).map List.length ≠ some 0 then
      .error "production scan is not complete and error-free"
    else if requireDeadMan ∧ ¬ isTrue (report.get "dead_man_configured") then
      .error "production scan did not attest its dead-man"
    else .ok ()

def countsText (counts : Counts) : String :=
  "\x7b'critical': " ++ toString (counts .critical) ++ ", 'high': " ++ toString (counts .high) ++ "\x7d"

/-- The findings of the report and their counts, every severity of every image audited where the
occurrences are mandatory or given. -/
def auditImages (raw : Value) (images : List Value) (expectedScope : String) (counts : Counts) (findings : List Finding) :
    Except String (Counts × List Finding) :=
  if images.any (fun image => (image.get? "occurrences").isSome) ∨ expectedScope ∉ occurrenceOptionalScopes then do
    let audited ← images.foldlM (addImage findings) (counts, findings)
    declares (raw.get "medium") "fix_available.medium" (audited.1 .medium) (mismatchText "" "medium" (audited.1 .medium))
    declares (raw.get "low") "fix_available.low" (audited.1 .low) (mismatchText "" "low" (audited.1 .low))
    pure audited
  else pure (counts, findings)

def validateReport (report : Value) (expectedScope : String) (requireDeadMan : Bool) : Except String (Counts × List Finding) := do
  checkHeader sha256 hexdigest report expectedScope requireDeadMan
  let raw := report.get "fix_available"
  if ¬ raw.isObject then .error "fix_available must be an object"
  else
    let critical ← nonnegativeInt (raw.get "critical") "fix_available.critical"
    let high ← nonnegativeInt (raw.get "high") "fix_available.high"
    let counts : Counts := fun
      | .critical => critical
      | .high => high
      | _ => 0
    match items? (report.get "images") with
    | none => .error "images must be a list"
    | some images =>
      let (_, findings) ← images.foldlM listImage ([], [])
      if tally findings .critical ≠ critical ∨ tally findings .high ≠ high then
        .error ("fixable detail/count mismatch: details=" ++ countsText (tally findings) ++ ", totals=" ++ countsText counts)
      else
        let (allCounts, allFindings) ← auditImages raw images expectedScope counts findings
        pure (allCounts, stableSort Finding.order allFindings)

end Report

section Trigger
variable {Key : Type} (sha256 : Value → Key)

def listOf (items : List Value) : Value := .array items.length items.get

def Finding.json (finding : Finding) : Value :=
  .entries [("image", .text finding.image), ("vulnerability_id", .text finding.vulnerabilityId),
    ("severity", .text finding.severity.name), ("package", .text finding.package),
    ("installed_version", .text finding.installedVersion), ("fixed_version", .text finding.fixedVersion),
    ("target", .text finding.target)]

def countsJson (counts : Counts) : Value := .entries (allSeverities.map fun severity => (severity.name, .integer (counts severity)))

def keyPayload (counts : Counts) (findings : List Finding) : Value :=
  .entries [("fix_available", countsJson counts), ("findings", listOf (findings.map Finding.json))]

structure Trigger (Key : Type) where
  remediationKey : Key
  generatedAt : String
  sourceRevision : String
  reportSha256 : Value
  runUrl : String
  artifactName : String
  dryRun : Bool
  evidenceScope : Value
  fixAvailable : Counts
  findingTotal : ℕ
  findings : List Finding

def buildTrigger (report : Value) (counts : Counts) (findings : List Finding) (runUrl artifactName : String) (dryRun : Bool) :
    Except String (Trigger Key) :=
  let generatedAt := (text? (report.get "generated_at")).getD ""
  let sourceRevision := (text? (report.get "source_revision")).getD ""
  if generatedAt = "" then .error "generated_at must be a non-empty string"
  else if sourceRevision = "" then .error "source_revision must be a non-empty string"
  else if ¬ "https://github.com/".toList.isPrefixOf runUrl.toList then .error "run_url must be an HTTPS GitHub URL"
  else if artifactName = "" then .error "artifact_name must not be empty"
  else .ok {
    remediationKey := sha256 (keyPayload counts findings)
    generatedAt, sourceRevision
    reportSha256 := report.get "report_sha256"
    runUrl, artifactName, dryRun
    evidenceScope := report.get "scope"
    fixAvailable := counts
    findingTotal := (allSeverities.map counts).sum
    findings }

end Trigger

end C3po.Remediation
