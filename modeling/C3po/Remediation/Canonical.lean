import C3po.Remediation.Reports

/-! The remediation key is that of the multiset of fixable occurrences.

Critical and high findings come from one list and the others from a second, which repeats the
first; the second is read here as a whole.
-/

set_option autoImplicit false

namespace C3po.Remediation
open C3po.Library C3po.Stored
open C3po.Universe (strip)

section Occurrences

def trimmed (raw : Value) (field : String) : String := strip ((text? (raw.get field)).getD "")

/-- An occurrence as the report lists it, trimmed. -/
def listed (label : String) (raw : Value) : Option Finding :=
  (allSeverities.find? fun severity => severity.name = trimmed raw "severity").map fun severity =>
    ⟨label, trimmed raw "vulnerability_id", severity, trimmed raw "package", trimmed raw "installed_version",
      trimmed raw "fixed_version", trimmed raw "target"⟩

def imageOccurrences (image : Value) : List Finding :=
  (((items? (image.get "occurrences")).getD []).filterMap (listed (labelOf image))).filter fun finding => finding.fixedVersion ≠ ""

def fixableOccurrences (report : Value) : List Finding := ((items? (report.get "images")).getD []).flatMap imageOccurrences

theorem readFinding_ok {read : String → Except String String} {known : List Severity} {unrated label : String} {finding : Finding}
    (ok : readFinding read known unrated label = .ok finding) :
    finding.image = label ∧ read "vulnerability_id" = .ok finding.vulnerabilityId ∧ read "package" = .ok finding.package ∧
      read "installed_version" = .ok finding.installedVersion ∧ read "fixed_version" = .ok finding.fixedVersion ∧
      read "target" = .ok finding.target ∧
      ∃ severity, read "severity" = .ok severity ∧ known.find? (fun level => level.name = severity) = some finding.severity := by
  obtain ⟨vulnerabilityId, first, rest⟩ := bind_ok ok
  obtain ⟨severity, second, rest⟩ := bind_ok rest
  obtain ⟨package, third, rest⟩ := bind_ok rest
  obtain ⟨installedVersion, fourth, rest⟩ := bind_ok rest
  obtain ⟨fixedVersion, fifth, rest⟩ := bind_ok rest
  obtain ⟨target, sixth, rest⟩ := bind_ok rest
  split at rest
  · cases rest
  · rename_i level found
    cases rest
    exact ⟨rfl, first, third, fourth, fifth, sixth, severity, second, found⟩

theorem occurrenceField_ok {raw : Value} {field value : String} (ok : occurrenceField raw field = .ok value) :
    trimmed raw field = value := by
  unfold occurrenceField at ok
  unfold trimmed
  cases read : text? (raw.get field) with
  | none =>
    rw [read] at ok
    cases ok
  | some text =>
    rw [read] at ok
    dsimp only at ok
    split at ok
    · cases ok
    · cases ok
      rfl

theorem occurrence_listed {label : String} {raw : Value} {finding : Finding} (ok : occurrence label raw = .ok finding) :
    listed label raw = some finding := by
  unfold occurrence at ok
  split at ok
  · obtain ⟨image, vulnerabilityId, package, installedVersion, fixedVersion, target, severity, named, found⟩ := readFinding_ok ok
    unfold listed
    rw [occurrenceField_ok named, found, occurrenceField_ok vulnerabilityId, occurrenceField_ok package,
      occurrenceField_ok installedVersion, occurrenceField_ok fixedVersion, occurrenceField_ok target, Option.map_some, ← image]
  · cases ok

theorem occurrences_listed {label : String} {raws : List Value} {occurrences : List Finding}
    (ok : raws.mapM (occurrence label) = .ok occurrences) : raws.filterMap (listed label) = occurrences := by
  have each := mapM_results ok
  clear ok
  induction each with
  | nil => rfl
  | cons read _ ih => rw [List.filterMap_cons_some (occurrence_listed read), ih]

theorem fixableFinding_ok {label : String} {raw : Value} {finding : Finding} (ok : fixableFinding label raw = .ok finding) :
    finding.image = label ∧ finding.severity ∈ highCritical := by
  unfold fixableFinding at ok
  split at ok
  · obtain ⟨image, _, _, _, _, _, _, _, found⟩ := readFinding_ok ok
    exact ⟨image, List.mem_of_find?_eq_some found⟩
  · cases ok

theorem fixableFindings_ok {label : String} {raws : List Value} {findings : List Finding}
    (ok : raws.mapM (fixableFinding label) = .ok findings) :
    ∀ finding ∈ findings, finding.image = label ∧ finding.severity ∈ highCritical := by
  intro finding member
  have each := mapM_results ok
  clear ok
  induction each with
  | nil => cases member
  | cons read _ ih =>
    rcases List.mem_cons.mp member with rfl | further
    · exact fixableFinding_ok read
    · exact ih further

end Occurrences

section Orders

theorem Severity.name_injective : Function.Injective Severity.name := by
  intro first second same
  cases first <;> cases second <;> first | rfl | exact absurd same (by decide)

theorem idxOf_injective : Function.Injective fun severity => allSeverities.idxOf severity := by
  intro first second same
  cases first <;> cases second <;> first | rfl | exact absurd same (by decide)

theorem Finding.fields_injective : Function.Injective Finding.fields := by
  intro first second same
  obtain ⟨image, vulnerabilityId, severity, package, installedVersion, fixedVersion, target⟩ := first
  obtain ⟨image', vulnerabilityId', severity', package', installedVersion', fixedVersion', target'⟩ := second
  simp only [Finding.fields, List.cons.injEq, and_true] at same
  obtain ⟨rfl, rfl, named, rfl, rfl, rfl, rfl⟩ := same
  rw [Severity.name_injective named]

theorem Finding.order_injective : Function.Injective Finding.order := by
  intro first second same
  obtain ⟨image, vulnerabilityId, severity, package, installedVersion, fixedVersion, target⟩ := first
  obtain ⟨image', vulnerabilityId', severity', package', installedVersion', fixedVersion', target'⟩ := second
  have pair := toLex.injective same
  simp only [Prod.mk.injEq, List.cons.injEq, and_true] at pair
  obtain ⟨rated, rfl, rfl, rfl, rfl, rfl, rfl⟩ := pair
  rw [idxOf_injective rated]

end Orders

section Listing

/-- What the first pass keeps: a finding belongs to an image seen, and is critical or high. -/
structure Gathered (state : List String × List Finding) : Prop where
  labels : state.1.Nodup
  owned : ∀ finding ∈ state.2, finding.image ∈ state.1
  severe : ∀ finding ∈ state.2, finding.severity ∈ highCritical

theorem listImage_keeps {state next : List String × List Finding} {image : Value} (gathered : Gathered state)
    (ok : listImage state image = .ok next) : Gathered next ∧ next.1 = state.1 ++ [labelOf image] := by
  unfold listImage at ok
  split at ok
  · cases ok
  · cases named : text? (image.get "label") with
    | none =>
      rw [named] at ok
      cases ok
    | some label =>
      rw [named] at ok
      dsimp only at ok
      split at ok
      · cases ok
      · rename_i accepted
        obtain ⟨_, fresh⟩ := not_or.mp accepted
        split at ok
        · cases ok
        · obtain ⟨findings, read, rest⟩ := bind_ok ok
          cases rest
          have each := fixableFindings_ok read
          have same : labelOf image = label := by
            unfold labelOf
            rw [named]
            rfl
          rw [same]
          refine ⟨⟨?_, ?_, ?_⟩, rfl⟩
          · exact List.Nodup.append gathered.labels (List.nodup_singleton label)
              (List.disjoint_singleton.mpr fresh)
          · intro finding member
            rcases List.mem_append.mp member with earlier | new
            · exact List.mem_append_left _ (gathered.owned finding earlier)
            · exact List.mem_append_right _ (List.mem_singleton.mpr (each finding new).1)
          · intro finding member
            rcases List.mem_append.mp member with earlier | new
            · exact gathered.severe finding earlier
            · exact (each finding new).2

theorem listImages_keeps {images : List Value} {state final : List String × List Finding} (gathered : Gathered state)
    (ok : images.foldlM listImage state = .ok final) : Gathered final ∧ final.1 = state.1 ++ images.map labelOf := by
  induction images generalizing state with
  | nil =>
    cases ok
    exact ⟨gathered, (List.append_nil _).symm⟩
  | cons image rest ih =>
    obtain ⟨next, stepped, goes⟩ := foldlM_cons_ok ok
    obtain ⟨kept, labels⟩ := listImage_keeps gathered stepped
    obtain ⟨gatheredFinal, whole⟩ := ih kept goes
    refine ⟨gatheredFinal, ?_⟩
    rw [whole, labels, List.append_assoc]
    rfl

theorem findings_by_label {labels : List String} {findings : List Finding} (distinct : labels.Nodup)
    (owned : ∀ finding ∈ findings, finding.image ∈ labels) :
    findings.Perm (labels.flatMap fun label => findings.filter fun finding => finding.image = label) := by
  induction labels generalizing findings with
  | nil =>
    cases findings with
    | nil => exact .refl _
    | cons finding _ => cases owned finding List.mem_cons_self
  | cons label rest ih =>
    obtain ⟨fresh, distinctRest⟩ := List.nodup_cons.mp distinct
    have others : (findings.filter fun finding => ¬ finding.image = label).Perm
        (rest.flatMap fun other => (findings.filter fun finding => ¬ finding.image = label).filter fun finding => finding.image = other) := by
      apply ih distinctRest
      intro finding member
      obtain ⟨known, apart⟩ := List.mem_filter.mp member
      exact (List.mem_cons.mp (owned finding known)).resolve_left (of_decide_eq_true apart)
    have same : ∀ other ∈ rest, ((findings.filter fun finding => ¬ finding.image = label).filter fun finding => finding.image = other) =
        findings.filter fun finding => finding.image = other := by
      intro other member
      rw [List.filter_filter]
      apply List.filter_congr
      intro finding _
      by_cases owns : finding.image = other
      · have apart : other ≠ label := fun same => fresh (same ▸ member)
        simp [owns, apart]
      · simp [owns]
    rw [List.flatMap_cons, ← List.flatMap_congr same]
    refine List.Perm.trans ?_ (List.Perm.append_left _ others)
    have split := (List.filter_append_perm (fun finding : Finding => decide (finding.image = label)) findings).symm
    simpa only [decide_not] using split

end Listing

section Audit

theorem auditImage_ok {findings fixable : List Finding} {image : Value} (ok : auditImage findings image = .ok fixable) :
    fixable = imageOccurrences image ∧ (fixable.filter fun finding => finding.severity ∈ highCritical).Perm
      (findings.filter fun finding => finding.image = labelOf image) := by
  unfold auditImage at ok
  dsimp only at ok
  split at ok
  · cases ok
  · rename_i raws held
    obtain ⟨occurrences, read, rest⟩ := bind_ok ok
    split at rest
    · cases rest
    · rename_i same
      obtain ⟨_, _, whole⟩ := bind_ok rest
      cases whole
      have listedOnes : imageOccurrences image = occurrences.filter fun finding => finding.fixedVersion ≠ "" := by
        unfold imageOccurrences
        rw [held, Option.getD_some, occurrences_listed read]
      refine ⟨listedOnes.symm, ?_⟩
      have perm := (stableSort_eq_iff_perm Function.injective_id).mp (not_not.mp same)
      exact (List.map_perm_map_iff Finding.fields_injective).mp perm

theorem addImage_keeps {findings : List Finding} {state next : Counts × List Finding} {image : Value}
    (counted : state.1 = tally state.2) (ok : addImage findings state image = .ok next) : next.1 = tally next.2 := by
  obtain ⟨fixable, _, whole⟩ := bind_ok ok
  cases whole
  funext severity
  have others : tally (fixable.filter fun finding => finding.severity ∉ highCritical) severity =
      if severity ∈ highCritical then 0 else tally fixable severity := by
    unfold tally
    rw [List.countP_filter]
    split
    · rename_i severe
      apply List.countP_eq_zero.mpr
      intro finding _ both
      rw [Bool.and_eq_true, decide_eq_true_eq, decide_eq_true_eq] at both
      exact both.2 (both.1 ▸ severe)
    · rename_i mild
      apply List.countP_congr
      intro finding _
      rw [Bool.and_eq_true, decide_eq_true_eq, decide_eq_true_eq]
      exact ⟨And.left, fun rated => ⟨rated, rated ▸ mild⟩⟩
  have sum : tally (state.2 ++ fixable.filter fun finding => finding.severity ∉ highCritical) severity =
      tally state.2 severity + if severity ∈ highCritical then 0 else tally fixable severity := by
    rw [← others]
    exact List.countP_append
  dsimp only
  rw [sum, counted]
  split
  · rfl
  · rfl

theorem addImages_ok {findings : List Finding} {images : List Value} {state final : Counts × List Finding}
    (ok : images.foldlM (addImage findings) state = .ok final) :
    final.2 = state.2 ++ images.flatMap (fun image => (imageOccurrences image).filter fun finding => finding.severity ∉ highCritical) ∧
      (images.flatMap fun image => (imageOccurrences image).filter fun finding => finding.severity ∈ highCritical).Perm
        ((images.map labelOf).flatMap fun label => findings.filter fun finding => finding.image = label) := by
  induction images generalizing state with
  | nil =>
    cases ok
    exact ⟨(List.append_nil _).symm, .refl _⟩
  | cons image rest ih =>
    obtain ⟨next, stepped, goes⟩ := foldlM_cons_ok ok
    obtain ⟨fixable, audited, whole⟩ := bind_ok stepped
    cases whole
    obtain ⟨rfl, perm⟩ := auditImage_ok audited
    obtain ⟨added, others⟩ := ih goes
    constructor
    · rw [added, List.append_assoc]
      rfl
    · rw [List.flatMap_cons, List.map_cons, List.flatMap_cons]
      exact perm.append others

theorem nonnegativeInt_ok {value : Value} {field : String} {count : ℕ} (ok : nonnegativeInt value field = .ok count) :
    value = .integer count := by
  unfold nonnegativeInt at ok
  split at ok
  · split at ok
    · cases ok
    · rename_i positive
      cases ok
      rw [Int.toNat_of_nonneg (not_lt.mp positive)]
  · cases ok

theorem declares_ok {value : Value} {field : String} {count : ℕ} {mismatch : ℕ → String}
    (ok : declares value field count mismatch = .ok ()) : value = .integer count := by
  obtain ⟨declared, read, rest⟩ := bind_ok ok
  split at rest
  · rename_i same
    rw [← same]
    exact nonnegativeInt_ok read
  · cases rest

end Audit

section Accepted
variable {Key : Type} {sha256 : Value → Key} {hexdigest : Key → String} {report : Value} {scope : String} {deadMan : Bool}
variable {counts : Counts} {findings : List Finding}

/-- Where occurrences are mandatory, the findings of an accepted report are its fixable occurrences in
canonical order. Its counts are theirs, and so are the counts it declares. -/
theorem validateReport_ok (mandatory : scope ∉ occurrenceOptionalScopes)
    (accepted : validateReport sha256 hexdigest report scope deadMan = .ok (counts, findings)) :
    (∃ occurrences : List Finding, findings = stableSort Finding.order occurrences ∧
      occurrences.Perm (fixableOccurrences report)) ∧
    counts = tally (fixableOccurrences report) ∧
    ∀ severity ≠ .unknown, (report.get "fix_available").get severity.name = .integer (counts severity) := by
  obtain ⟨_, _, rest⟩ := bind_ok accepted
  dsimp only at rest
  split at rest
  · cases rest
  obtain ⟨critical, readCritical, rest⟩ := bind_ok rest
  obtain ⟨high, readHigh, rest⟩ := bind_ok rest
  split at rest
  · cases rest
  rename_i images held
  obtain ⟨gathered, listedOnes, rest⟩ := bind_ok rest
  obtain ⟨labels, first⟩ := gathered
  dsimp only at rest
  split at rest
  · cases rest
  rename_i agree
  obtain ⟨sameCritical, sameHigh⟩ := not_or.mp agree
  obtain ⟨audited, auditedOk, whole⟩ := bind_ok rest
  obtain ⟨allCounts, allFindings⟩ := audited
  cases whole
  unfold auditImages at auditedOk
  rw [if_pos (Or.inr mandatory)] at auditedOk
  obtain ⟨added, passes, rest⟩ := bind_ok auditedOk
  obtain ⟨_, declaredMedium, rest⟩ := bind_ok rest
  obtain ⟨_, declaredLow, whole⟩ := bind_ok rest
  cases whole
  -- The first pass: the images are distinct, and own its findings.
  have none : Gathered ([], []) := ⟨List.nodup_nil, (fun _ member => nomatch member), (fun _ member => nomatch member)⟩
  obtain ⟨⟨distinct, owned, severe⟩, labelled⟩ := listImages_keeps none listedOnes
  dsimp only at distinct owned severe labelled
  rw [List.nil_append] at labelled
  subst labelled
  have mild : ∀ severity ∉ highCritical, tally first severity = 0 := by
    intro severity mild
    apply List.countP_eq_zero.mpr
    intro finding member rated
    exact mild (of_decide_eq_true rated ▸ severe finding member)
  -- The second pass: the findings of each image are its critical and high occurrences, and the rest follow.
  obtain ⟨whole, repeated⟩ := addImages_ok passes
  have perm : allFindings.Perm (fixableOccurrences report) := by
    dsimp only at whole
    rw [whole]
    unfold fixableOccurrences
    rw [held, Option.getD_some]
    refine ((findings_by_label distinct owned).trans repeated.symm).append_right _ |>.trans ?_
    refine (List.flatMap_append_perm images _ _).trans (List.Perm.flatMap_left images fun image _ => ?_)
    simpa only [decide_not] using List.filter_append_perm (fun finding : Finding => decide (finding.severity ∈ highCritical))
      (imageOccurrences image)
  have counted : allCounts = tally allFindings := by
    apply foldlM_keeps (fun state : Counts × List Finding => state.1 = tally state.2) ?_ ?_ passes
    · exact fun image _ state next kept moved => addImage_keeps kept moved
    · funext severity
      cases severity with
      | critical => exact (not_not.mp sameCritical).symm
      | high => exact (not_not.mp sameHigh).symm
      | medium => exact (mild .medium (by decide)).symm
      | low => exact (mild .low (by decide)).symm
      | unknown => exact (mild .unknown (by decide)).symm
  have kept : allCounts .critical = critical ∧ allCounts .high = high := by
    apply foldlM_keeps (fun state : Counts × List Finding => state.1 .critical = critical ∧ state.1 .high = high) ?_ ?_ passes
    · intro image _ state next kept moved
      obtain ⟨fixable, _, whole⟩ := bind_ok moved
      cases whole
      exact kept
    · exact ⟨rfl, rfl⟩
  refine ⟨⟨allFindings, rfl, perm⟩, ?_, ?_⟩
  · rw [counted]
    funext severity
    exact perm.countP_eq _
  · intro severity rated
    dsimp only
    cases severity with
    | critical =>
      rw [kept.1]
      exact nonnegativeInt_ok readCritical
    | high =>
      rw [kept.2]
      exact nonnegativeInt_ok readHigh
    | medium => exact declares_ok declaredMedium
    | low => exact declares_ok declaredLow
    | unknown => exact absurd rfl rated

end Accepted

section Keys

theorem get_entries (named : List (String × Value)) (key : String) :
    (Json.entries named).get key = ((named.find? fun entry => entry.1 = key).map Prod.snd).getD .null := by
  unfold Json.get
  rw [Json.get?_entries]

theorem countsJson_injective : Function.Injective countsJson := by
  intro first second same
  funext severity
  have field : ∀ counts : Counts, (countsJson counts).get severity.name = .integer (counts severity) := by
    intro counts
    unfold countsJson
    rw [get_entries]
    cases severity <;> rfl
  have equal := congrArg (fun value : Value => value.get severity.name) same
  rw [field first, field second] at equal
  exact Int.ofNat.inj (Json.integer.inj equal)

theorem Finding.json_injective : Function.Injective Finding.json := by
  intro first second same
  have field : ∀ key, (Finding.json first).get key = (Finding.json second).get key := fun key => by rw [same]
  unfold Finding.json at field
  simp only [get_entries] at field
  apply Finding.fields_injective
  unfold Finding.fields
  rw [Json.text.inj (field "image"), Json.text.inj (field "vulnerability_id"), Json.text.inj (field "severity"),
    Json.text.inj (field "package"), Json.text.inj (field "installed_version"), Json.text.inj (field "fixed_version"),
    Json.text.inj (field "target")]

theorem listOf_injective : Function.Injective listOf := by
  intro first second same
  obtain ⟨size, items⟩ := Json.array.inj same
  have back : ∀ values : List Value, List.ofFn values.get = values := List.ofFn_get
  rw [← back first, ← back second]
  exact congrArg (fun value : Value => (items? value).getD []) same

theorem keyPayload_injective {counts otherCounts : Counts} {findings otherFindings : List Finding}
    (same : keyPayload counts findings = keyPayload otherCounts otherFindings) : counts = otherCounts ∧ findings = otherFindings := by
  have field : ∀ key, (keyPayload counts findings).get key = (keyPayload otherCounts otherFindings).get key := fun key => by rw [same]
  unfold keyPayload at field
  simp only [get_entries] at field
  have sameCounts : countsJson counts = countsJson otherCounts := field "fix_available"
  have sameFindings : listOf (findings.map Finding.json) = listOf (otherFindings.map Finding.json) := field "findings"
  exact ⟨countsJson_injective sameCounts, Finding.json_injective.list_map (listOf_injective sameFindings)⟩

end Keys

section Canonical
variable {Key : Type} (sha256 : Value → Key) (hexdigest : Key → String)

/-- A report that `validate_report` accepts in a scope with occurrences, and its trigger. -/
structure Accepted (report : Value) where
  scope : String
  deadMan : Bool
  counts : Counts
  findings : List Finding
  runUrl : String
  artifactName : String
  dryRun : Bool
  trigger : Trigger Key
  mandatory : scope ∉ occurrenceOptionalScopes
  validated : validateReport sha256 hexdigest report scope deadMan = .ok (counts, findings)
  built : buildTrigger sha256 report counts findings runUrl artifactName dryRun = .ok trigger

variable {sha256 hexdigest}

theorem Accepted.key {report : Value} (accepted : Accepted sha256 hexdigest report) :
    accepted.trigger.remediationKey = sha256 (keyPayload accepted.counts accepted.findings) ∧
      accepted.trigger.findings = accepted.findings ∧ accepted.trigger.fixAvailable = accepted.counts := by
  have built := accepted.built
  unfold buildTrigger at built
  dsimp only at built
  split_ifs at built
  rw [← Except.ok.inj built]
  exact ⟨rfl, rfl, rfl⟩

/-- The counts of an accepted report are those of its fixable occurrences, which are the findings of its
trigger; two keys are equal where the multisets of occurrences are. -/
theorem remediation_key_canonical (injective : Function.Injective sha256) {report other : Value}
    (accepted : Accepted sha256 hexdigest report) (acceptedOther : Accepted sha256 hexdigest other) :
    (accepted.trigger.remediationKey = acceptedOther.trigger.remediationKey ↔
      (fixableOccurrences report).Perm (fixableOccurrences other)) ∧
    accepted.trigger.findings.Perm (fixableOccurrences report) ∧
    accepted.trigger.fixAvailable = tally (fixableOccurrences report) ∧
    ∀ severity ≠ .unknown, (report.get "fix_available").get severity.name = .integer (tally (fixableOccurrences report) severity) := by
  obtain ⟨key, findings, counts⟩ := accepted.key
  obtain ⟨keyOther, _, _⟩ := acceptedOther.key
  obtain ⟨⟨occurrences, sorted, perm⟩, counted, declared⟩ := validateReport_ok accepted.mandatory accepted.validated
  obtain ⟨⟨others, sortedOthers, permOthers⟩, countedOthers, _⟩ := validateReport_ok acceptedOther.mandatory acceptedOther.validated
  refine ⟨?_, ?_, ?_, ?_⟩
  · rw [key, keyOther]
    constructor
    · intro same
      obtain ⟨_, sameFindings⟩ := keyPayload_injective (injective same)
      rw [sorted, sortedOthers, stableSort_eq_iff_perm Finding.order_injective] at sameFindings
      exact perm.symm.trans (sameFindings.trans permOthers)
    · intro same
      have sameCounts : accepted.counts = acceptedOther.counts := by
        rw [counted, countedOthers]
        funext severity
        exact same.countP_eq _
      have sameFindings : accepted.findings = acceptedOther.findings := by
        rw [sorted, sortedOthers, stableSort_eq_iff_perm Finding.order_injective]
        exact perm.trans (same.trans permOthers.symm)
      rw [sameCounts, sameFindings]
  · rw [findings, sorted]
    exact (stableSort_perm Finding.order occurrences).trans perm
  · rw [counts, counted]
  · intro severity rated
    rw [declared severity rated, counted]

section Reordered

private def zeros (_ : Value) : String := "0000000000000000000000000000000000000000000000000000000000000000"

private def sampleOccurrence (severity : Severity) (target : String) : Value :=
  .entries [("vulnerability_id", .text "CVE-1"), ("severity", .text severity.name), ("package", .text "zlib"),
    ("installed_version", .text "1"), ("fixed_version", .text " 2 "), ("target", .text target)]

private def sampleReport (occurrences : List Value) : Value :=
  .entries [("report_sha256", .text (zeros .null)), ("schema", .text reportSchema), ("scope", .text productionScope),
    ("scan_status", .text "complete"), ("errors", listOf []), ("dead_man_configured", .bool true),
    ("generated_at", .text "now"), ("source_revision", .text "main"),
    ("fix_available", countsJson fun severity => if severity ∈ [.high, .low] then 1 else 0),
    ("images", listOf [.entries [("label", .text "api"), ("fixable_high_critical", listOf [sampleOccurrence .high "api"]),
      ("occurrences", listOf occurrences), ("unknown", .integer 0), ("unknown_fix_available", .integer 0),
      ("fix_available", countsJson fun severity => if severity ∈ [.high, .low] then 1 else 0)]])]

private def passes (report : Value) : Bool :=
  match validateReport id zeros report productionScope true with
  | .error _ => false
  | .ok (counts, findings) => (buildTrigger id report counts findings "https://github.com/" "report" false).toOption.isSome

private theorem accepted_of_passes {report : Value} (passed : passes report = true) : Nonempty (Accepted id zeros report) := by
  unfold passes at passed
  split at passed
  · cases passed
  · rename_i counts findings validated
    cases built : buildTrigger id report counts findings "https://github.com/" "report" false with
    | error error =>
      rw [built] at passed
      cases passed
    | ok trigger => exact ⟨⟨productionScope, true, counts, findings, _, _, _, trigger, by decide, validated, built⟩⟩

theorem remediation_key_canonical_reordered :
    ∃ (accepted : Accepted id zeros (sampleReport [sampleOccurrence .high "api", sampleOccurrence .low "api"]))
      (other : Accepted id zeros (sampleReport [sampleOccurrence .low "api", sampleOccurrence .high "api"])),
      accepted.trigger.remediationKey = other.trigger.remediationKey := by
  obtain ⟨accepted⟩ := accepted_of_passes
    (show passes (sampleReport [sampleOccurrence .high "api", sampleOccurrence .low "api"]) = true by decide +kernel)
  obtain ⟨other⟩ := accepted_of_passes
    (show passes (sampleReport [sampleOccurrence .low "api", sampleOccurrence .high "api"]) = true by decide +kernel)
  refine ⟨accepted, other, (remediation_key_canonical Function.injective_id accepted other).1.mpr ?_⟩
  decide +kernel

end Reordered
end Canonical

end C3po.Remediation
