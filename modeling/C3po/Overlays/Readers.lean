import C3po.Overlays.Quarters

/-! The two readers of the open data: where they carry the flow of each quarter, where they agree,
and which document they take.
-/

set_option autoImplicit false

namespace C3po.Overlays

open Library Library.Calendar

/-- What the archives hold adds up to a fixed flow of each issuer, and no document is in two
packages. -/
structure Filings (flow : String → IssuerFlow) (archive : ItrArchive) (packages : List CvmPackage) (taxIds : List String) : Prop where
  archived : ∀ row ∈ archive.dre, ∀ field, dreAccounts row.code = some field → ∀ value, scaledValue row = some value →
    ∃ finish, row.finish = some finish ∧ Sums ((flow row.taxId).row field) row.start finish value
  packaged : ∀ package ∈ packages, ∀ entry ∈ filings package taxIds, entry.1.group.flow → ∀ field value, entry.2.values field = some value →
    Sums ((flow entry.1.taxId).row field) entry.1.start entry.1.finish value
  once : packages.Pairwise fun first second => ∀ entry ∈ filings first taxIds, ∀ other ∈ filings second taxIds,
    entry.1.taxId = other.1.taxId → ¬(entry.2.document.referenceDate = other.2.document.referenceDate ∧
      entry.2.document.version = other.2.document.version)

section Itr
variable {flow : String → IssuerFlow} {archive : ItrArchive} {packages : List CvmPackage} {taxIds issuers : List String} {taxId : String}

/-- What the ITR reader takes of the income statement. -/
def itrAmounts (archive : ItrArchive) (issuers : List String) (taxId : String) : Day → Amounts :=
  amountsAt (readStatement issuers dreReading archive.dre) taxId

def itrPeriods (archive : ItrArchive) (issuers : List String) (taxId : String) : List Day :=
  periodsOf (readStatement issuers dreReading archive.dre) taxId

theorem itrAmounts_cumulative (filed : Filings flow archive packages taxIds) :
    Cumulative (flow taxId) (itrAmounts archive issuers taxId) := by
  intro period field value held
  obtain ⟨entry, found, rfl⟩ := Option.map_eq_some_iff.mp held
  obtain ⟨row, member, taken⟩ := readStatement_said found
  unfold Reading.take at taken
  split at taken
  · cases taken
  split at taken
  · cases taken
  split at taken
  · cases taken
  rename_i reads
  obtain ⟨account, coded, said⟩ := Option.bind_eq_some_iff.mp taken
  obtain ⟨amount, scaled, same⟩ := Option.bind_eq_some_iff.mp said
  cases same
  obtain ⟨finish, ends, sums⟩ := filed.archived row member field coded amount scaled
  have period : dreReading.period row = finish := by
    unfold Reading.period
    rw [ends]
    rfl
  rw [period] at reads ⊢
  have starts : row.start = some (yearStart finish) := by
    have both : isYearToDateRow row.start finish = true := by
      by_contra never
      exact reads ⟨rfl, never⟩
    unfold isYearToDateRow at both
    rw [Bool.and_eq_true, decide_eq_true_eq] at both
    exact both.1
  rw [starts] at sums
  exact ⟨sums.1, sums.cumulative⟩

theorem mem_extractItr {issuers : List (Issuer × Option ℤ)} {sourceUrl : String} {now : ℤ} {payload : ItrPayload}
    (member : payload ∈ extractItrOfficialFundamentals archive issuers sourceUrl now) :
    ∃ issuer ∈ issuers, issuer.1.symbols ≠ [] ∧ payload.taxId = issuer.1.taxId ∧
      payload.quarterlyIncome = quarterizeIncome (itrAmounts archive (issuers.map fun issuer => issuer.1.taxId) payload.taxId)
        (itrPeriods archive (issuers.map fun issuer => issuer.1.taxId) payload.taxId) := by
  obtain ⟨issuer, listed, among⟩ := List.mem_flatMap.mp member
  unfold itrPayloads at among
  dsimp only at among
  split at among
  · cases among
  · obtain ⟨symbol, named, rfl⟩ := List.mem_map.mp among
    exact ⟨issuer, listed, List.ne_nil_of_mem named, rfl, rfl⟩

theorem exists_extractItr {issuers : List (Issuer × Option ℤ)} {sourceUrl : String} {now : ℤ} {issuer : Issuer × Option ℤ}
    (listed : issuer ∈ issuers) (named : issuer.1.symbols ≠ [])
    (cumulatives : itrPeriods archive (issuers.map fun issuer => issuer.1.taxId) issuer.1.taxId ≠ []) :
    ∃ payload ∈ extractItrOfficialFundamentals archive issuers sourceUrl now, payload.taxId = issuer.1.taxId := by
  obtain ⟨symbol, first⟩ := List.exists_mem_of_ne_nil _ named
  have own : ∃ payload ∈ itrPayloads archive (issuers.map fun issuer => issuer.1.taxId) sourceUrl now issuer.1 issuer.2,
      payload.taxId = issuer.1.taxId := by
    unfold itrPayloads
    dsimp only
    split
    · rename_i nothing
      rw [List.max?_eq_none_iff, List.append_eq_nil_iff, List.append_eq_nil_iff, List.append_eq_nil_iff] at nothing
      exact absurd nothing.1.1.1 cumulatives
    · exact ⟨_, List.mem_map_of_mem first, rfl⟩
  obtain ⟨payload, member, same⟩ := own
  exact ⟨payload, List.mem_flatMap.mpr ⟨issuer, listed, member⟩, same⟩

end Itr

section Complete
variable {flow : String → IssuerFlow} {archive : ItrArchive} {packages : List CvmPackage} {taxIds : List String}

theorem gatherCandidates_eq (scans : List CvmPackageScan) :
    gatherCandidates scans = newest Candidate.rank (scans.flatMap fun scan => scan.candidates.entries) := by
  unfold gatherCandidates newest
  rw [List.foldl_flatMap]
  congr 1
  funext candidates scan
  congr 1
  funext candidates entry
  unfold Dict.keepNewest
  cases candidates.get? entry.1 <;> rfl

theorem filed_of_gathered {key : Key} {candidate : Candidate}
    (found : (gatherCandidates (packages.map (scanCvmPackage taxIds))).get? key = some candidate) :
    ∃ package ∈ packages, (key, candidate) ∈ filings package taxIds := by
  rw [gatherCandidates_eq, newest_get?] at found
  obtain ⟨entry, chosen, rfl⟩ := List.mem_map.mp (latest_spec found).1
  obtain ⟨among, own⟩ := List.mem_filter.mp chosen
  obtain rfl := of_decide_eq_true own
  obtain ⟨scan, scanned, inside⟩ := List.mem_flatMap.mp among
  obtain ⟨package, member, rfl⟩ := List.mem_map.mp scanned
  have kept : (newest Candidate.rank (filings package taxIds)).get? entry.1 = some entry.2 := Dict.mem_entries.mp inside
  rw [newest_get?] at kept
  obtain ⟨other, filed, same⟩ := List.mem_map.mp (latest_spec kept).1
  obtain ⟨filed, key⟩ := List.mem_filter.mp filed
  refine ⟨package, member, ?_⟩
  have equal : other = (entry.1, entry.2) := Prod.ext (of_decide_eq_true key) same
  rwa [← equal]

theorem rank_le_of_gathered {key : Key} {candidate other : Candidate} {package : CvmPackage}
    (found : (gatherCandidates (packages.map (scanCvmPackage taxIds))).get? key = some candidate) (member : package ∈ packages)
    (filed : (key, other) ∈ filings package taxIds) : other.rank ≤ candidate.rank := by
  have among : other ∈ valuesOf (filings package taxIds) key :=
    List.mem_map.mpr ⟨(key, other), List.mem_filter.mpr ⟨filed, decide_eq_true rfl⟩, rfl⟩
  cases scanned : latest Candidate.rank (valuesOf (filings package taxIds) key) with
  | none =>
    rw [latest_none.mp scanned] at among
    cases among
  | some best =>
    have inside : (key, best) ∈ (scanCvmPackage taxIds package).candidates.entries :=
      Dict.mem_entries.mpr ((newest_get? _ _).trans scanned)
    rw [gatherCandidates_eq, newest_get?] at found
    have gathered : best ∈ valuesOf ((packages.map (scanCvmPackage taxIds)).flatMap fun scan => scan.candidates.entries) key := by
      refine List.mem_map.mpr ⟨(key, best), List.mem_filter.mpr ⟨?_, decide_eq_true rfl⟩, rfl⟩
      exact List.mem_flatMap.mpr ⟨_, List.mem_map_of_mem member, inside⟩
    exact ((latest_spec scanned).2 other among).trans ((latest_spec found).2 best gathered)

theorem rank_of_filed {package : CvmPackage} {key : Key} {candidate : Candidate} (filed : (key, candidate) ∈ filings package taxIds) :
    candidate.rank = toLex (if candidate.document.referenceDate = key.finish then 1 else 0,
      toLex (candidate.document.version, candidate.document.referenceDate)) := by
  have scanned : ∀ {skip : List String} {scope : Scope} {file : StatementFile × Group × List Concept},
      (key, candidate) ∈ scanStatement package taxIds skip scope file → candidate.rank =
        toLex (if candidate.document.referenceDate = key.finish then 1 else 0,
          toLex (candidate.document.version, candidate.document.referenceDate)) := by
    intro skip scope file member
    obtain ⟨hit, _, made⟩ := List.mem_filterMap.mp member
    dsimp only at made
    split at made
    · cases made
      rfl
    · cases made
  rcases List.mem_append.mp filed with consolidated | individual
  · obtain ⟨file, _, member⟩ := List.mem_flatMap.mp consolidated
    exact scanned member
  · obtain ⟨file, _, member⟩ := List.mem_flatMap.mp individual
    exact scanned member

/-- The document taken before another for a span: the own filing of the period, then the highest
version. -/
def Preferred (key : Key) (candidate other : Candidate) : Prop :=
  (other.document.referenceDate = key.finish → candidate.document.referenceDate = key.finish) ∧
    ((candidate.document.referenceDate = key.finish ↔ other.document.referenceDate = key.finish) →
      other.document.version ≤ candidate.document.version)

theorem preferred_of_gathered {key : Key} {candidate other : Candidate} {package : CvmPackage}
    (found : (gatherCandidates (packages.map (scanCvmPackage taxIds))).get? key = some candidate) (member : package ∈ packages)
    (filed : (key, other) ∈ filings package taxIds) : Preferred key candidate other := by
  have below := rank_le_of_gathered found member filed
  obtain ⟨source, _, own⟩ := filed_of_gathered found
  rw [rank_of_filed own, rank_of_filed filed, Prod.Lex.toLex_le_toLex] at below
  unfold Preferred
  by_cases first : candidate.document.referenceDate = key.finish <;> by_cases second : other.document.referenceDate = key.finish
  · simp only [first, second, if_true, lt_irrefl, false_or, true_and] at below
    rw [Prod.Lex.toLex_le_toLex] at below
    exact ⟨fun _ => first, fun _ => below.elim le_of_lt fun same => same.1.le⟩
  · exact ⟨fun _ => first, fun same => absurd (same.mp first) second⟩
  · rw [if_neg first, if_pos second] at below
    rcases below with impossible | ⟨impossible, _⟩
    · exact absurd impossible (Nat.not_lt_zero _)
    · exact absurd impossible Nat.one_ne_zero
  · simp only [first, second, if_false, lt_irrefl, false_or, true_and] at below
    rw [Prod.Lex.toLex_le_toLex] at below
    exact ⟨fun own => absurd own second, fun _ => below.elim le_of_lt fun same => same.1.le⟩

theorem gatherCandidates_perm (filed : Filings flow archive packages taxIds) {others : List CvmPackage} (same : packages.Perm others) (key : Key) :
    (gatherCandidates (others.map (scanCvmPackage taxIds))).get? key = (gatherCandidates (packages.map (scanCvmPackage taxIds))).get? key := by
  rw [gatherCandidates_eq, gatherCandidates_eq]
  symm
  refine newest_perm ((same.map _).flatMap_right _) ?_ key
  unfold Untied
  rw [List.pairwise_flatMap]
  constructor
  · intro scan _
    have distinct := List.pairwise_map.mp scan.candidates.distinct
    exact distinct.imp fun apart equal => absurd equal apart
  · rw [List.pairwise_map]
    refine filed.once.imp fun {first second} apart entry inside other within equal tied => ?_
    have filedIn : ∀ {package : CvmPackage} {item : Key × Candidate}, item ∈ (scanCvmPackage taxIds package).candidates.entries →
        item ∈ filings package taxIds := by
      intro package item held
      have kept : (newest Candidate.rank (filings package taxIds)).get? item.1 = some item.2 := Dict.mem_entries.mp held
      rw [newest_get?] at kept
      obtain ⟨own, among, value⟩ := List.mem_map.mp (latest_spec kept).1
      obtain ⟨among, key⟩ := List.mem_filter.mp among
      have equal : own = item := Prod.ext (of_decide_eq_true key) value
      rwa [← equal]
    have one := filedIn inside
    have two := filedIn within
    rw [rank_of_filed (show (entry.1, entry.2) ∈ _ from one), rank_of_filed (show (other.1, other.2) ∈ _ from two)] at tied
    have parts := congrArg (fun rank => (ofLex (ofLex rank).2)) tied
    exact apart entry one other two (congrArg Key.taxId equal) ⟨congrArg Prod.snd parts, congrArg Prod.fst parts⟩

end Complete
section Served
variable {flow : String → IssuerFlow} {archive : ItrArchive} {packages : List CvmPackage} {taxIds : List String}

/-- The spans the complete reader has of an issuer, consolidated if any is. -/
def issuerSpans (scans : List CvmPackageScan) (taxId : String) : Group → List Span :=
  let entries := (gatherCandidates scans).entries.filter fun entry => entry.1.taxId = taxId
  spansOf (gatherDocuments scans) entries taxId (if entries.any fun entry => entry.1.scope = .con then .con else .ind)

theorem issuerSpans_summed (filed : Filings flow archive packages taxIds) (taxId : String) {group : Group} (flows : group.flow) :
    Summed (flow taxId) (issuerSpans (packages.map (scanCvmPackage taxIds)) taxId group) := by
  intro span member field figure held
  obtain ⟨entry, among, rfl⟩ := List.mem_map.mp member
  obtain ⟨own, chosen⟩ := List.mem_filter.mp among
  rw [Bool.and_eq_true, decide_eq_true_eq, decide_eq_true_eq] at chosen
  obtain ⟨gathered, same⟩ := List.mem_filter.mp own
  obtain rfl := of_decide_eq_true same
  obtain ⟨package, inside, said⟩ := filed_of_gathered (Dict.mem_entries.mp (show (entry.1, entry.2) ∈ _ from gathered))
  obtain ⟨value, read, rfl⟩ := Option.map_eq_some_iff.mp held
  exact filed.packaged package inside _ said (chosen.2 ▸ flows) field value read

theorem extract_carries (filed : Filings flow archive packages taxIds) {issuers : List Issuer} :
    ∀ payload ∈ extractCvmOfficialStatements (packages.map (scanCvmPackage taxIds)) issuers,
      (∀ row ∈ payload.quarterlyIncome, ∀ field figure, row.values field = some figure →
        figure.value = (flow payload.metrics.taxId).row (standsFor (fun field =>
          (quarterlyFlow (issuerSpans (packages.map (scanCvmPackage taxIds)) payload.metrics.taxId .income) row.date field).isSome) field)
            row.date) ∧
      ∀ row ∈ payload.quarterlyCashFlow, Carries (flow payload.metrics.taxId) row.values row.date := by
  intro payload member
  obtain ⟨issuer, _, among⟩ := List.mem_flatMap.mp member
  dsimp only at among
  split at among
  · cases among
  unfold issuerPayloads at among
  dsimp only at among
  split at among
  · cases among
  obtain ⟨symbol, _, rfl⟩ := List.mem_map.mp among
  have summed := fun {group : Group} (flows : group.flow) => issuerSpans_summed filed issuer.taxId flows
  constructor
  · intro row held field figure found
    obtain ⟨quarter, inside, rfl⟩ := List.mem_map.mp (mem_recent held)
    obtain ⟨ended, _, values⟩ := mem_quarterlyFlows inside
    have own : Carries (flow issuer.taxId) quarter.2 quarter.1 := by
      rw [values]
      exact quarterlyFlow_carries (@summed .income rfl) ended
    have theirs : Carries (flow issuer.taxId) ((((quarterlyFlows (issuerSpans (packages.map (scanCvmPackage taxIds)) issuer.taxId .valueAdded)).find?
        fun other => other.1 = quarter.1).map Prod.snd).getD Record.empty) quarter.1 := by
      cases added : (quarterlyFlows (issuerSpans (packages.map (scanCvmPackage taxIds)) issuer.taxId .valueAdded)).find?
          fun other => other.1 = quarter.1 with
      | none => exact fun _ _ never => nomatch never
      | some other =>
        have same : other.1 = quarter.1 := by simpa using List.find?_some added
        obtain ⟨endedToo, _, read⟩ := mem_quarterlyFlows (List.mem_of_find?_eq_some added)
        show Carries _ other.2 quarter.1
        rw [read, ← same]
        exact quarterlyFlow_carries (@summed .valueAdded rfl) endedToo
    have carried := incomeRow_carries own theirs found
    rw [values] at carried
    exact carried
  · intro row held
    obtain ⟨quarter, inside, made⟩ := List.mem_filterMap.mp (mem_recent held)
    obtain ⟨ended, _, values⟩ := mem_quarterlyFlows inside
    have own : Carries (flow issuer.taxId) quarter.2 quarter.1 := by
      rw [values]
      exact quarterlyFlow_carries (@summed .cashFlow rfl) ended
    obtain ⟨date, carried⟩ := cashFlowRow_carries own made
    rw [date]
    exact carried

end Served

/-- What the two readers are given. -/
structure Sources where
  archive : ItrArchive
  itrIssuers : List (Issuer × Option ℤ)
  sourceUrl : String
  now : ℤ
  packages : List CvmPackage
  taxIds : List String
  issuers : List Issuer

section Both
variable (flow : String → IssuerFlow) (sources : Sources)

def Sources.itr : List ItrPayload := extractItrOfficialFundamentals sources.archive sources.itrIssuers sources.sourceUrl sources.now

def Sources.scans : List CvmPackageScan := sources.packages.map (scanCvmPackage sources.taxIds)

def Sources.complete : List Payload := extractCvmOfficialStatements sources.scans sources.issuers

/-- The cumulatives the ITR archive holds of an issuer. -/
def Sources.cumulatives (taxId : String) : Day → Amounts :=
  itrAmounts sources.archive (sources.itrIssuers.map fun issuer => issuer.1.taxId) taxId

def Sources.itrFinds (taxId : String) (period : Day) (field : Field) : Bool := (sources.cumulatives taxId period field).isSome

def Sources.completeFinds (taxId : String) (period : Day) (field : Field) : Bool :=
  (quarterlyFlow (issuerSpans sources.scans taxId .income) period field).isSome

/-- A quarter both readers have of an issuer. -/
def Sources.Both (taxId : String) (mine : Day × Amounts) (theirs : Row) : Prop :=
  (∃ payload ∈ sources.itr, payload.taxId = taxId ∧ mine ∈ payload.quarterlyIncome) ∧
    (∃ payload ∈ sources.complete, payload.metrics.taxId = taxId ∧ theirs ∈ payload.quarterlyIncome) ∧ theirs.date = mine.1

/-- Every quarter carries its own flow, on both readers, from the documents that come first. -/
structure OwnFlows : Prop where
  itr : ∀ payload ∈ sources.itr, ∀ row ∈ payload.quarterlyIncome, ∀ field value, row.2 field = some value →
    value = (flow payload.taxId).row (standsFor (sources.itrFinds payload.taxId row.1) field) row.1
  complete : ∀ payload ∈ sources.complete, (∀ row ∈ payload.quarterlyIncome, ∀ field figure, row.values field = some figure →
      figure.value = (flow payload.metrics.taxId).row (standsFor (sources.completeFinds payload.metrics.taxId row.date) field) row.date) ∧
    ∀ row ∈ payload.quarterlyCashFlow, Carries (flow payload.metrics.taxId) row.values row.date
  agree : ∀ taxId mine theirs, sources.Both taxId mine theirs → ∀ field value figure, mine.2 field = some value →
    theirs.values field = some figure → value = figure.value
  preferred : ∀ key candidate, (gatherCandidates sources.scans).get? key = some candidate →
    ∀ package ∈ sources.packages, ∀ other, (key, other) ∈ filings package sources.taxIds → Preferred key candidate other
  order : ∀ others, sources.packages.Perm others → ∀ key,
    (gatherCandidates (others.map (scanCvmPackage sources.taxIds))).get? key = (gatherCandidates sources.scans).get? key

/-- A net income only one of the readers finds is the consolidated one. -/
def SameNetIncome : Prop := ∀ taxId mine theirs, sources.Both taxId mine theirs →
  (mine.2 .netIncome).isSome → (theirs.values .netIncome).isSome →
    sources.itrFinds taxId mine.1 .netIncome ≠ sources.completeFinds taxId mine.1 .netIncome →
      (flow taxId).row .netIncome mine.1 = (flow taxId).row .consolidatedNetIncome mine.1

end Both

section Agreement
variable {flow : String → IssuerFlow} {sources : Sources}

theorem standsFor_other {finds : Field → Bool} {field : Field} (other : field ≠ .netIncome) : standsFor finds field = field :=
  if_neg fun both => other both.1

theorem standsFor_netIncome (finds : Field → Bool) :
    standsFor finds .netIncome = if finds .netIncome then .netIncome else .consolidatedNetIncome := by
  unfold standsFor
  cases finds .netIncome <;> rfl

theorem itr_carries_iff (filed : Filings flow sources.archive sources.packages sources.taxIds) :
    (∀ payload ∈ sources.itr, ∀ row ∈ payload.quarterlyIncome, ∀ field value, row.2 field = some value →
      value = (flow payload.taxId).row (standsFor (sources.itrFinds payload.taxId row.1) field) row.1) ↔
    ∀ issuer ∈ sources.itrIssuers, issuer.1.symbols ≠ [] → NothingSkipped (flow issuer.1.taxId) (sources.cumulatives issuer.1.taxId)
      (itrPeriods sources.archive (sources.itrIssuers.map fun issuer => issuer.1.taxId) issuer.1.taxId) := by
  have exactly : ∀ taxId, (∀ row ∈ quarterizeIncome (sources.cumulatives taxId)
      (itrPeriods sources.archive (sources.itrIssuers.map fun issuer => issuer.1.taxId) taxId), ∀ field value, row.2 field = some value →
        value = (flow taxId).row (standsFor (sources.itrFinds taxId row.1) field) row.1) ↔
      NothingSkipped (flow taxId) (sources.cumulatives taxId)
        (itrPeriods sources.archive (sources.itrIssuers.map fun issuer => issuer.1.taxId) taxId) :=
    fun taxId => quarterizeIncome_carries_iff (itrAmounts_cumulative filed) (periodsOf_ascending _ taxId)
  constructor
  · intro carries issuer listed named
    by_cases empty : itrPeriods sources.archive (sources.itrIssuers.map fun issuer => issuer.1.taxId) issuer.1.taxId = []
    · rw [empty]
      intro front period rest split
      cases front <;> cases split
    · obtain ⟨payload, member, same⟩ := @exists_extractItr sources.archive sources.itrIssuers sources.sourceUrl sources.now issuer listed named empty
      rw [← same]
      refine (exactly payload.taxId).mp ?_
      have own := carries payload member
      obtain ⟨_, _, _, _, rows⟩ := mem_extractItr member
      rw [rows] at own
      exact own
  · intro nothing payload member
    obtain ⟨issuer, listed, named, same, rows⟩ := mem_extractItr member
    rw [rows]
    refine (exactly payload.taxId).mpr ?_
    rw [same]
    exact nothing issuer listed named

/-- The readers carry every quarter's own flow exactly if the ITR reader skips nothing and a net
income only one of them finds is the consolidated one. -/
theorem own_flows_iff (flow : String → IssuerFlow) (sources : Sources) (filed : Filings flow sources.archive sources.packages sources.taxIds) :
    OwnFlows flow sources ↔
      (∀ issuer ∈ sources.itrIssuers, issuer.1.symbols ≠ [] → NothingSkipped (flow issuer.1.taxId) (sources.cumulatives issuer.1.taxId)
        (itrPeriods sources.archive (sources.itrIssuers.map fun issuer => issuer.1.taxId) issuer.1.taxId)) ∧
      SameNetIncome flow sources := by
  have complete := @extract_carries flow sources.archive sources.packages sources.taxIds filed sources.issuers
  constructor
  · intro own
    refine ⟨(itr_carries_iff filed).mp own.itr, fun taxId mine theirs both mineNet theirNet apart => ?_⟩
    obtain ⟨value, here⟩ := Option.isSome_iff_exists.mp mineNet
    obtain ⟨figure, there⟩ := Option.isSome_iff_exists.mp theirNet
    have agreed := own.agree taxId mine theirs both .netIncome value figure here there
    obtain ⟨⟨first, listed, rfl, row⟩, ⟨second, among, same, other⟩, dated⟩ := both
    have left := own.itr first listed mine row .netIncome value here
    have right : figure.value = (flow first.taxId).row (standsFor (sources.completeFinds first.taxId mine.1) .netIncome) mine.1 := by
      rw [← dated, ← same]
      exact (own.complete second among).1 theirs other .netIncome figure there
    rw [agreed, right, standsFor_netIncome, standsFor_netIncome] at left
    cases mineFinds : sources.itrFinds first.taxId mine.1 .netIncome <;>
      cases theirFinds : sources.completeFinds first.taxId mine.1 .netIncome <;> rw [mineFinds, theirFinds] at left apart
    · exact absurd rfl apart
    · exact left
    · exact left.symm
    · exact absurd rfl apart
  · rintro ⟨nothing, sameNet⟩
    have itr := (itr_carries_iff filed).mpr nothing
    refine ⟨itr, complete, ?_, fun _ _ found package member other said => preferred_of_gathered found member said,
      fun others same key => gatherCandidates_perm filed same key⟩
    intro taxId mine theirs both field value figure here there
    have same := sameNet taxId mine theirs both
    obtain ⟨⟨first, listed, rfl, row⟩, ⟨second, among, own, other⟩, dated⟩ := both
    have left := itr first listed mine row field value here
    have right : figure.value = (flow first.taxId).row (standsFor (sources.completeFinds first.taxId mine.1) field) mine.1 := by
      rw [← dated, ← own]
      exact (complete second among).1 theirs other field figure there
    rw [left, right]
    by_cases net : field = .netIncome
    · subst net
      have equal := same (by rw [here]; rfl) (by rw [there]; rfl)
      rw [standsFor_netIncome, standsFor_netIncome]
      cases mineFinds : sources.itrFinds first.taxId mine.1 .netIncome <;>
        cases theirFinds : sources.completeFinds first.taxId mine.1 .netIncome <;> rw [mineFinds, theirFinds] at equal
      · exact (equal (by decide)).symm
      · exact equal (by decide)
    · rw [standsFor_other net, standsFor_other net]

end Agreement

section Skipping

private def march : Day := ofCivil 2025 3 31
private def june : Day := ofCivil 2025 6 30

/-- The revenue of the first two quarters. -/
private def revenue : String → IssuerFlow := fun _ field finish =>
  if field = .totalRevenue then if finish = march then 100 else if finish = june then 150 else 0 else 0

private def revenueRow (finish : Day) (number : ℚ) : FiledRow :=
  ⟨"1", finish, 1, .ultimo, some (ofCivil 2025 1 1), some finish, "3.01", "RECEITA DE VENDA", some number, .unidade, true⟩

private def filer : Issuer := ⟨"1", "", "", ["PETR4"]⟩

private def sourcesOf (rows : List FiledRow) (packages : List CvmPackage) : Sources :=
  ⟨⟨rows, [], [], []⟩, [(filer, none)], "", 0, packages, ["1"], [filer]⟩

private def packageOf (rows : List FiledRow) : CvmPackage :=
  ⟨"ITR", "", [], fun file scope => if file = .dre ∧ scope = .con then rows else [], []⟩

/-- The first quarter, in both archives. -/
private def quarterly : Sources := sourcesOf [revenueRow march 100] [packageOf [revenueRow march 100]]

/-- The first six months, without the first quarter. -/
private def halfYearly : Sources := sourcesOf [revenueRow june 250] []

private instance (flow : Day → ℚ) (start : Option Day) (finish : Day) (value : ℚ) : Decidable (Sums flow start finish value) :=
  inferInstanceAs (Decidable (_ ∧ (_ ∨ _)))

private theorem archived {finish : Day} {number : ℚ}
    (sums : Sums ((revenue "1").row .totalRevenue) (some (ofCivil 2025 1 1)) finish number) :
    ∀ row ∈ [revenueRow finish number], ∀ field, dreAccounts row.code = some field → ∀ value, scaledValue row = some value →
      ∃ finish, row.finish = some finish ∧ Sums ((revenue row.taxId).row field) row.start finish value := by
  intro row member field coded value scaled
  cases List.mem_singleton.mp member
  have account : some Field.totalRevenue = some field := coded
  have amount : some (number * 1) = some value := scaled
  rw [mul_one] at amount
  cases account
  cases amount
  exact ⟨finish, rfl, sums⟩

private theorem filings_quarterly : Filings revenue quarterly.archive quarterly.packages quarterly.taxIds where
  archived := archived (by decide +kernel)
  packaged := by
    intro package member entry said _ field value held
    cases List.mem_singleton.mp member
    have sums : ∀ entry ∈ filings (packageOf [revenueRow march 100]) ["1"], ∀ field, (entry.2.values field).all fun value =>
        decide (Sums ((revenue entry.1.taxId).row field) entry.1.start entry.1.finish value) := by decide +kernel
    have own := sums entry said field
    rw [held, Option.all_some] at own
    exact of_decide_eq_true own
  once := List.pairwise_singleton _ _

private theorem nothing_quarterly (flow : IssuerFlow) (amounts : Day → Amounts) : NothingSkipped flow amounts [march] := by
  intro front period rest split field _ account _
  cases front with
  | nil =>
    cases split
    exact skipped_first _ _ (by decide)
  | cons first later =>
    have lengths := congrArg List.length split
    simp at lengths

end Skipping

/-- A first quarter is read alike, and is its own flow. -/
theorem own_flows_quarterly : OwnFlows revenue quarterly := by
  refine (own_flows_iff revenue quarterly filings_quarterly).mpr ⟨fun issuer listed _ => ?_, fun taxId mine theirs both net _ => ?_⟩
  · cases List.mem_singleton.mp listed
    have periods : itrPeriods quarterly.archive (quarterly.itrIssuers.map fun issuer => issuer.1.taxId) "1" = [march] := by decide +kernel
    exact periods ▸ nothing_quarterly _ _
  · obtain ⟨⟨payload, member, _, row⟩, _⟩ := both
    have absent : ∀ payload ∈ quarterly.itr, ∀ row ∈ payload.quarterlyIncome, row.2 .netIncome = none := by decide +kernel
    rw [absent payload member mine row] at net
    cases net

/-- Without the first quarter, the six months are served as the second. -/
theorem six_months_served : Filings revenue halfYearly.archive halfYearly.packages halfYearly.taxIds ∧ ¬OwnFlows revenue halfYearly := by
  refine ⟨⟨archived (by decide +kernel), (fun _ member => nomatch member), .nil⟩, fun own => ?_⟩
  have served : halfYearly.itr.any fun payload => payload.quarterlyIncome.any fun row =>
      row.1 = june && row.2 .totalRevenue = some 250 := by decide +kernel
  obtain ⟨payload, member, holds⟩ := List.any_eq_true.mp served
  obtain ⟨row, among, values⟩ := List.any_eq_true.mp holds
  rw [Bool.and_eq_true, decide_eq_true_eq, decide_eq_true_eq] at values
  have quarter := own.itr payload member row among .totalRevenue 250 values.2
  rw [standsFor_other (by decide), values.1] at quarter
  have flow : (revenue payload.taxId).row .totalRevenue june = 150 := by
    show (if june = march then (100 : ℚ) else if june = june then 150 else 0) = 150
    rw [if_neg (by decide), if_pos rfl]
  rw [flow] at quarter
  exact absurd quarter (by decide +kernel)

end C3po.Overlays
