import C3po.Overlays.Listed

/-! What the receipt guard admits was read from documents received by then, in runs that lose
track of none.
-/

set_option autoImplicit false

namespace C3po.Overlays

open Library

def Payload.Reads (payload : Payload) (figure : Figure) : Prop :=
  (∃ row ∈ payload.rows, ∃ field, row.values field = some figure) ∨ payload.sharesOutstanding = some figure

def NamedSomewhere (listed : List (Day × PeriodDocument)) (source : Item) : Prop :=
  source.receivedOn.isSome → ∃ period document, documentAt listed period = some document ∧ source ∈ document.contributing

/-- Every received version a figure was read from is listed. -/
structure Covered (payload : Payload) : Prop where
  rows : ∀ row ∈ payload.rows, RowNamed payload.periodDocuments row
  shares : ∀ figure, payload.sharesOutstanding = some figure → figure.Within (NamedSomewhere payload.periodDocuments)

/-- A stored row that stays, under a new list of documents for its period, is named by that list. -/
def RowsTracked (base incoming : List Row) (listed : List (Day × PeriodDocument)) : Prop :=
  ∀ row ∈ mergeRows base incoming, (∀ own ∈ incoming, own.date ≠ row.date) → ∀ document, documentAt listed row.date = some document →
    row.values.Within (Named document)

/-- What a save must not lose track of: the rows that stay under a new list, and the share count. -/
structure Tracked (base : Option Payload) (incoming : Payload) : Prop where
  income : ∀ before, base = some before → RowsTracked before.quarterlyIncome incoming.quarterlyIncome incoming.periodDocuments
  cashFlow : ∀ before, base = some before → RowsTracked before.quarterlyCashFlow incoming.quarterlyCashFlow incoming.periodDocuments
  balance : ∀ before, base = some before → RowsTracked before.quarterlyBalance incoming.quarterlyBalance incoming.periodDocuments
  shares : ∀ figure, (incoming.sharesOutstanding.or (base.bind Payload.sharesOutstanding)) = some figure →
    figure.Within (NamedSomewhere (mergeStatementPayloads base incoming).periodDocuments)

section Merging
variable {base incoming : Payload}

theorem mem_mergeRows {base incoming : List Row} {row : Row} (member : row ∈ mergeRows base incoming) :
    row ∈ incoming ∨ (row ∈ base ∧ ∀ own ∈ incoming, own.date ≠ row.date) := by
  have last := (mem_retain.mp member).1
  rw [lastOf_append] at last
  rcases Option.or_eq_some_iff.mp last with fresh | ⟨absent, old⟩
  · exact .inl (lastOf_some fresh).1
  · refine .inr ⟨(lastOf_some old).1, fun own member same => ?_⟩
    have carried : (lastOf Row.date incoming row.date).isSome := lastOf_isSome.mpr (same ▸ List.mem_map_of_mem member)
    rw [absent] at carried
    cases carried

theorem documentAt_merged {row : Row} (member : row ∈ (merged base incoming).rows) :
    documentAt (merged base incoming).periodDocuments row.date =
      mergeDocument base.periodDocuments incoming.periodDocuments row.date := by
  unfold merged
  dsimp only
  rw [documentAt_tabulated, if_pos]
  rw [mem_stableSort, List.mem_dedup]
  exact List.mem_map_of_mem member

theorem mergeDocument_incoming (base : List (Day × PeriodDocument)) {incoming : List (Day × PeriodDocument)} {period : Day}
    {document : PeriodDocument} (listed : documentAt incoming period = some document) :
    ∃ after, mergeDocument base incoming period = some after ∧ after.contributing = document.contributing := by
  unfold mergeDocument
  rw [listed]
  dsimp only
  split
  · exact ⟨document, rfl, rfl⟩
  · split
    · exact ⟨_, rfl, rfl⟩
    · exact ⟨document, rfl, rfl⟩

theorem mergeDocument_base {base incoming : List (Day × PeriodDocument)} {period : Day}
    (unlisted : documentAt incoming period = none) : mergeDocument base incoming period = documentAt base period := by
  unfold mergeDocument
  rw [unlisted]

theorem merged_named {old new : List Row} (stored : ∀ row ∈ old, RowNamed base.periodDocuments row)
    (fresh : ∀ row ∈ new, RowNamed incoming.periodDocuments row) (tracked : RowsTracked old new incoming.periodDocuments)
    (rows : ∀ row ∈ mergeRows old new, row ∈ (merged base incoming).rows) :
    ∀ row ∈ mergeRows old new, RowNamed (merged base incoming).periodDocuments row := by
  intro row member
  unfold RowNamed
  rw [documentAt_merged (rows row member)]
  rcases mem_mergeRows member with own | ⟨kept, apart⟩
  · obtain ⟨document, listed, within⟩ := fresh row own
    obtain ⟨after, found, same⟩ := mergeDocument_incoming base.periodDocuments listed
    exact ⟨after, found, within.mono fun source named received => same ▸ named received⟩
  · cases listed : documentAt incoming.periodDocuments row.date with
    | some document =>
      obtain ⟨after, found, same⟩ := mergeDocument_incoming base.periodDocuments listed
      exact ⟨after, found, (tracked row member apart document listed).mono fun source named received => same ▸ named received⟩
    | none =>
      rw [mergeDocument_base listed]
      exact stored row kept

theorem Covered.merged (stored : ∀ row ∈ base.rows, RowNamed base.periodDocuments row)
    (fresh : ∀ row ∈ incoming.rows, RowNamed incoming.periodDocuments row)
    (income : RowsTracked base.quarterlyIncome incoming.quarterlyIncome incoming.periodDocuments)
    (cashFlow : RowsTracked base.quarterlyCashFlow incoming.quarterlyCashFlow incoming.periodDocuments)
    (balance : RowsTracked base.quarterlyBalance incoming.quarterlyBalance incoming.periodDocuments)
    (shares : ∀ figure, incoming.sharesOutstanding.or base.sharesOutstanding = some figure →
      figure.Within (NamedSomewhere (Overlays.merged base incoming).periodDocuments)) : Covered (Overlays.merged base incoming) := by
  refine ⟨fun row member => ?_, shares⟩
  rcases List.mem_append.mp member with flow | point
  · rcases List.mem_append.mp flow with earned | moved
    · exact merged_named (fun row old => stored row (List.mem_append_left _ (List.mem_append_left _ old)))
        (fun row new => fresh row (List.mem_append_left _ (List.mem_append_left _ new))) income
        (fun row kept => List.mem_append_left _ (List.mem_append_left _ kept)) row earned
    · exact merged_named (fun row old => stored row (List.mem_append_left _ (List.mem_append_right _ old)))
        (fun row new => fresh row (List.mem_append_left _ (List.mem_append_right _ new))) cashFlow
        (fun row kept => List.mem_append_left _ (List.mem_append_right _ kept)) row moved
  · exact merged_named (fun row old => stored row (List.mem_append_right _ old)) (fun row new => fresh row (List.mem_append_right _ new))
      balance (fun row kept => List.mem_append_right _ kept) row point

theorem mergeStatementPayloads_some (before incoming : Payload) :
    mergeStatementPayloads (some before) incoming = before ∨ mergeStatementPayloads (some before) incoming = merged before incoming := by
  unfold mergeStatementPayloads
  dsimp only
  split
  · split
    · exact .inl rfl
    · exact .inr rfl
  · exact .inr rfl

theorem Covered.merges {prior : Option Payload} (stored : ∀ before, prior = some before → Covered before)
    (fresh : ∀ row ∈ incoming.rows, RowNamed incoming.periodDocuments row) (tracked : Tracked prior incoming) :
    Covered (mergeStatementPayloads prior incoming) := by
  cases prior with
  | none =>
    have nothing : ∀ new : List Row, RowsTracked [] new incoming.periodDocuments := by
      intro new row member apart
      rcases mem_mergeRows member with own | ⟨old, _⟩
      · exact absurd rfl (apart row own)
      · cases old
    exact Covered.merged (fun row member => nomatch member) fresh (nothing _) (nothing _) (nothing _) tracked.shares
  | some before =>
    rcases mergeStatementPayloads_some before incoming with back | blended
    · rw [back]
      exact stored before rfl
    · have shares := tracked.shares
      rw [blended] at shares ⊢
      exact Covered.merged (stored before rfl).rows fresh (tracked.income before rfl) (tracked.cashFlow before rfl)
        (tracked.balance before rfl) shares

end Merging

section Runs

def stored (snapshots : List Snapshot) (symbol : String) : Option Payload := (latestSnapshot snapshots symbol).map Snapshot.outputs

def TrackedSaves : List Snapshot → List (ℤ × Payload) → Prop
  | _, [] => True
  | snapshots, (instant, incoming) :: rest =>
      Tracked (stored snapshots incoming.symbol) incoming ∧ TrackedSaves (save snapshots instant incoming) rest

/-- One run: what it scanned, and the instants at which its payloads are saved. -/
structure Run where
  scans : List CvmPackageScan
  issuers : List Issuer
  clock : List ℤ

def Run.payloads (run : Run) : List (ℤ × Payload) := run.clock.zip (extractCvmOfficialStatements run.scans run.issuers)

def savedBy : List Snapshot → List Run → List Snapshot
  | snapshots, [] => snapshots
  | snapshots, run :: rest => savedBy (saveOfficialStatements snapshots run.payloads) rest

def TrackedRuns : List Snapshot → List Run → Prop
  | _, [] => True
  | snapshots, run :: rest => TrackedSaves snapshots run.payloads ∧ TrackedRuns (saveOfficialStatements snapshots run.payloads) rest

theorem mem_latestSnapshot {snapshots : List Snapshot} {symbol : String} {snapshot : Snapshot}
    (latest : latestSnapshot snapshots symbol = some snapshot) : snapshot ∈ snapshots ∧ snapshot.symbol = symbol := by
  obtain ⟨among, own⟩ := List.mem_filter.mp (List.argmax_mem latest)
  exact ⟨among, by simpa using own⟩

theorem covered_save {snapshots : List Snapshot} {instant : ℤ} {incoming : Payload} (covered : ∀ snapshot ∈ snapshots, Covered snapshot.outputs)
    (fresh : ∀ row ∈ incoming.rows, RowNamed incoming.periodDocuments row) (tracked : Tracked (stored snapshots incoming.symbol) incoming) :
    ∀ snapshot ∈ save snapshots instant incoming, Covered snapshot.outputs := by
  have next : Covered (mergeStatementPayloads (stored snapshots incoming.symbol) incoming) := by
    refine Covered.merges (fun before held => ?_) fresh tracked
    obtain ⟨snapshot, latest, rfl⟩ := Option.map_eq_some_iff.mp held
    exact covered snapshot (mem_latestSnapshot latest).1
  intro snapshot member
  unfold save at member
  dsimp only at member
  split at member
  · exact covered snapshot member
  · split at member
    · exact covered snapshot member
    · rcases List.mem_append.mp member with old | new
      · exact covered snapshot old
      · cases List.mem_singleton.mp new
        exact next

theorem covered_saves {payloads : List (ℤ × Payload)} {snapshots : List Snapshot} (covered : ∀ snapshot ∈ snapshots, Covered snapshot.outputs)
    (fresh : ∀ entry ∈ payloads, ∀ row ∈ entry.2.rows, RowNamed entry.2.periodDocuments row) (tracked : TrackedSaves snapshots payloads) :
    ∀ snapshot ∈ saveOfficialStatements snapshots payloads, Covered snapshot.outputs := by
  induction payloads generalizing snapshots with
  | nil => exact covered
  | cons entry rest ih =>
    exact ih (covered_save covered (fresh entry List.mem_cons_self) tracked.1)
      (fun other member => fresh other (List.mem_cons_of_mem _ member)) tracked.2

theorem covered_runs {runs : List Run} {snapshots : List Snapshot} (covered : ∀ snapshot ∈ snapshots, Covered snapshot.outputs)
    (tracked : TrackedRuns snapshots runs) : ∀ snapshot ∈ savedBy snapshots runs, Covered snapshot.outputs := by
  induction runs generalizing snapshots with
  | nil => exact covered
  | cons run rest ih =>
    refine ih (covered_saves covered (fun entry member => ?_) tracked.1) tracked.2
    exact extract_named entry.2 (List.of_mem_zip member).2

end Runs

section Guard
variable {snapshots : List Snapshot} {availableAt : Day → ℤ} {symbol : String} {instant : ℤ} {payload : Payload}

/-- What is admitted was stored by then, and every document it lists was received by then. -/
def Admitted (snapshots : List Snapshot) (availableAt : Day → ℤ) (symbol : String) (instant : ℤ) (payload : Payload) : Prop :=
  ∃ snapshot ∈ snapshots, snapshot.symbol = symbol ∧ snapshot.outputs = payload ∧ statementsReceivedBy availableAt snapshot instant

theorem mem_latestSnapshotBefore {before : ℤ} {snapshot : Snapshot} (latest : latestSnapshotBefore snapshots symbol before = some snapshot) :
    snapshot ∈ snapshots ∧ snapshot.symbol = symbol := by
  obtain ⟨among, own⟩ := List.mem_filter.mp (List.argmax_mem latest)
  rw [Bool.and_eq_true, decide_eq_true_eq] at own
  exact ⟨among, own.1⟩

theorem earlierAdmitted_admitted {tries : ℕ} {before : ℤ} (found : earlierAdmitted snapshots availableAt symbol instant tries before = some payload) :
    Admitted snapshots availableAt symbol instant payload := by
  induction tries generalizing before with
  | zero => cases found
  | succ tries ih =>
    unfold earlierAdmitted at found
    split at found
    · cases found
    · rename_i earlier latest
      split at found
      · rename_i received
        cases found
        obtain ⟨among, own⟩ := mem_latestSnapshotBefore latest
        exact ⟨earlier, among, own, rfl, received⟩
      · exact ih found

theorem admittedStatements_admitted (found : admittedStatements snapshots availableAt symbol instant = some payload) :
    Admitted snapshots availableAt symbol instant payload := by
  unfold admittedStatements at found
  split at found
  · cases found
  · rename_i snapshot latest
    split at found
    · rename_i received
      cases found
      obtain ⟨among, own⟩ := mem_latestSnapshot latest
      exact ⟨snapshot, among, own, rfl, received⟩
    · exact earlierAdmitted_admitted found

theorem officialOverlay_admitted {legacy : Option Legacy} (served : officialOverlay snapshots availableAt legacy symbol instant = some (.statements payload)) :
    Admitted snapshots availableAt symbol instant payload := by
  unfold officialOverlay at served
  dsimp only at served
  have older : ((legacy.filter fun legacy => legacyReceivedBy availableAt legacy instant && legacy.asOf.isSome).map Overlay.legacy) ≠
      some (.statements payload) := by
    intro same
    obtain ⟨_, _, impossible⟩ := Option.map_eq_some_iff.mp same
    cases impossible
  split at served
  · rename_i admitted found
    split at served
    · cases served
      exact admittedStatements_admitted found
    · exact absurd served older
  · exact absurd served older

theorem mem_of_documentAt {listed : List (Day × PeriodDocument)} {period : Day} {document : PeriodDocument}
    (found : documentAt listed period = some document) : (period, document) ∈ listed := by
  obtain ⟨entry, first, rfl⟩ := Option.map_eq_some_iff.mp found
  have own : entry.1 = period := by simpa using List.find?_some first
  exact own ▸ List.mem_of_find?_eq_some first

theorem received_of_listed {snapshot : Snapshot} (received : statementsReceivedBy availableAt snapshot instant) {period : Day}
    {document : PeriodDocument} (found : documentAt snapshot.outputs.periodDocuments period = some document) {source : Item}
    (listed : source ∈ document.contributing) {day : Day} (known : source.receivedOn = some day) : availableAt day ≤ instant := by
  unfold statementsReceivedBy at received
  rw [Bool.and_eq_true] at received
  have each := List.all_eq_true.mp received.2 _ (mem_of_documentAt found)
  have own := List.all_eq_true.mp each source (List.mem_cons_of_mem _ listed)
  rw [known, Option.all_some] at own
  simpa using own

theorem Covered.received {snapshot : Snapshot} (covered : Covered snapshot.outputs)
    (received : statementsReceivedBy availableAt snapshot instant) {figure : Figure} (reads : snapshot.outputs.Reads figure) :
    ∀ source ∈ figure.sources, ∀ day, source.receivedOn = some day → availableAt day ≤ instant := by
  intro source member day known
  have isKnown : source.receivedOn.isSome := by rw [known]; rfl
  rcases reads with ⟨row, among, field, held⟩ | shares
  · obtain ⟨document, found, within⟩ := covered.rows row among
    exact received_of_listed received found (within field figure held source member isKnown) known
  · obtain ⟨period, document, found, listed⟩ := covered.shares figure shares source member isKnown
    exact received_of_listed received found listed known

end Guard

/-- Runs from the empty store that lose track of no document. -/
structure TrackedHistory where
  runs : List Run
  tracked : TrackedRuns [] runs

/-- The receipt guard covers every figure that is served. -/
theorem served_received (history : TrackedHistory) (availableAt : Day → ℤ) (legacy : Option Legacy) (symbol : String) (instant : ℤ) :
    ∀ payload, officialOverlay (savedBy [] history.runs) availableAt legacy symbol instant = some (.statements payload) →
      (∃ snapshot ∈ savedBy [] history.runs, snapshot.symbol = symbol ∧ snapshot.outputs = payload ∧ snapshot.publishedAt ≤ instant) ∧
      ∀ figure, payload.Reads figure → ∀ source ∈ figure.sources, ∀ day, source.receivedOn = some day → availableAt day ≤ instant := by
  intro payload served
  obtain ⟨snapshot, among, own, rfl, received⟩ := officialOverlay_admitted served
  have nothing : ∀ snapshot ∈ ([] : List Snapshot), Covered snapshot.outputs := fun _ member => nomatch member
  have covered := covered_runs nothing history.tracked snapshot among
  refine ⟨⟨snapshot, among, own, rfl, ?_⟩, fun figure reads => covered.received received reads⟩
  unfold statementsReceivedBy at received
  rw [Bool.and_eq_true, Bool.and_eq_true, decide_eq_true_eq] at received
  exact received.1.1

section Leak
open Library.Calendar

private def midnight (day : Day) : ℤ := day * 86400

private def yearEnd : Day := ofCivil 2024 12 31
private def nineMonths : Day := ofCivil 2024 9 30
private def firstQuarter : Day := ofCivil 2025 3 31
private def refiled : Day := ofCivil 2025 6 2

private def only (field : Field) (value : ℚ) : Field → Option ℚ := fun other => if other = field then some value else none

/-- A package with one span, its own filing, and its receipt. -/
private def package (document : Document) (received : Day) (group : Group) (start : Option Day) (finish : Day)
    (values : Field → Option ℚ) : CvmPackageScan where
  documentType := document.document
  candidates := Dict.empty.insert ⟨"1", .con, group, start, finish⟩
    ⟨toLex (if document.referenceDate = finish then 1 else 0, toLex (document.version, document.referenceDate)), values, document, ""⟩
  capital := Dict.empty
  documents := Dict.empty.insert ("1", document.referenceDate, document.version) (some received)

/-- The nine months, and the quarter after the year with the year's balance sheet beside its own. -/
private def quarterlies : List CvmPackageScan :=
  [package ⟨"ITR", nineMonths, 1⟩ (ofCivil 2024 11 8) .income (some (ofCivil 2024 1 1)) nineMonths (only .netIncome 60),
    package ⟨"ITR", firstQuarter, 1⟩ (ofCivil 2025 5 9) .assets none firstQuarter (only .totalAssets 510),
    package ⟨"ITR", firstQuarter, 1⟩ (ofCivil 2025 5 9) .assets none yearEnd (only .totalAssets 500)]

/-- The year, filed again in June. -/
private def yearly : CvmPackageScan :=
  package ⟨"DFP", yearEnd, 2⟩ refiled .income (some (ofCivil 2024 1 1)) yearEnd (only .netIncome 100)

private def company : Issuer := ⟨"1", "", "", ["PETR4"]⟩

/-- The yearly package is there in the morning, and missing an hour later. -/
private def losing : List Run :=
  [⟨yearly :: quarterlies, [company], [midnight refiled + 36000]⟩, ⟨quarterlies, [company], [midnight refiled + 39600]⟩]

private def noon : ℤ := midnight refiled + 43200

private def leaks (overlay : Option Overlay) : Bool :=
  match overlay with
  | some (.statements payload) => payload.quarterlyIncome.any fun row => (row.values .netIncome).any fun figure =>
      figure.sources.any fun source => source.receivedOn.any fun day => noon < midnight (day + 1)
  | _ => false

private theorem exists_of_leaks {overlay : Option Overlay} (leaky : leaks overlay) : ∃ payload figure source day,
    overlay = some (.statements payload) ∧ payload.Reads figure ∧ source ∈ figure.sources ∧ source.receivedOn = some day ∧
      noon < midnight (day + 1) := by
  unfold leaks at leaky
  split at leaky
  · rename_i payload
    obtain ⟨row, among, holds⟩ := List.any_eq_true.mp leaky
    obtain ⟨figure, held, reads⟩ := (Option.any_eq_true _ _).mp holds
    obtain ⟨source, member, received⟩ := List.any_eq_true.mp reads
    obtain ⟨day, known, late⟩ := (Option.any_eq_true _ _).mp received
    have row' : row ∈ payload.rows := List.mem_append_left _ (List.mem_append_left _ among)
    exact ⟨payload, figure, source, day, rfl, .inl ⟨row, row', .netIncome, held⟩, member, known, by simpa using late⟩
  · cases leaky

private theorem tracked_alone {payloads : List (ℤ × Payload)} (alone : payloads.length ≤ 1)
    (shareless : ∀ entry ∈ payloads, entry.2.sharesOutstanding = none) : TrackedSaves [] payloads := by
  cases payloads with
  | nil => trivial
  | cons entry rest =>
    obtain rfl : rest = [] := List.eq_nil_of_length_eq_zero (by simpa using alone)
    refine ⟨⟨(fun _ impossible => nomatch impossible), (fun _ impossible => nomatch impossible),
      (fun _ impossible => nomatch impossible), fun figure shares => ?_⟩, trivial⟩
    rw [shareless entry List.mem_cons_self] at shares
    cases shares

/-- The morning's run alone. -/
private def morning : TrackedHistory :=
  ⟨losing.take 1, tracked_alone (by decide +kernel) (by decide +kernel), trivial⟩

private def statementsOf : Option Overlay → Option Payload
  | some (.statements payload) => some payload
  | _ => none

private theorem statementsOf_eq {overlay : Option Overlay} {payload : Payload} (served : statementsOf overlay = some payload) :
    overlay = some (.statements payload) := by
  unfold statementsOf at served
  split at served
  · cases served
    rfl
  · cases served

end Leak

/-- The next morning the year is served, received the day before. -/
theorem served_received_morning : ∃ payload,
    officialOverlay (savedBy [] morning.runs) (fun day => midnight (day + 1)) none "PETR4" (midnight (refiled + 2)) =
      some (.statements payload) ∧ ∀ figure, payload.Reads figure → ∀ source ∈ figure.sources, ∀ day, source.receivedOn = some day →
        midnight (day + 1) ≤ midnight (refiled + 2) := by
  have served : (statementsOf (officialOverlay (savedBy [] morning.runs) (fun day => midnight (day + 1)) none "PETR4"
      (midnight (refiled + 2)))).isSome := by decide +kernel
  obtain ⟨payload, same⟩ := Option.isSome_iff_exists.mp served
  have overlay := statementsOf_eq same
  exact ⟨payload, overlay, (served_received morning _ none "PETR4" _ payload overlay).2⟩

/-- A year that was filed again is served before the end of its receipt day. -/
theorem kept_row_leaks : ∃ (runs : List Run) (availableAt : Day → ℤ) (instant : ℤ) (payload : Payload) (figure : Figure) (source : Item) (day : Day),
    officialOverlay (savedBy [] runs) availableAt none "PETR4" instant = some (.statements payload) ∧ payload.Reads figure ∧
      source ∈ figure.sources ∧ source.receivedOn = some day ∧ instant < availableAt day := by
  have leaky : leaks (officialOverlay (savedBy [] losing) (fun day => midnight (day + 1)) none "PETR4" noon) := by decide +kernel
  obtain ⟨payload, figure, source, day, served, reads, member, known, late⟩ := exists_of_leaks leaky
  exact ⟨losing, fun day => midnight (day + 1), noon, payload, figure, source, day, served, reads, member, known, late⟩

end C3po.Overlays
