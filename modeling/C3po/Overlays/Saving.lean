import C3po.Overlays.Guarded

/-! Saves of statements one after the other: what is stored is what the admitted payloads carried
last, as far as the history reaches.
-/

set_option autoImplicit false

namespace C3po.Overlays

open Library

inductive Statement where
  | income
  | cashFlow
  | balance
  deriving DecidableEq

def Payload.statement (payload : Payload) : Statement → List Row
  | .income => payload.quarterlyIncome
  | .cashFlow => payload.quarterlyCashFlow
  | .balance => payload.quarterlyBalance

def Row.bare (row : Row) : Row := { row with values := row.values.bare }

section Bare
variable {base incoming : Payload}

theorem mem_rows {payload : Payload} {row : Row} : row ∈ payload.rows ↔ ∃ statement, row ∈ payload.statement statement := by
  unfold Payload.rows
  rw [List.mem_append, List.mem_append]
  constructor
  · rintro ((income | cash) | balance)
    · exact ⟨.income, income⟩
    · exact ⟨.cashFlow, cash⟩
    · exact ⟨.balance, balance⟩
  · rintro ⟨statement, member⟩
    cases statement
    · exact .inl (.inl member)
    · exact .inl (.inr member)
    · exact .inr member

@[simp] theorem bare_statement (payload : Payload) (statement : Statement) :
    payload.bare.statement statement = (payload.statement statement).map Row.bare := by
  cases statement <;> rfl

theorem statement_merged (base incoming : Payload) (statement : Statement) :
    (merged base incoming).statement statement = mergeRows (base.statement statement) (incoming.statement statement) := by
  cases statement <;> rfl

end Bare

section Again
variable {base incoming : Payload}

def Bounded (payload : Payload) : Prop := ∀ row ∈ payload.rows, ∀ period, payload.asOf = some period → row.date ≤ period

/-- Documents are kept for the periods of the rows only. -/
def Documented (payload : Payload) : Prop :=
  ∀ period, (documentAt payload.periodDocuments period).isSome → period ∈ payload.rows.map Row.date

theorem documentAt_merged_some {period : Day} {document : PeriodDocument}
    (found : documentAt (merged base incoming).periodDocuments period = some document) :
    period ∈ (merged base incoming).rows.map Row.date ∧
      mergeDocument base.periodDocuments incoming.periodDocuments period = some document := by
  unfold merged at found
  dsimp only at found
  rw [documentAt_tabulated] at found
  split at found
  · rename_i among
    rw [mem_stableSort, List.mem_dedup] at among
    exact ⟨among, found⟩
  · cases found

theorem documented_merged : Documented (merged base incoming) := by
  intro period found
  obtain ⟨document, listed⟩ := Option.isSome_iff_exists.mp found
  exact (documentAt_merged_some listed).1

theorem mem_merged {row : Row} (member : row ∈ (merged base incoming).rows) : row ∈ incoming.rows ∨ row ∈ base.rows := by
  obtain ⟨statement, among⟩ := mem_rows.mp member
  rw [statement_merged] at among
  rcases mem_mergeRows among with own | ⟨old, _⟩
  · exact .inl (mem_rows.mpr ⟨statement, own⟩)
  · exact .inr (mem_rows.mpr ⟨statement, old⟩)

theorem mem_dates_merged {period : Day} (held : period ∈ base.rows.map Row.date)
    (newest : ∀ row ∈ (merged base incoming).rows, row.date ≤ period) : period ∈ (merged base incoming).rows.map Row.date := by
  obtain ⟨row, member, rfl⟩ := List.mem_map.mp held
  obtain ⟨statement, among⟩ := mem_rows.mp member
  have carried : row.date ∈ (base.statement statement ++ incoming.statement statement).map Row.date :=
    List.mem_map_of_mem (List.mem_append_left _ among)
  by_contra dropped
  have left : row.date ∉ (mergeRows (base.statement statement) (incoming.statement statement)).map Row.date := by
    intro kept
    obtain ⟨other, stays, same⟩ := List.mem_map.mp kept
    rw [← statement_merged] at stays
    exact dropped (same ▸ List.mem_map_of_mem (mem_rows.mpr ⟨statement, stays⟩))
  have enough := newer_of_dropped carried left
  rw [← mergeRows, ← statement_merged] at enough
  have nothing : newerThan Row.date ((merged base incoming).statement statement) row.date = 0 := by
    unfold newerThan
    rw [Finset.card_eq_zero, Finset.filter_eq_empty_iff]
    intro later other
    obtain ⟨own, stays, rfl⟩ := List.mem_map.mp (List.mem_toFinset.mp other)
    exact not_lt.mpr (newest own (mem_rows.mpr ⟨statement, stays⟩))
  rw [nothing] at enough
  cases enough

theorem mergeRows_again (base incoming : List Row) : mergeRows (mergeRows base incoming) incoming = mergeRows base incoming :=
  retain_again historyQuarters base incoming

theorem mergeDocument_again {listed base incoming : List (Day × PeriodDocument)} {period : Day}
    (own : documentAt listed period = mergeDocument base incoming period) :
    mergeDocument listed incoming period = mergeDocument base incoming period := by
  cases fresh : documentAt incoming period with
  | none => rw [mergeDocument_base fresh, own]
  | some document =>
    unfold mergeDocument at own ⊢
    rw [own, fresh]
    dsimp only
    cases documentAt base period with
    | none =>
      dsimp only
      split <;> rfl
    | some prior =>
      dsimp only
      by_cases same : (prior.item.identity = document.item.identity && document.item.receivedOn.isNone) = true
      · rw [if_pos same]
        dsimp only
        rw [Bool.and_eq_true] at same
        rw [if_pos (by rw [same.2]; simp)]
      · rw [if_neg same]
        dsimp only
        split <;> rfl

theorem identity_mergeDocument {base incoming : List (Day × PeriodDocument)} {period : Day} {document after : PeriodDocument}
    (named : documentAt incoming period = some document) (found : mergeDocument base incoming period = some after) :
    after.item.identity = document.item.identity := by
  unfold mergeDocument at found
  rw [named] at found
  dsimp only at found
  split at found
  · cases found
    rfl
  · split at found
    · cases found
      rfl
    · cases found
      rfl

theorem sameAsOfDocument_iff : sameAsOfDocument base incoming = true ↔ ∃ period first second, incoming.asOf = some period ∧
    base.asOf = some period ∧ documentAt base.periodDocuments period = some first ∧
      documentAt incoming.periodDocuments period = some second ∧ first.item.identity = second.item.identity := by
  unfold sameAsOfDocument
  cases own : incoming.asOf with
  | none => simp
  | some period =>
    dsimp only
    rw [Bool.and_eq_true, decide_eq_true_eq]
    constructor
    · rintro ⟨prior, same⟩
      split at same
      · rename_i first second old new
        exact ⟨period, first, second, rfl, prior, old, new, of_decide_eq_true same⟩
      · cases same
    · rintro ⟨_, first, second, this, prior, old, new, identity⟩
      cases this
      rw [old, new]
      exact ⟨prior, decide_eq_true identity⟩

theorem sameAsOfDocument_again (bounded : Bounded base) (documented : Documented base) (fresh : Bounded incoming)
    (same : sameAsOfDocument base incoming) : sameAsOfDocument (merged base incoming) incoming := by
  obtain ⟨period, first, second, own, prior, old, new, identity⟩ := sameAsOfDocument_iff.mp same
  have held := documented period (by rw [old]; rfl)
  have newest : ∀ row ∈ (merged base incoming).rows, row.date ≤ period := by
    intro row member
    rcases mem_merged member with carried | stored
    · exact fresh row carried period own
    · exact bounded row stored period prior
  obtain ⟨row, member, dated⟩ := List.mem_map.mp (mem_dates_merged held newest)
  have listed := documentAt_merged member
  rw [dated] at listed
  obtain ⟨after, found, _⟩ := mergeDocument_incoming base.periodDocuments new
  exact sameAsOfDocument_iff.mpr ⟨period, after, second, own, own, listed.trans found, new, identity_mergeDocument new found⟩

theorem periodDocuments_merged : (merged base incoming).periodDocuments =
    (stableSort id ((merged base incoming).rows.map Row.date).dedup).filterMap fun period =>
      (mergeDocument base.periodDocuments incoming.periodDocuments period).map (period, ·) := rfl

theorem merged_again (bounded : Bounded base) (documented : Documented base) (fresh : Bounded incoming) :
    merged (merged base incoming) incoming = merged base incoming := by
  have described : ∀ {A : Type} (own prior : Option A), (if sameAsOfDocument (merged base incoming) incoming then
      own.or (if sameAsOfDocument base incoming then own.or prior else own) else own) =
        if sameAsOfDocument base incoming then own.or prior else own := by
    intro A own prior
    by_cases same : sameAsOfDocument base incoming = true
    · rw [if_pos same, if_pos (sameAsOfDocument_again bounded documented fresh same)]
      cases own <;> rfl
    · rw [if_neg same]
      cases own <;> simp
  have rows : ∀ statement, (merged (merged base incoming) incoming).statement statement = (merged base incoming).statement statement := by
    intro statement
    rw [statement_merged, statement_merged, mergeRows_again]
  have kept : (merged (merged base incoming) incoming).rows = (merged base incoming).rows := by
    unfold Payload.rows
    exact congrArg₂ _ (congrArg₂ _ (rows .income) (rows .cashFlow)) (rows .balance)
  have documents : (merged (merged base incoming) incoming).periodDocuments = (merged base incoming).periodDocuments := by
    rw [@periodDocuments_merged (merged base incoming), kept]
    conv_rhs => rw [periodDocuments_merged]
    refine List.filterMap_congr fun period member => ?_
    rw [mem_stableSort, List.mem_dedup] at member
    obtain ⟨row, among, rfl⟩ := List.mem_map.mp member
    rw [mergeDocument_again (documentAt_merged among)]
  have shares : incoming.sharesOutstanding.or (incoming.sharesOutstanding.or base.sharesOutstanding) =
      incoming.sharesOutstanding.or base.sharesOutstanding := by
    cases incoming.sharesOutstanding <;> rfl
  have parts : ∀ first second : Payload, first.symbol = second.symbol → first.asOf = second.asOf →
      first.publishedOn = second.publishedOn → first.sourceName = second.sourceName → first.sourceUrl = second.sourceUrl →
      (∀ statement, first.statement statement = second.statement statement) → first.sharesOutstanding = second.sharesOutstanding →
      first.metrics = second.metrics → first.periodDocuments = second.periodDocuments → first = second := by
    intro first second symbol asOf published name url rows shares metrics documents
    cases first
    cases second
    rw [Payload.mk.injEq]
    exact ⟨symbol, asOf, published, name, url, rows .income, rows .cashFlow, rows .balance, shares, metrics, documents⟩
  exact parts _ _ rfl rfl (described _ _) rfl (described _ _) rows shares rfl documents

end Again

end C3po.Overlays
