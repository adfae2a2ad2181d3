import C3po.Decisor.Monotone

/-! A permission is sound, and no worse input makes a verdict less strict. -/

set_option autoImplicit false

namespace C3po.Decisor
open C3po.Investors (upper)
open C3po.Stored (Json written)
open C3po.Universe (strip)

variable {Digest : Type}

/-- The poll was alive at the clock and covered the issuer, the marks were read and none is pending. -/
structure Live (thresholds : DecisorThresholds) (source : StalenessRead Digest) (symbol : String) (issuerKey : Option String) : Prop where
  poll : ∃ started completed clock, source.triggerPoll.bind Poll.startedAt = some started ∧ source.triggerPoll.bind Poll.completedAt = some completed ∧
    source.knownAt = some clock ∧ clock - thresholds.stalenessPollMaxAgeHours * hour ≤ started ∧ started ≤ completed ∧
    completed ≤ clock - thresholds.insertMarginSeconds * second
  covered : whyUncovered source.pollCoverage issuerKey = none
  table : source.status = "ok"
  nothing : source.pending symbol = []

section Live
variable {setting : Setting Digest} {thresholds : DecisorThresholds} {facts : Facts Digest}

theorem pollFresh_live {poll : Option (Poll Digest)} {knownAt : Option Int} (fresh : pollFresh thresholds poll knownAt = true) :
    ∃ started completed clock, poll.bind Poll.startedAt = some started ∧ poll.bind Poll.completedAt = some completed ∧ knownAt = some clock ∧
      clock - thresholds.stalenessPollMaxAgeHours * hour ≤ started ∧ started ≤ completed ∧
      completed ≤ clock - thresholds.insertMarginSeconds * second := by
  unfold pollFresh at fresh
  split at fresh
  · rename_i started completed clock readStarted readCompleted
    obtain ⟨recent, ran, past⟩ := of_decide_eq_true fresh
    exact ⟨started, completed, clock, readStarted, readCompleted, rfl, recent, ran, past⟩
  · cases fresh

theorem text_stale : text setting (.text "stale") = some "stale" := by
  have same : strip "stale" = "stale" := by decide
  change (if strip "stale" = "" then none else some (strip "stale")) = some "stale"
  rw [same]
  rfl

theorem text_unavailable : text setting (.text "unavailable") = some "unavailable" := by
  have same : strip "unavailable" = "unavailable" := by decide
  change (if strip "unavailable" = "" then none else some (strip "unavailable")) = some "unavailable"
  rw [same]
  rfl

theorem nameStaleness_live {source : Option (StalenessRead Digest)} {market symbol : String} {issuerKey : Option String}
    (us : market ∈ usStalenessMarkets) (same : facts.staleness = nameStaleness setting thresholds source market symbol issuerKey)
    (clear : stalenessStatus setting facts = "clear") (ok : text setting (facts.staleness.get "source_status") = some "ok") :
    ∃ read, source = some read ∧ Live thresholds read symbol issuerKey := by
  have known : (written setting.toSetting ((facts.staleness.get "status").orElse (.text ""))) = "clear" := by
    unfold stalenessStatus at clear
    dsimp only at clear
    split at clear
    · exact absurd clear (by decide)
    · exact clear
  rw [same] at known ok
  unfold nameStaleness at known ok
  rw [if_neg (not_not_intro us)] at known ok
  dsimp only at known ok
  split at ok
  · unfold Json.get at ok
    rw [Json.get?_entries] at ok
    exact absurd (text_unavailable.symm.trans ok) (by decide)
  · rename_i present
    rw [if_neg present] at known
    unfold Json.get at known ok
    rw [Json.get?_entries] at known ok
    generalize live : pollFresh thresholds (source.getD unread).triggerPoll (source.getD unread).knownAt = alive at present known ok
    generalize cover : whyUncovered (source.getD unread).pollCoverage issuerKey = why at present known ok
    change text setting (.text (if (alive && !(alive && why.isSome)) = true then "ok" else "stale")) = some "ok" at ok
    have fresh : (alive && !(alive && why.isSome)) = true := by
      by_contra dead
      rw [if_neg dead] at ok
      exact absurd (text_stale.symm.trans ok) (by decide)
    obtain ⟨rfl, rfl⟩ : alive = true ∧ why = none := by
      cases alive <;> cases why <;> simp_all
    have table : (source.getD unread).status = "ok" := by simpa using present
    rw [if_neg (by simp)] at known
    change written setting.toSetting ((Json.text (if (source.getD unread).pending symbol = [] then "clear" else "stale")).orElse (.text "")) = "clear"
      at known
    have nothing : (source.getD unread).pending symbol = [] := by
      by_contra marked
      rw [if_neg marked] at known
      have stale : "stale" = "clear" := known
      exact absurd stale (by decide)
    cases source with
    | none =>
      have unread : "" = "ok" := table
      exact absurd unread (by decide)
    | some read => exact ⟨read, rfl, pollFresh_live live, cover, table, nothing⟩

theorem stalenessStatus_us (us : upper (strip (written setting.toSetting ((facts.row.get "official_market").orElse (.text "")))) ∈ usStalenessMarkets) :
    stalenessStatus setting facts ≠ "not_applicable" := by
  unfold stalenessStatus
  dsimp only
  split
  · decide
  · rename_i unexempt
    exact fun exempt => unexempt ⟨exempt, us⟩

end Live

/-- A permission stands on every gate, on a live source of the filings for a name of the United
States and on no event that gates; the events only make a verdict stricter; and no worse input makes
it less strict. -/
theorem permission_sound (setting : Setting Digest) (thresholds : DecisorThresholds) {facts : Facts Digest} {outcome : Outcome Digest} {tp buyIn : ℚ}
    (target : positive setting (facts.row.get "our_tp") = some tp) (limit : positive setting (facts.row.get "buy_in") = some buyIn)
    (decided : decide setting thresholds facts = .ok outcome) :
    (outcome.verdict = .compraPermitida →
      (∃ reference, setting.fromisoformat facts.expectedSession = some reference ∧ Permitted setting thresholds facts reference) ∧
      (∃ entry error rate, entryPrice setting facts = some entry ∧ eProfile setting facts = some error ∧ hMarket setting facts = some rate ∧
        entry ≤ buyIn ∧ entry * (1 + rate) ≤ tp * (1 - error)) ∧
      eventGates setting thresholds facts = [] ∧
      (upper (strip (written setting.toSetting ((facts.row.get "official_market").orElse (.text "")))) ∈ usStalenessMarkets →
        stalenessStatus setting facts = "clear" ∧ text setting (facts.staleness.get "source_status") = some "ok" ∧
        ∀ source market symbol issuerKey, market ∈ usStalenessMarkets → facts.staleness = nameStaleness setting thresholds source market symbol issuerKey →
          ∃ read, source = some read ∧ Live thresholds read symbol issuerKey)) ∧
    outcome.verdictWithoutEvents ≤ outcome.verdict ∧
    ∀ facts', Worse setting thresholds facts facts' → ∃ outcome', decide setting thresholds facts' = .ok outcome' ∧ outcome.verdict ≤ outcome'.verdict := by
  obtain ⟨reference, read, without, verdict⟩ := decide_ok setting thresholds facts decided
  refine ⟨fun permitted => ?_, ?_, fun facts' worse => ?_⟩
  · rw [verdict] at permitted
    have none : worst (codesOf setting thresholds facts reference ++ eventGates setting thresholds facts) = ⊥ := by
      rw [worst_append]
      exact permitted
    have empty : codesOf setting thresholds facts reference ++ eventGates setting thresholds facts = [] := by
      by_contra some
      exact absurd (none ▸ observar_le_worst some) (by decide)
    obtain ⟨codes, gates⟩ := List.append_eq_nil_iff.mp empty
    have stands := permitted_of_codes target codes
    refine ⟨⟨reference, read, stands⟩, ?_, gates, fun us => ?_⟩
    · obtain ⟨tp', buyIn', entry, error, rate, target', limit', priced, measured, rated, affordable, enough⟩ := stands.margin
      cases target.symm.trans target'
      cases limit.symm.trans limit'
      exact ⟨entry, error, rate, priced, measured, rated, affordable, enough⟩
    · obtain ⟨clear, ok⟩ := stands.filings.resolve_left (stalenessStatus_us us)
      exact ⟨clear, ok, fun source market symbol issuerKey asked same => nameStaleness_live asked same clear ok⟩
  · rw [without, verdict]
    exact le_sup_left
  · have session : facts'.expectedSession = facts.expectedSession := by cases worse <;> rfl
    obtain ⟨outcome', decided'⟩ : ∃ outcome', decide setting thresholds facts' = .ok outcome' := by
      unfold decide
      rw [session, read]
      exact ⟨_, rfl⟩
    obtain ⟨reference', read', _, verdict'⟩ := decide_ok setting thresholds facts' decided'
    rw [session, read] at read'
    cases read'
    refine ⟨outcome', decided', ?_⟩
    rw [verdict, verdict']
    exact worse.le target

section Sample

def sampleSetting : Setting Unit where
  float _ := none
  str _ := ""
  iso := toString
  loads _ := none
  canonicalSha256 _ := ()
  sessionDateOf _ _ := some "2026-10-16"
  fromisoformat text := if text = "2026-10-16" then some 100 else if text = "2026-09-30" then some 84 else none

/-- A served row with the given fields in place of its own. -/
def sampleRow (changed : List (String × Json Unit)) : Json Unit :=
  .entries (changed ++
    [("our_tp", .number 12), ("buy_in", .number 10), ("price", .number 9), ("official_market", .text "NASDAQ"),
     ("fundamentals_as_of", .text "2026-09-30"), ("signal_quality", .text "validated"), ("method_dispersion_percent", .number 10),
     ("valuation_confidence", .number 90)])

def sampleFacts (changed : List (String × Json Unit)) : Facts Unit where
  row := sampleRow changed
  expectedSession := "2026-10-16"
  tpSessionsBehind := 0
  price := .entries [("price", .number 9), ("session", .text "2026-10-16")]
  error := .entries [("status", .text "ok"), ("value", .number (1 / 10))]
  rate := .entries [("status", .text "ok"), ("h_market", .number (1 / 20))]
  staleness := .entries [("status", .text "clear"), ("source_status", .text "ok")]
  events := .entries [("market", .text "NASDAQ"), ("earnings", .entries [("status", .text "calendar"), ("within", .bool false)])]

def verdictIs (thresholds : DecisorThresholds) (facts : Facts Unit) (verdict : Verdict) : Bool :=
  match decide sampleSetting thresholds facts with
  | .ok outcome => outcome.verdict = verdict
  | .error _ => false

theorem exists_of_verdictIs {thresholds : DecisorThresholds} {facts : Facts Unit} {verdict : Verdict}
    (same : verdictIs thresholds facts verdict = true) : ∃ outcome, decide sampleSetting thresholds facts = .ok outcome ∧ outcome.verdict = verdict := by
  unfold verdictIs at same
  split at same
  · rename_i outcome decided
    exact ⟨outcome, decided, of_decide_eq_true same⟩
  · cases same

theorem permission_sound_sample : (∃ outcome, decide sampleSetting {} (sampleFacts []) = .ok outcome ∧ outcome.verdict = .compraPermitida) ∧
    (∃ reference, Permitted sampleSetting {} (sampleFacts []) reference) ∧
    ∃ outcome, decide sampleSetting {} { sampleFacts [] with tpSessionsBehind := 2 } = .ok outcome ∧ Verdict.compraPermitida ≤ outcome.verdict := by
  have permits : verdictIs {} (sampleFacts []) .compraPermitida = true := by decide +kernel
  have target : positive sampleSetting ((sampleFacts []).row.get "our_tp") = some 12 := by decide +kernel
  have limit : positive sampleSetting ((sampleFacts []).row.get "buy_in") = some 10 := by decide +kernel
  obtain ⟨outcome, decided, permitted⟩ := exists_of_verdictIs permits
  obtain ⟨sound, _, worse⟩ := permission_sound sampleSetting {} target limit decided
  obtain ⟨⟨reference, _, stands⟩, _⟩ := sound permitted
  obtain ⟨older, decided', le⟩ := worse _ (.olderTp 2 (by decide))
  exact ⟨⟨outcome, decided, permitted⟩, ⟨reference, stands⟩, older, decided', permitted ▸ le⟩

/-- Facts of which one input is missing, or worse, and which are permitted all the same: without the
ask; without the producer's validation; without the facts of an announcement; of a row without its
defect mark or its market; and with a dearer ask where the rate is below minus one. -/
theorem missing_permitted :
    (verdictIs {} { sampleFacts [] with price := .entries [("ask", .number 100), ("price", .number 9), ("session", .text "2026-10-16")] } .observar = true ∧
      verdictIs {} (sampleFacts []) .compraPermitida = true) ∧
    verdictIs {} (sampleFacts [("tp_validation_status", .text "review")]) .veto = true ∧
    verdictIs {} { sampleFacts [] with
      events := .entries [("market", .text "NASDAQ"), ("earnings", .entries [("status", .text "calendar"), ("within", .bool true)])] } .observar = true ∧
    verdictIs {} { sampleFacts [] with events := .entries [("market", .text "NASDAQ")] } .compraPermitida = true ∧
    verdictIs {} (sampleFacts [("data_defect", .bool true)]) .veto = true ∧
    (verdictIs {} { sampleFacts [] with staleness := .entries [("status", .text "not_applicable")] } .observar = true ∧
      verdictIs {} { sampleFacts [("official_market", .null)] with staleness := .entries [("status", .text "not_applicable")] } .compraPermitida = true) ∧
    (verdictIs { dataDefectFields := ["valuation_confidence"], minValuationConfidence := 0 } (sampleFacts []) .veto = true ∧
      verdictIs { dataDefectFields := ["valuation_confidence"], minValuationConfidence := 0 } (sampleFacts [("valuation_confidence", .number 0)])
        .compraPermitida = true) ∧
    (let indebted (ask : ℚ) : Facts Unit := { sampleFacts [("buy_in", .number 20)] with
      error := .entries [("status", .text "ok"), ("value", .number 6)]
      rate := .entries [("status", .text "ok"), ("h_market", .number (-5))]
      price := .entries [("ask", .number ask), ("price", .number 9), ("session", .text "2026-10-16")] }
    verdictIs {} (indebted 9) .observar = true ∧ verdictIs {} (indebted 16) .compraPermitida = true) := by
  decide +kernel

end Sample

end C3po.Decisor
