import C3po.Decisor.Decide

/-! What a permission stands on: the verdict is the strictest of its codes, so that a permission has
none and every gate was answered.
-/

set_option autoImplicit false

namespace C3po.Decisor
open C3po.Investors (upper)
open C3po.Stored (Json written)
open C3po.Universe (strip)

section Worst

def Code.severity (code : Code) : Verdict := if code ∈ vetoCodes then .veto else .observar

def worst (codes : List Code) : Verdict := (Multiset.ofList (codes.map Code.severity)).sup

@[simp] theorem worst_nil : worst [] = ⊥ := rfl

theorem worst_append (first second : List Code) : worst (first ++ second) = worst first ⊔ worst second := by
  unfold worst
  rw [List.map_append, ← Multiset.coe_add, Multiset.sup_add]

theorem worst_le {codes : List Code} {verdict : Verdict} : worst codes ≤ verdict ↔ ∀ code ∈ codes, code.severity ≤ verdict := by
  unfold worst
  rw [Multiset.sup_le]
  simp only [Multiset.mem_coe, List.forall_mem_map]

theorem severity_le_worst {codes : List Code} {code : Code} (mem : code ∈ codes) : code.severity ≤ worst codes := worst_le.mp le_rfl code mem

theorem worst_mono {first second : List Code} (subset : first ⊆ second) : worst first ≤ worst second :=
  worst_le.mpr fun _ mem => severity_le_worst (subset mem)

theorem observar_le_worst {codes : List Code} (some : codes ≠ []) : .observar ≤ worst codes := by
  obtain ⟨code, mem⟩ := List.exists_mem_of_ne_nil codes some
  have least : .observar ≤ code.severity := by
    unfold Code.severity
    split <;> decide
  exact le_trans least (severity_le_worst mem)

theorem verdictOf_fst (codes : List Code) : (verdictOf codes).1 = worst codes := by
  unfold verdictOf
  split
  · rename_i vetoed
    obtain ⟨code, mem, vetoes⟩ := List.any_eq_true.mp vetoed
    have severity : code.severity = .veto := if_pos (of_decide_eq_true vetoes)
    exact le_antisymm (severity ▸ severity_le_worst mem) le_top
  · rename_i clean
    split
    · rename_i some
      refine le_antisymm (observar_le_worst some) (worst_le.mpr fun code mem => ?_)
      have observed : code ∉ vetoCodes := fun vetoes => clean (List.any_eq_true.mpr ⟨code, mem, decide_eq_true vetoes⟩)
      exact le_of_eq (if_neg observed)
    · rename_i none
      rw [not_not.mp none]
      rfl

end Worst

section Decided
variable {Digest : Type} (setting : Setting Digest) (thresholds : DecisorThresholds) (facts : Facts Digest)

def codesOf (reference : Int) : List Code := (gatesOf setting thresholds facts reference).flatMap Gate.codes

theorem decide_ok {outcome : Outcome Digest} (decided : decide setting thresholds facts = .ok outcome) :
    ∃ reference, setting.fromisoformat facts.expectedSession = some reference ∧
      outcome.verdictWithoutEvents = worst (codesOf setting thresholds facts reference) ∧
      outcome.verdict = worst (codesOf setting thresholds facts reference) ⊔ worst (eventGates setting thresholds facts) := by
  unfold decide at decided
  split at decided
  · cases decided
  · rename_i reference read
    cases decided
    refine ⟨reference, read, verdictOf_fst _, ?_⟩
    rw [← worst_append]
    exact verdictOf_fst _

structure Permitted (reference : Int) : Prop where
  unflagged : marked (facts.row.get "tp_stale") = false
  filings : stalenessStatus setting facts = "not_applicable" ∨
    (stalenessStatus setting facts = "clear" ∧ text setting (facts.staleness.get "source_status") = some "ok")
  session : facts.tpSessionsBehind ≤ thresholds.maxTpAgeSessions
  fundamentals : ∃ age, fundamentalsAgeDays setting (facts.row.get "fundamentals_as_of") reference = some age ∧
    age ≤ thresholds.fundamentalsQuarterDays + thresholds.fundamentalsGraceDays
  price : ∃ observed cut, observedPrice setting facts = some observed ∧ positive setting (facts.row.get "price") = some cut ∧
    |observed / cut - 1| * 100 ≤ thresholds.maxPriceMovePercent
  priceSession : ∃ session, text setting (facts.price.get "session") = some session ∧ facts.expectedSession ≤ session
  validated : facts.row.get (statusField facts) = .text thresholds.validatedStatus
  dispersion : ∃ dispersion, number setting (facts.row.get "method_dispersion_percent") = some dispersion ∧
    dispersion ≤ thresholds.maxMethodDispersionPercent
  confidence : ∃ confidence, number setting (facts.row.get "valuation_confidence") = some confidence ∧ thresholds.minValuationConfidence ≤ confidence
  sound : ∀ field ∈ thresholds.dataDefectFields, marked (facts.row.get field) = false
  margin : ∃ tp buyIn entry error rate, positive setting (facts.row.get "our_tp") = some tp ∧ positive setting (facts.row.get "buy_in") = some buyIn ∧
    entryPrice setting facts = some entry ∧ eProfile setting facts = some error ∧ hMarket setting facts = some rate ∧
    entry ≤ buyIn ∧ entry * (1 + rate) ≤ tp * (1 - error)

end Decided

section Gates
variable {Digest : Type} {setting : Setting Digest} {thresholds : DecisorThresholds} {facts : Facts Digest}

@[simp] theorem raised_eq_nil {condition : Bool} {code : Code} : raised condition code = [] ↔ condition = false := by
  cases condition <;> simp [raised]

theorem stalenessGate_passed (passed : (stalenessGate setting facts).codes = []) : stalenessStatus setting facts = "not_applicable" ∨
    (stalenessStatus setting facts = "clear" ∧ text setting (facts.staleness.get "source_status") = some "ok") := by
  unfold stalenessGate at passed
  dsimp only at passed
  split at passed
  · rename_i known
    rw [List.append_eq_nil_iff, raised_eq_nil] at passed
    obtain ⟨clear, source⟩ := passed
    refine .inr ⟨known.resolve_left (by simpa using clear), ?_⟩
    split at source
    · cases source
    · simpa using source
  · exact .inl (by simpa using passed)

theorem fundamentalsGate_passed {reference : Int} (passed : (fundamentalsGate setting thresholds facts reference).codes = []) :
    ∃ age, fundamentalsAgeDays setting (facts.row.get "fundamentals_as_of") reference = some age ∧
      age ≤ thresholds.fundamentalsQuarterDays + thresholds.fundamentalsGraceDays := by
  unfold fundamentalsGate at passed
  dsimp only at passed
  split at passed
  · cases passed
  · rename_i age dated
    exact ⟨age, dated, by simpa using passed⟩

theorem priceGate_passed (passed : (priceGate setting thresholds facts).codes = []) :
    (∃ observed cut, observedPrice setting facts = some observed ∧ positive setting (facts.row.get "price") = some cut ∧
      |observed / cut - 1| * 100 ≤ thresholds.maxPriceMovePercent) ∧
    ∃ session, text setting (facts.price.get "session") = some session ∧ facts.expectedSession ≤ session := by
  unfold priceGate priceMove at passed
  dsimp only at passed
  split at passed
  · cases passed
  · rename_i move moved
    split at moved
    · rename_i observed cut readObserved readCut
      cases moved
      rw [List.append_eq_nil_iff, raised_eq_nil, raised_eq_nil] at passed
      obtain ⟨seen, near⟩ := passed
      refine ⟨⟨observed, cut, readObserved, readCut, by simpa using near⟩, ?_⟩
      unfold sessionObserved at seen
      simpa [Option.any_eq_true] using seen
    · cases moved

theorem validatedGate_passed (passed : (validatedGate thresholds facts).codes = []) :
    facts.row.get (statusField facts) = .text thresholds.validatedStatus := by
  have accepted : validated thresholds facts = true := by simpa [validatedGate] using passed
  unfold validated at accepted
  split at accepted
  · rename_i status read
    rw [read, of_decide_eq_true accepted]
  · cases accepted

theorem dispersionGate_passed (passed : (dispersionGate setting thresholds facts).codes = []) :
    ∃ dispersion, number setting (facts.row.get "method_dispersion_percent") = some dispersion ∧
      dispersion ≤ thresholds.maxMethodDispersionPercent := by
  unfold dispersionGate at passed
  dsimp only at passed
  split at passed
  · cases passed
  · rename_i dispersion read
    exact ⟨dispersion, read, by simpa using passed⟩

theorem confidenceGate_passed (passed : (confidenceGate setting thresholds facts).codes = []) :
    ∃ confidence, number setting (facts.row.get "valuation_confidence") = some confidence ∧ thresholds.minValuationConfidence ≤ confidence := by
  unfold confidenceGate at passed
  dsimp only at passed
  split at passed
  · cases passed
  · rename_i confidence read
    exact ⟨confidence, read, by simpa using passed⟩

theorem defectGate_passed (passed : (defectGate thresholds facts).codes = []) (field : String) (mem : field ∈ thresholds.dataDefectFields) :
    marked (facts.row.get field) = false := by
  have unmarked : defectMarks thresholds facts = [] := by simpa [defectGate] using passed
  simpa using List.filter_eq_nil_iff.mp unmarked field mem

theorem errorGate_passed (passed : (errorGate setting facts).codes = []) : ∃ error, eProfile setting facts = some error := by
  unfold errorGate at passed
  dsimp only at passed
  split at passed
  · cases passed
  · exact Option.ne_none_iff_exists'.mp (by simpa using passed)

theorem rateGate_passed (passed : (rateGate setting facts).codes = []) : ∃ rate, hMarket setting facts = some rate := by
  unfold rateGate at passed
  exact Option.ne_none_iff_exists'.mp (by simpa using passed)

theorem entryPrice_of_observed {observed : ℚ} (read : observedPrice setting facts = some observed) :
    ∃ entry, entryPrice setting facts = some entry := by
  unfold entryPrice
  cases askPrice setting facts with
  | none => exact ⟨observed, read⟩
  | some ask => exact ⟨ask, rfl⟩

theorem entryGate_passed {entry : ℚ} (priced : entryPrice setting facts = some entry) (passed : (entryGate setting facts).codes = []) :
    ∃ buyIn, positive setting (facts.row.get "buy_in") = some buyIn ∧ entry ≤ buyIn := by
  unfold entryGate at passed
  rw [priced] at passed
  dsimp only at passed
  split at passed
  · rename_i found buyIn same read
    cases same
    exact ⟨buyIn, read, by simpa using passed⟩
  · simp at passed

theorem marginGate_passed {entry tp error rate : ℚ} (priced : entryPrice setting facts = some entry)
    (target : positive setting (facts.row.get "our_tp") = some tp) (measured : eProfile setting facts = some error)
    (rated : hMarket setting facts = some rate) (passed : (marginGate setting facts).codes = []) : entry * (1 + rate) ≤ tp * (1 - error) := by
  unfold marginGate at passed
  rw [priced, target, measured, rated] at passed
  simpa using passed

theorem permitted_of_codes {reference : Int} {tp : ℚ} (target : positive setting (facts.row.get "our_tp") = some tp)
    (none : codesOf setting thresholds facts reference = []) : Permitted setting thresholds facts reference := by
  simp only [codesOf, gatesOf, List.flatMap_cons, List.flatMap_nil, List.append_nil, List.append_eq_nil_iff] at none
  obtain ⟨flag, filings, age, fundamentals, price, validated, dispersion, confidence, defect, error, rate, entry, margin⟩ := none
  obtain ⟨⟨observed, cut, readObserved, readCut, near⟩, seen⟩ := priceGate_passed price
  obtain ⟨paid, priced⟩ := entryPrice_of_observed readObserved
  obtain ⟨buyIn, readBuyIn, affordable⟩ := entryGate_passed priced entry
  obtain ⟨measured, error⟩ := errorGate_passed error
  obtain ⟨rated, rate⟩ := rateGate_passed rate
  exact
    { unflagged := by simpa [staleFlagGate] using flag
      filings := stalenessGate_passed filings
      session := by simpa [sessionAgeGate] using age
      fundamentals := fundamentalsGate_passed fundamentals
      price := ⟨observed, cut, readObserved, readCut, near⟩
      priceSession := seen
      validated := validatedGate_passed validated
      dispersion := dispersionGate_passed dispersion
      confidence := confidenceGate_passed confidence
      sound := defectGate_passed defect
      margin := ⟨tp, buyIn, paid, measured, rated, target, readBuyIn, priced, error, rate, affordable,
        marginGate_passed priced target error rate margin⟩ }

end Gates

end C3po.Decisor
