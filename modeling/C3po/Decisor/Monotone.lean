import C3po.Decisor.Sound

/-! A worse input never yields a less strict verdict. -/

set_option autoImplicit false

namespace C3po.Decisor
open C3po.Investors (upper)
open C3po.Stored (Json written)
open C3po.Universe (strip)

variable {Digest : Type}

/-- Missing, or no lower than it was. -/
def Higher {Value : Type} [LE Value] (before after : Option Value) : Prop := ∀ value, after = some value → ∃ held, before = some held ∧ held ≤ value

/-- Missing, or no higher than it was. -/
def Lower {Value : Type} [LE Value] (before after : Option Value) : Prop := ∀ value, after = some value → ∃ held, before = some held ∧ value ≤ held

/-- Two mappings that agree but on one key. -/
def Only (key : String) (before after : Json Digest) : Prop := ∀ other, other ≠ key → after.get other = before.get other

section Worse
variable (setting : Setting Digest) (thresholds : DecisorThresholds) (facts : Facts Digest)

/-- The change of a field of the row clears no defect mark: no concern of a field that is not listed as one. -/
def KeepsDefect (key : String) (row : Json Digest) : Prop :=
  key ∈ thresholds.dataDefectFields → marked (facts.row.get key) = true → marked (row.get key) = true

inductive Worse : Facts Digest → Prop
  | olderTp (behind : Int) (older : facts.tpSessionsBehind ≤ behind) : Worse { facts with tpSessionsBehind := behind }
  | fundamentals (row : Json Digest) (only : Only "fundamentals_as_of" facts.row row) (kept : KeepsDefect thresholds facts "fundamentals_as_of" row)
      (older : Lower (dayOf setting (facts.row.get "fundamentals_as_of")) (dayOf setting (row.get "fundamentals_as_of"))) :
      Worse { facts with row := row }
  | dispersion (row : Json Digest) (only : Only "method_dispersion_percent" facts.row row)
      (kept : KeepsDefect thresholds facts "method_dispersion_percent" row)
      (larger : Higher (number setting (facts.row.get "method_dispersion_percent")) (number setting (row.get "method_dispersion_percent"))) :
      Worse { facts with row := row }
  | confidence (row : Json Digest) (only : Only "valuation_confidence" facts.row row) (kept : KeepsDefect thresholds facts "valuation_confidence" row)
      (lower : Lower (number setting (facts.row.get "valuation_confidence")) (number setting (row.get "valuation_confidence"))) :
      Worse { facts with row := row }
  | validation (key : String) (row : Json Digest) (field : key = "tp_validation_status" ∨ key = "signal_quality") (only : Only key facts.row row)
      (kept : KeepsDefect thresholds facts key row) (worse : validated thresholds { facts with row := row } = true → validated thresholds facts = true) :
      Worse { facts with row := row }
  | staleFlag (row : Json Digest) (only : Only "tp_stale" facts.row row) (kept : KeepsDefect thresholds facts "tp_stale" row)
      (worse : marked (facts.row.get "tp_stale") = true → marked (row.get "tp_stale") = true) : Worse { facts with row := row }
  | defect (field : String) (row : Json Digest) (only : Only field facts.row row) (listed : field ∈ thresholds.dataDefectFields)
      (set : marked (row.get field) = true) : Worse { facts with row := row }
  | cut (row : Json Digest) (only : Only "price" facts.row row) (missing : positive setting (row.get "price") = none) : Worse { facts with row := row }
  | market (row : Json Digest) (only : Only "official_market" facts.row row) (kept : KeepsDefect thresholds facts "official_market" row)
      (missing : row.get "official_market" = .null) (asked : stalenessStatus setting { facts with row := row } ≠ "not_applicable" ∨
        stalenessStatus setting facts = "not_applicable") : Worse { facts with row := row }
  | price (price : Json Digest) (unseen : observedPrice setting { facts with price := price } = none ∨
      sessionObserved setting { facts with price := price } = false) : Worse { facts with price := price }
  | ask (price : Json Digest) (only : Only "ask" facts.price price) (hurdle : ∀ rate, hMarket setting facts = some rate → -1 ≤ rate)
      (dearer : Higher (entryPrice setting facts) (entryPrice setting { facts with price := price })) : Worse { facts with price := price }
  | error (error : Json Digest) (larger : Higher (eProfile setting facts) (eProfile setting { facts with error := error })) :
      Worse { facts with error := error }
  | rate (rate : Json Digest) (larger : Higher (hMarket setting facts) (hMarket setting { facts with rate := rate })) : Worse { facts with rate := rate }
  | staleness (staleness : Json Digest) (asked : stalenessStatus setting { facts with staleness := staleness } ≠ "not_applicable")
      (worse : stalenessStatus setting { facts with staleness := staleness } ≠ "clear" ∨ text setting (staleness.get "source_status") ≠ some "ok") :
      Worse { facts with staleness := staleness }
  | events (events : Json Digest) (raised : eventGates setting thresholds facts ⊆ eventGates setting thresholds { facts with events := events }) :
      Worse { facts with events := events }

end Worse

section Vetoed
variable {setting : Setting Digest} {thresholds : DecisorThresholds} {facts : Facts Digest} {reference : Int}

theorem le_vetoed {verdict : Verdict} (gate : Gate Digest) {code : Code} (vetoes : code ∈ vetoCodes) (held : code ∈ gate.codes)
    (mem : gate ∈ gatesOf setting thresholds facts reference) : verdict ≤ worst (codesOf setting thresholds facts reference) := by
  have severity : code.severity = ⊤ := if_pos vetoes
  have known : code ∈ codesOf setting thresholds facts reference := List.mem_flatMap.mpr ⟨gate, mem, held⟩
  exact le_trans (severity ▸ le_top) (severity_le_worst known)

theorem worst_gates_le {first second : List (Gate Digest)} (each : List.Forall₂ (fun first second => worst first.codes ≤ worst second.codes) first second) :
    worst (first.flatMap Gate.codes) ≤ worst (second.flatMap Gate.codes) := by
  induction each with
  | nil => exact le_rfl
  | cons head _ ih =>
    rw [List.flatMap_cons, List.flatMap_cons, worst_append, worst_append]
    exact sup_le_sup head ih

end Vetoed

section Rows
variable {setting : Setting Digest} {thresholds : DecisorThresholds} {facts : Facts Digest} {reference : Int} {key : String} {row : Json Digest}

/-- The codes of the gate that reads a field of the row. -/
def ownCodes (setting : Setting Digest) (thresholds : DecisorThresholds) (reference : Int) (key : String) (facts : Facts Digest) : List Code :=
  if key = "tp_stale" then (staleFlagGate facts).codes
  else if key = "official_market" then (stalenessGate setting facts).codes
  else if key = "fundamentals_as_of" then (fundamentalsGate setting thresholds facts reference).codes
  else if key = "price" then (priceGate setting thresholds facts).codes
  else if key = "tp_validation_status" ∨ key = "signal_quality" then (validatedGate thresholds facts).codes
  else if key = "method_dispersion_percent" then (dispersionGate setting thresholds facts).codes
  else if key = "valuation_confidence" then (confidenceGate setting thresholds facts).codes
  else []

theorem staleFlagGate_only (only : Only key facts.row row) (other : key ≠ "tp_stale") :
    (staleFlagGate { facts with row := row }).codes = (staleFlagGate facts).codes := by
  simp only [staleFlagGate, only _ other.symm]

theorem stalenessStatus_only (only : Only key facts.row row) (other : key ≠ "official_market") :
    stalenessStatus setting { facts with row := row } = stalenessStatus setting facts := by
  unfold stalenessStatus
  rw [only _ other.symm]

theorem stalenessGate_only (only : Only key facts.row row) (other : key ≠ "official_market") :
    (stalenessGate setting { facts with row := row }).codes = (stalenessGate setting facts).codes := by
  unfold stalenessGate
  rw [stalenessStatus_only only other]

theorem fundamentalsGate_only (only : Only key facts.row row) (other : key ≠ "fundamentals_as_of") :
    (fundamentalsGate setting thresholds { facts with row := row } reference).codes = (fundamentalsGate setting thresholds facts reference).codes := by
  simp only [fundamentalsGate, only _ other.symm]

theorem priceGate_only (only : Only key facts.row row) (other : key ≠ "price") :
    (priceGate setting thresholds { facts with row := row }).codes = (priceGate setting thresholds facts).codes := by
  simp only [priceGate, priceMove, observedPrice, sessionObserved, only _ other.symm]

theorem validatedGate_only (only : Only key facts.row row) (other : ¬(key = "tp_validation_status" ∨ key = "signal_quality")) :
    (validatedGate thresholds { facts with row := row }).codes = (validatedGate thresholds facts).codes := by
  have field : statusField { facts with row := row } = statusField facts := by
    simp only [statusField, only _ (Ne.symm fun same => other (.inl same))]
  have status : row.get (statusField facts) = facts.row.get (statusField facts) := by
    refine only _ fun same => other ?_
    rw [← same]
    unfold statusField
    split <;> simp
  simp only [validatedGate, validated, field, status]

theorem dispersionGate_only (only : Only key facts.row row) (other : key ≠ "method_dispersion_percent") :
    (dispersionGate setting thresholds { facts with row := row }).codes = (dispersionGate setting thresholds facts).codes := by
  simp only [dispersionGate, only _ other.symm]

theorem confidenceGate_only (only : Only key facts.row row) (other : key ≠ "valuation_confidence") :
    (confidenceGate setting thresholds { facts with row := row }).codes = (confidenceGate setting thresholds facts).codes := by
  simp only [confidenceGate, only _ other.symm]

theorem entryGate_only (only : Only key facts.row row) (other : key ≠ "buy_in") :
    (entryGate setting { facts with row := row }).codes = (entryGate setting facts).codes := by
  simp only [entryGate, entryPrice, askPrice, observedPrice, only _ other.symm]

theorem marginGate_only (only : Only key facts.row row) (other : key ≠ "our_tp") :
    (marginGate setting { facts with row := row }).codes = (marginGate setting facts).codes := by
  have target : row.get "our_tp" = facts.row.get "our_tp" := only _ other.symm
  have priced : entryPrice setting { facts with row := row } = entryPrice setting facts := rfl
  have measured : eProfile setting { facts with row := row } = eProfile setting facts := rfl
  have rated : hMarket setting { facts with row := row } = hMarket setting facts := rfl
  unfold marginGate
  rw [priced, measured, rated, target]

theorem eventGates_only (only : Only key facts.row row) (other : key ≠ "official_market") :
    eventGates setting thresholds { facts with row := row } = eventGates setting thresholds facts := by
  have market : gatedMarket setting thresholds { facts with row := row } = gatedMarket setting thresholds facts := by
    unfold gatedMarket eventMarket
    rw [only _ other.symm]
  have gated : gatesHere setting thresholds { facts with row := row } = gatesHere setting thresholds facts := by
    funext code
    unfold gatesHere
    rw [market]
  unfold eventGates
  rw [gated]
  rfl

theorem defectGate_le (only : Only key facts.row row) (kept : KeepsDefect thresholds facts key row) :
    worst (defectGate thresholds facts).codes ≤ worst (defectGate thresholds { facts with row := row }).codes := by
  by_cases none : defectMarks thresholds facts = []
  · have passed : (defectGate thresholds facts).codes = [] := by simp [defectGate, none]
    rw [passed]
    exact bot_le
  · obtain ⟨field, mem⟩ := List.exists_mem_of_ne_nil _ none
    obtain ⟨known, set⟩ := List.mem_filter.mp mem
    have still : field ∈ defectMarks thresholds { facts with row := row } := by
      refine List.mem_filter.mpr ⟨known, ?_⟩
      by_cases own : field = key
      · exact own ▸ kept (own ▸ known) (own ▸ set)
      · rw [only field own]
        exact set
    have failed : (defectGate thresholds { facts with row := row }).codes = [.dataDefect] := by
      unfold defectGate raised
      rw [if_pos (decide_eq_true (List.ne_nil_of_mem still))]
    rw [failed]
    exact le_top

theorem worst_row_le (only : Only key facts.row row) (target : key ≠ "our_tp") (buyIn : key ≠ "buy_in") (kept : KeepsDefect thresholds facts key row)
    (own : worst (ownCodes setting thresholds reference key facts) ≤ worst (ownCodes setting thresholds reference key { facts with row := row })) :
    worst (codesOf setting thresholds facts reference) ≤ worst (codesOf setting thresholds { facts with row := row } reference) := by
  unfold ownCodes at own
  refine worst_gates_le ?_
  refine .cons ?_ (.cons ?_ (.cons le_rfl (.cons ?_ (.cons ?_ (.cons ?_ (.cons ?_ (.cons ?_ (.cons (defectGate_le only kept)
    (.cons le_rfl (.cons le_rfl (.cons (le_of_eq (congrArg worst (entryGate_only only buyIn).symm))
      (.cons (le_of_eq (congrArg worst (marginGate_only only target).symm)) .nil))))))))))))
  · by_cases same : key = "tp_stale"
    · simpa [same] using own
    · rw [staleFlagGate_only only same]
  · by_cases same : key = "official_market"
    · simpa [same] using own
    · rw [stalenessGate_only only same]
  · by_cases same : key = "fundamentals_as_of"
    · simpa [same] using own
    · rw [fundamentalsGate_only only same]
  · by_cases same : key = "price"
    · simpa [same] using own
    · rw [priceGate_only only same]
  · by_cases same : key = "tp_validation_status" ∨ key = "signal_quality"
    · rcases same with rfl | rfl <;> simpa using own
    · rw [validatedGate_only only same]
  · by_cases same : key = "method_dispersion_percent"
    · simpa [same] using own
    · rw [dispersionGate_only only same]
  · by_cases same : key = "valuation_confidence"
    · simpa [same] using own
    · rw [confidenceGate_only only same]

end Rows

section Own
variable {setting : Setting Digest} {thresholds : DecisorThresholds} {facts : Facts Digest} {reference : Int} {row : Json Digest}

theorem worst_raised (condition : Bool) (code : Code) : worst (raised condition code) ≤ code.severity := by
  cases condition with
  | false => exact bot_le
  | true => exact worst_le.mpr fun other mem => le_of_eq (congrArg Code.severity (List.mem_singleton.mp mem))

theorem worst_raised_le {first second : Bool} (code : Code) (implied : first = true → second = true) : worst (raised first code) ≤ worst (raised second code) := by
  cases first with
  | false => exact bot_le
  | true => rw [implied rfl]

theorem sessionAgeGate_le {behind : Int} (older : facts.tpSessionsBehind ≤ behind) :
    worst (sessionAgeGate thresholds facts).codes ≤ worst (sessionAgeGate thresholds { facts with tpSessionsBehind := behind }).codes :=
  worst_raised_le _ fun late => decide_eq_true (lt_of_lt_of_le (of_decide_eq_true late) older)

theorem fundamentalsGate_le (older : Lower (dayOf setting (facts.row.get "fundamentals_as_of")) (dayOf setting (row.get "fundamentals_as_of"))) :
    worst (fundamentalsGate setting thresholds facts reference).codes ≤
      worst (fundamentalsGate setting thresholds { facts with row := row } reference).codes := by
  unfold fundamentalsGate fundamentalsAgeDays
  dsimp only
  cases after : dayOf setting (row.get "fundamentals_as_of") with
  | none => exact le_top
  | some day =>
    obtain ⟨held, before, le⟩ := older day after
    rw [before]
    refine worst_raised_le _ fun late => decide_eq_true ?_
    have aged : max (reference - held) 0 ≤ max (reference - day) 0 := max_le_max (Int.sub_le_sub_left le reference) le_rfl
    exact lt_of_lt_of_le (of_decide_eq_true late) aged

theorem dispersionGate_le
    (larger : Higher (number setting (facts.row.get "method_dispersion_percent")) (number setting (row.get "method_dispersion_percent"))) :
    worst (dispersionGate setting thresholds facts).codes ≤ worst (dispersionGate setting thresholds { facts with row := row }).codes := by
  unfold dispersionGate
  dsimp only
  cases after : number setting (row.get "method_dispersion_percent") with
  | none => exact le_top
  | some dispersion =>
    obtain ⟨held, before, le⟩ := larger dispersion after
    rw [before]
    exact worst_raised_le _ fun high => decide_eq_true (lt_of_lt_of_le (of_decide_eq_true high) le)

theorem confidenceGate_le (lower : Lower (number setting (facts.row.get "valuation_confidence")) (number setting (row.get "valuation_confidence"))) :
    worst (confidenceGate setting thresholds facts).codes ≤ worst (confidenceGate setting thresholds { facts with row := row }).codes := by
  unfold confidenceGate
  dsimp only
  cases after : number setting (row.get "valuation_confidence") with
  | none => exact le_top
  | some confidence =>
    obtain ⟨held, before, le⟩ := lower confidence after
    rw [before]
    exact worst_raised_le _ fun low => decide_eq_true (lt_of_le_of_lt le (of_decide_eq_true low))

theorem validatedGate_le (worse : validated thresholds { facts with row := row } = true → validated thresholds facts = true) :
    worst (validatedGate thresholds facts).codes ≤ worst (validatedGate thresholds { facts with row := row }).codes := by
  refine worst_raised_le _ fun failed => ?_
  rw [Bool.not_eq_true'] at failed ⊢
  exact Bool.eq_false_iff.mpr fun passed => Bool.eq_false_iff.mp failed (worse passed)

theorem stalenessGate_le {staleness : Json Digest} (asked : stalenessStatus setting { facts with staleness := staleness } ≠ "not_applicable")
    (worse : stalenessStatus setting { facts with staleness := staleness } ≠ "clear" ∨ text setting (staleness.get "source_status") ≠ some "ok") :
    worst (stalenessGate setting facts).codes ≤ worst (stalenessGate setting { facts with staleness := staleness }).codes := by
  have observed : worst (stalenessGate setting facts).codes ≤ .observar := by
    unfold stalenessGate
    dsimp only
    split
    · rw [worst_append]
      refine sup_le (worst_raised _ _) ?_
      split
      · exact le_rfl
      · exact worst_raised _ _
    · exact worst_raised _ _
  refine le_trans observed (observar_le_worst fun passed => ?_)
  rcases stalenessGate_passed passed with exempt | ⟨clear, source⟩
  · exact asked exempt
  · exact worse.elim (fun unclear => unclear clear) fun dead => dead source

theorem stalenessStatus_market (missing : row.get "official_market" = .null)
    (asked : stalenessStatus setting { facts with row := row } ≠ "not_applicable" ∨ stalenessStatus setting facts = "not_applicable") :
    stalenessStatus setting { facts with row := row } = stalenessStatus setting facts := by
  have unexempt : upper (strip (written setting.toSetting ((row.get "official_market").orElse (.text "")))) ∉ usStalenessMarkets := by
    rw [missing]
    change upper (strip "") ∉ usStalenessMarkets
    decide
  unfold stalenessStatus at asked ⊢
  dsimp only at asked ⊢
  rw [if_neg fun both => unexempt both.2] at asked ⊢
  split
  · rename_i exempt
    rw [if_pos exempt] at asked
    exact (asked.elim (fun other => absurd exempt.1 other) fun same => absurd same (by decide))
  · rfl

theorem eventGates_market (missing : row.get "official_market" = .null) :
    eventGates setting thresholds facts ⊆ eventGates setting thresholds { facts with row := row } := by
  have gated : gatedMarket setting thresholds facts = true → gatedMarket setting thresholds { facts with row := row } = true := by
    unfold gatedMarket eventMarket
    cases marketOf setting (facts.events.get "market") with
    | some market => exact id
    | none =>
      intro _
      rw [missing]
      rfl
  intro code mem
  obtain ⟨known, here⟩ := List.mem_filter.mp mem
  refine List.mem_filter.mpr ⟨known, ?_⟩
  unfold gatesHere at here ⊢
  split
  · rename_i never
    rw [if_pos never] at here
    cases here
  · rename_i sometimes
    rw [if_neg sometimes] at here
    split
    · rename_i invalid
      rw [if_pos invalid] at here
      obtain ⟨status, listed, market⟩ := of_decide_eq_true here
      exact decide_eq_true ⟨status, listed, gated market⟩
    · rename_i other
      rw [if_neg other] at here
      obtain ⟨listed, market⟩ := of_decide_eq_true here
      exact decide_eq_true ⟨listed, market.imp_right gated⟩

end Own

section Margins
variable {setting : Setting Digest} {thresholds : DecisorThresholds} {facts : Facts Digest} {reference : Int}

def marginCodes (setting : Setting Digest) (facts : Facts Digest) : List Code :=
  (errorGate setting facts).codes ++ (rateGate setting facts).codes ++ (entryGate setting facts).codes ++ (marginGate setting facts).codes

theorem errorGate_le_observar : worst (errorGate setting facts).codes ≤ .observar := by
  unfold errorGate
  dsimp only
  split
  · exact le_rfl
  · exact worst_raised _ _

theorem marginGate_le_observar : worst (marginGate setting facts).codes ≤ .observar := by
  unfold marginGate
  dsimp only
  split
  · exact worst_raised _ _
  · exact bot_le

theorem marginCodes_le_observar : worst (marginCodes setting facts) ≤ .observar := by
  unfold marginCodes
  rw [worst_append, worst_append, worst_append]
  exact sup_le (sup_le (sup_le errorGate_le_observar (worst_raised _ _)) (worst_raised _ _)) marginGate_le_observar

theorem errorGate_of_measured {error : ℚ} (measured : eProfile setting facts = some error) : (errorGate setting facts).codes = [] := by
  have ok : hasStatus facts.error "ok" = true := by
    by_contra other
    rw [eProfile, if_neg other] at measured
    cases measured
  have warm : hasStatus facts.error "warming_up" = false := by
    unfold hasStatus at ok ⊢
    split at ok
    · rename_i status read
      rw [of_decide_eq_true ok]
      rfl
    · cases ok
  unfold errorGate
  simp [warm, measured]

theorem marginCodes_le {facts' : Facts Digest} {tp entry' : ℚ} (target : positive setting (facts.row.get "our_tp") = some tp)
    (row : facts'.row = facts.row) (priced : entryPrice setting facts' = some entry')
    (entries : Higher (entryPrice setting facts) (entryPrice setting facts')) (errors : Higher (eProfile setting facts) (eProfile setting facts'))
    (rates : Higher (hMarket setting facts) (hMarket setting facts'))
    (required : ∀ entry rate rate', entryPrice setting facts = some entry → hMarket setting facts = some rate → hMarket setting facts' = some rate' →
      entry * (1 + rate) ≤ entry' * (1 + rate')) : worst (marginCodes setting facts) ≤ worst (marginCodes setting facts') := by
  by_cases marginal : marginCodes setting facts' = []
  · have split := marginal
    unfold marginCodes at split
    simp only [List.append_eq_nil_iff] at split
    obtain ⟨⟨⟨error', rate'⟩, affordable'⟩, margin'⟩ := split
    obtain ⟨e', measured'⟩ := errorGate_passed error'
    obtain ⟨h', rated'⟩ := rateGate_passed rate'
    obtain ⟨buyIn, readBuyIn, paid⟩ := entryGate_passed priced affordable'
    obtain ⟨entry, before, cheaper⟩ := entries entry' priced
    obtain ⟨e, measured, smaller⟩ := errors e' measured'
    obtain ⟨h, rated, lower⟩ := rates h' rated'
    rw [row] at readBuyIn
    have kept : entry' * (1 + h') ≤ tp * (1 - e') := marginGate_passed priced (row ▸ target) measured' rated' margin'
    have tp0 : 0 < tp := of_decide_eq_true (Option.filter_eq_some_iff.mp target).2
    have enough : entry * (1 + h) ≤ tp * (1 - e) := by
      calc entry * (1 + h) ≤ entry' * (1 + h') := required entry h h' before rated rated'
        _ ≤ tp * (1 - e') := kept
        _ ≤ tp * (1 - e) := mul_le_mul_of_nonneg_left (by linarith) tp0.le
    have none : marginCodes setting facts = [] := by
      unfold marginCodes
      rw [errorGate_of_measured measured]
      simp only [List.nil_append, List.append_eq_nil_iff]
      refine ⟨⟨?_, ?_⟩, ?_⟩
      · simp [rateGate, rated]
      · simp [entryGate, before, readBuyIn, cheaper.trans paid]
      · simp [marginGate, before, target, measured, rated, enough]
    rw [none]
    exact bot_le
  · exact le_trans marginCodes_le_observar (observar_le_worst marginal)

/-- The codes of the gates before the margin's. -/
def frontCodes (setting : Setting Digest) (thresholds : DecisorThresholds) (reference : Int) (facts : Facts Digest) : List Code :=
  ((gatesOf setting thresholds facts reference).take 9).flatMap Gate.codes

theorem codesOf_eq : codesOf setting thresholds facts reference = frontCodes setting thresholds reference facts ++ marginCodes setting facts := by
  simp [codesOf, frontCodes, marginCodes, gatesOf]

theorem worst_margin_le {facts' : Facts Digest} {tp : ℚ} (target : positive setting (facts.row.get "our_tp") = some tp) (row : facts'.row = facts.row)
    (front : frontCodes setting thresholds reference facts' = frontCodes setting thresholds reference facts)
    (entries : Higher (entryPrice setting facts) (entryPrice setting facts')) (errors : Higher (eProfile setting facts) (eProfile setting facts'))
    (rates : Higher (hMarket setting facts) (hMarket setting facts'))
    (required : ∀ entry entry' rate rate', entryPrice setting facts = some entry → entryPrice setting facts' = some entry' →
      hMarket setting facts = some rate → hMarket setting facts' = some rate' → entry ≤ entry' → rate ≤ rate' →
      entry * (1 + rate) ≤ entry' * (1 + rate')) :
    worst (codesOf setting thresholds facts reference) ≤ worst (codesOf setting thresholds facts' reference) := by
  cases observed : observedPrice setting facts' with
  | none =>
    have unpriced : (priceGate setting thresholds facts').codes = [.priceUnavailable] := by simp [priceGate, priceMove, observed]
    have held : Code.priceUnavailable ∈ (priceGate setting thresholds facts').codes := by simp [unpriced]
    exact le_vetoed _ (by decide) held (by simp [gatesOf])
  | some price =>
    obtain ⟨entry', priced⟩ := entryPrice_of_observed observed
    rw [codesOf_eq, codesOf_eq, worst_append, worst_append, front]
    refine sup_le_sup le_rfl (marginCodes_le target row priced entries errors rates fun entry rate rate' before rated rated' => ?_)
    obtain ⟨held, same, cheaper⟩ := entries entry' priced
    obtain ⟨low, known, lower⟩ := rates rate' rated'
    rw [before] at same
    rw [rated] at known
    cases same
    cases known
    exact required entry entry' rate rate' before priced rated rated' cheaper lower

end Margins

section Each
variable {setting : Setting Digest} {thresholds : DecisorThresholds} {facts facts' : Facts Digest} {reference : Int}

theorem higher_refl {Value : Type} [Preorder Value] (value : Option Value) : Higher value value := fun held known => ⟨held, known, le_rfl⟩

theorem entryPrice_pos {entry : ℚ} (priced : entryPrice setting facts = some entry) : 0 < entry := by
  unfold entryPrice askPrice observedPrice at priced
  rcases Option.or_eq_some_iff.mp priced with asked | ⟨-, observed⟩
  · exact of_decide_eq_true (Option.filter_eq_some_iff.mp asked).2
  · exact of_decide_eq_true (Option.filter_eq_some_iff.mp observed).2

theorem Worse.le (worse : Worse setting thresholds facts facts') {tp : ℚ} (target : positive setting (facts.row.get "our_tp") = some tp) :
    worst (codesOf setting thresholds facts reference) ⊔ worst (eventGates setting thresholds facts) ≤
      worst (codesOf setting thresholds facts' reference) ⊔ worst (eventGates setting thresholds facts') := by
  cases worse with
  | olderTp behind older =>
    exact sup_le_sup (worst_gates_le (.cons le_rfl (.cons le_rfl (.cons (sessionAgeGate_le older) (List.forall₂_refl _))))) le_rfl
  | fundamentals row only kept older =>
    rw [eventGates_only only (by decide)]
    refine sup_le_sup (worst_row_le only (by decide) (by decide) kept ?_) le_rfl
    simpa [ownCodes] using fundamentalsGate_le older
  | dispersion row only kept larger =>
    rw [eventGates_only only (by decide)]
    refine sup_le_sup (worst_row_le only (by decide) (by decide) kept ?_) le_rfl
    simpa [ownCodes] using dispersionGate_le larger
  | confidence row only kept lower =>
    rw [eventGates_only only (by decide)]
    refine sup_le_sup (worst_row_le only (by decide) (by decide) kept ?_) le_rfl
    simpa [ownCodes] using confidenceGate_le lower
  | validation key row field only kept worse =>
    have other {name : String} (distinct : name ≠ "tp_validation_status" ∧ name ≠ "signal_quality") : key ≠ name := by
      rcases field with rfl | rfl
      · exact distinct.1.symm
      · exact distinct.2.symm
    rw [eventGates_only only (other (by decide))]
    refine sup_le_sup (worst_row_le only (other (by decide)) (other (by decide)) kept ?_) le_rfl
    rcases field with rfl | rfl <;> simpa [ownCodes] using validatedGate_le worse
  | staleFlag row only kept worse =>
    rw [eventGates_only only (by decide)]
    refine sup_le_sup (worst_row_le only (by decide) (by decide) kept ?_) le_rfl
    simpa [ownCodes, staleFlagGate] using worst_raised_le .tpStaleFlag worse
  | defect field row only listed set =>
    have marks : field ∈ defectMarks thresholds { facts with row := row } := List.mem_filter.mpr ⟨listed, set⟩
    have failed : (defectGate thresholds { facts with row := row }).codes = [.dataDefect] := by
      unfold defectGate raised
      rw [if_pos (decide_eq_true (List.ne_nil_of_mem marks))]
    have held : Code.dataDefect ∈ (defectGate thresholds { facts with row := row }).codes := by simp [failed]
    exact le_sup_of_le_left (le_vetoed _ (by decide) held (by simp [gatesOf]))
  | cut row only missing =>
    have failed : (priceGate setting thresholds { facts with row := row }).codes = [.priceUnavailable] := by simp [priceGate, priceMove, missing]
    have held : Code.priceUnavailable ∈ (priceGate setting thresholds { facts with row := row }).codes := by simp [failed]
    exact le_sup_of_le_left (le_vetoed _ (by decide) held (by simp [gatesOf]))
  | market row only kept missing asked =>
    refine sup_le_sup (worst_row_le only (by decide) (by decide) kept ?_) (worst_mono (eventGates_market missing))
    have status := stalenessStatus_market missing asked
    have codes : (stalenessGate setting { facts with row := row }).codes = (stalenessGate setting facts).codes := by
      unfold stalenessGate
      rw [status]
    simp [ownCodes, codes]
  | price price unseen =>
    have failed : ∃ code ∈ vetoCodes, code ∈ (priceGate setting thresholds { facts with price := price }).codes := by
      unfold priceGate priceMove
      dsimp only
      rcases unseen with missing | stale
      · rw [missing]
        exact ⟨.priceUnavailable, by decide, by simp⟩
      · rw [stale]
        split
        · exact ⟨.priceUnavailable, by decide, by simp⟩
        · exact ⟨.priceSessionStale, by decide, by simp [raised]⟩
    obtain ⟨code, vetoes, held⟩ := failed
    exact le_sup_of_le_left (le_vetoed _ vetoes held (by simp [gatesOf]))
  | ask price only hurdle dearer =>
    have observed : observedPrice setting { facts with price := price } = observedPrice setting facts := by
      unfold observedPrice
      rw [only _ (by decide)]
    have seen : sessionObserved setting { facts with price := price } = sessionObserved setting facts := by
      unfold sessionObserved
      rw [only _ (by decide)]
    have gate : (priceGate setting thresholds { facts with price := price }).codes = (priceGate setting thresholds facts).codes := by
      unfold priceGate priceMove
      rw [observed, seen]
    refine sup_le_sup (worst_margin_le target rfl ?_ dearer (higher_refl _) (higher_refl _)
      fun entry entry' rate rate' _ priced rated rated' cheaper lower => ?_) le_rfl
    · simp only [frontCodes, gatesOf, List.take_succ_cons, List.take_zero, List.flatMap_cons, gate]
      rfl
    · have hurdle' := hurdle rate rated
      have same : rate = rate' := Option.some.inj (rated.symm.trans rated')
      rw [← same]
      exact mul_le_mul_of_nonneg_right cheaper (by linarith)
  | error error larger =>
    refine sup_le_sup (worst_margin_le target rfl rfl (higher_refl _) larger (higher_refl _)
      fun entry entry' rate rate' before priced rated rated' cheaper lower => ?_) le_rfl
    have same : rate = rate' := Option.some.inj (rated.symm.trans rated')
    have equal : entry = entry' := Option.some.inj (before.symm.trans priced)
    rw [same, equal]
  | rate rate larger =>
    refine sup_le_sup (worst_margin_le target rfl rfl (higher_refl _) (higher_refl _) larger
      fun entry entry' rate rate' before priced rated rated' cheaper lower => ?_) le_rfl
    have equal : entry = entry' := Option.some.inj (before.symm.trans priced)
    rw [equal]
    exact mul_le_mul_of_nonneg_left (by linarith) (entryPrice_pos priced).le
  | staleness staleness asked worse =>
    exact sup_le_sup (worst_gates_le (.cons le_rfl (.cons (stalenessGate_le asked worse) (List.forall₂_refl _)))) le_rfl
  | events events raised => exact sup_le_sup le_rfl (worst_mono raised)

end Each

end C3po.Decisor
