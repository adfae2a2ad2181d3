import Mathlib.Data.Multiset.Lattice
import C3po.Investors.Queue
import C3po.Stored.Prediction

/-! What the decisor is handed and how it reads it: the settings of a run, the codes of its gates
and the verdicts in the order of their strictness.
-/

set_option autoImplicit false

namespace C3po.Decisor
open C3po.Investors (upper)
open C3po.Stored (Json textOrNone written)
open C3po.Universe (strip)

/-- A verdict, the strictest last. -/
inductive Verdict where
  | compraPermitida
  | observar
  | veto
  deriving DecidableEq, Repr

def Verdict.strictness : Verdict → ℕ
  | .compraPermitida => 0
  | .observar => 1
  | .veto => 2

instance : LinearOrder Verdict := LinearOrder.lift' Verdict.strictness (by
  intro first second same
  cases first <;> cases second <;> first | rfl | cases same)

instance : BoundedOrder Verdict where
  top := .veto
  le_top verdict := by cases verdict <;> decide
  bot := .compraPermitida
  bot_le verdict := by cases verdict <;> decide

def Verdict.text : Verdict → String
  | .compraPermitida => "COMPRA_PERMITIDA"
  | .observar => "OBSERVAR"
  | .veto => "VETO"

/-- The reasons of a verdict: the gates that fail, the events raised, or that nothing fails. -/
inductive Code where
  | allGatesPassed
  | tpStaleFlag
  | tpSessionStale
  | fundamentalsStale
  | fundamentalsDateUnknown
  | priceUnavailable
  | priceSessionStale
  | priceMovedSinceCut
  | notValidated
  | methodDispersionHigh
  | methodDispersionUnknown
  | confidenceLow
  | confidenceUnknown
  | dataDefect
  | eProfileWarmingUp
  | eProfileUnavailable
  | marketRateUnavailable
  | priceAboveBuyIn
  | tpMarginInsufficient
  | tpStaleAfterFiling
  | stalenessSourceUnavailable
  | stalenessSourceStale
  | earningsWithinN
  | earningsCalendarRowInvalid
  | earningsDateEstimated
  | earningsCalendarUnavailable
  | consensusEpsCut30d
  | newsSentimentNegative
  deriving DecidableEq, Repr

def Code.text : Code → String
  | .allGatesPassed => "ALL_GATES_PASSED"
  | .tpStaleFlag => "TP_STALE_FLAG"
  | .tpSessionStale => "TP_SESSION_STALE"
  | .fundamentalsStale => "FUNDAMENTALS_STALE"
  | .fundamentalsDateUnknown => "FUNDAMENTALS_DATE_UNKNOWN"
  | .priceUnavailable => "PRICE_UNAVAILABLE"
  | .priceSessionStale => "PRICE_SESSION_STALE"
  | .priceMovedSinceCut => "PRICE_MOVED_SINCE_CUT"
  | .notValidated => "NOT_VALIDATED"
  | .methodDispersionHigh => "METHOD_DISPERSION_HIGH"
  | .methodDispersionUnknown => "METHOD_DISPERSION_UNKNOWN"
  | .confidenceLow => "CONFIDENCE_LOW"
  | .confidenceUnknown => "CONFIDENCE_UNKNOWN"
  | .dataDefect => "DATA_DEFECT"
  | .eProfileWarmingUp => "E_PROFILE_WARMING_UP"
  | .eProfileUnavailable => "E_PROFILE_UNAVAILABLE"
  | .marketRateUnavailable => "MARKET_RATE_UNAVAILABLE"
  | .priceAboveBuyIn => "PRICE_ABOVE_BUY_IN"
  | .tpMarginInsufficient => "TP_MARGIN_INSUFFICIENT"
  | .tpStaleAfterFiling => "TP_STALE_AFTER_FILING"
  | .stalenessSourceUnavailable => "STALENESS_SOURCE_UNAVAILABLE"
  | .stalenessSourceStale => "STALENESS_SOURCE_STALE"
  | .earningsWithinN => "EARNINGS_WITHIN_N"
  | .earningsCalendarRowInvalid => "EARNINGS_CALENDAR_ROW_INVALID"
  | .earningsDateEstimated => "EARNINGS_DATE_ESTIMATED"
  | .earningsCalendarUnavailable => "EARNINGS_CALENDAR_UNAVAILABLE"
  | .consensusEpsCut30d => "CONSENSUS_EPS_CUT_30D"
  | .newsSentimentNegative => "NEWS_SENTIMENT_NEGATIVE"

def vetoCodes : List Code :=
  [.tpStaleFlag, .tpSessionStale, .fundamentalsStale, .fundamentalsDateUnknown, .priceUnavailable, .priceSessionStale, .priceMovedSinceCut,
   .notValidated, .methodDispersionHigh, .methodDispersionUnknown, .confidenceLow, .confidenceUnknown, .dataDefect]

def neverGates : List Code := [.newsSentimentNegative]

def usStalenessMarkets : List String := ["NASDAQ", "NYSE", "US"]

/-- The settings a verdict depends on. -/
structure DecisorThresholds where
  maxTpAgeSessions : Int := 1
  fundamentalsQuarterDays : Int := 92
  fundamentalsGraceDays : Int := 45
  maxPriceMovePercent : ℚ := 5
  validatedStatus : String := "validated"
  maxMethodDispersionPercent : ℚ := 45
  minValuationConfidence : ℚ := 70
  dataDefectFields : List String := ["data_defect", "data_defects"]
  insertMarginSeconds : Int := 60
  stalenessPollSource : String := "sec_asfiled"
  stalenessPollMaxAgeHours : Int := 6
  earningsGateMarkets : List String := ["NASDAQ", "NYSE"]
  consensusEpsCutLog : ℚ := 1 / 20
  newsSentimentBearishMinPercent : ℚ := 60
  newsSentimentMinArticles : ℚ := 5
  newsSentimentMaxAgeDays : ℚ := 8
  eventGates : List Code := [.earningsWithinN]

/-- What the decisor asks besides: the day that an ISO date is. -/
structure Setting (Digest : Type) extends Stored.Setting Digest where
  fromisoformat : String → Option Int

section Reading
variable {Digest : Type}

def listed (items : List (Json Digest)) : Json Digest := .array items.length items.get

def mappingsOf : Json Digest → List (Json Digest)
  | .array _ items => (List.ofFn items).filter Json.isObject
  | _ => []

/-- A mapping, or an empty one in place of what is none. -/
def mappingOf (value : Json Digest) : Json Digest := if value.isObject then value else .entries []

variable (setting : Setting Digest)

/-- A finite number; a truth value is none. -/
def number : Json Digest → Option ℚ
  | .number value => some value
  | .integer value => some value
  | .text value => setting.float value
  | _ => none

def positive (value : Json Digest) : Option ℚ := (number setting value).filter fun number => 0 < number

def text (value : Json Digest) : Option String := textOrNone setting.toSetting value

/-- Whether a mark is set: as data, or as a text that does not deny it. -/
def marked : Json Digest → Bool
  | .text value =>
      strip value ≠ "" ∧ String.ofList ((strip value).toList.map Char.toLower) ∉ ["false", "0", "none", "no"]
  | value => value.truthy

def dayOf (value : Json Digest) : Option Int :=
  (text setting value).bind fun text => setting.fromisoformat (String.ofList (text.toList.take 10))

def fundamentalsAgeDays (value : Json Digest) (reference : Int) : Option Int := (dayOf setting value).map fun day => max (reference - day) 0

def marketOf (value : Json Digest) : Option String := (text setting value).map fun market => upper (strip market)

end Reading

/-! The verdict of one served row: the codes its gates fail with, in the order they are evaluated,
and the event codes that withhold a permission.
-/

variable {Digest : Type}

/-- What the decisor is handed of one name: its served row and the facts measured for it. -/
structure Facts (Digest : Type) where
  row : Json Digest
  expectedSession : String
  tpSessionsBehind : Int
  price : Json Digest
  error : Json Digest
  rate : Json Digest
  staleness : Json Digest
  events : Json Digest

/-- The codes a gate fails with, and what it records of itself. -/
structure Gate (Digest : Type) where
  codes : List Code
  checks : List (String × Json Digest) := []

def raised (condition : Bool) (code : Code) : List Code := if condition then [code] else []

section Gates
variable (setting : Setting Digest) (thresholds : DecisorThresholds) (facts : Facts Digest)

def staleFlagGate : Gate Digest where
  codes := raised (marked (facts.row.get "tp_stale")) .tpStaleFlag
  checks := [("tp_stale_flag", .entries [("pass", .bool !marked (facts.row.get "tp_stale")), ("value", facts.row.get "tp_stale")])]

/-- The state of the name after the filings; a row of a US market is never exempt from the question. -/
def stalenessStatus : String :=
  let status := written setting.toSetting ((facts.staleness.get "status").orElse (.text ""))
  if status = "not_applicable" ∧ upper (strip (written setting.toSetting ((facts.row.get "official_market").orElse (.text "")))) ∈ usStalenessMarkets then
    "unavailable"
  else status

def stalenessGate : Gate Digest :=
  let status := stalenessStatus setting facts
  let source := text setting (facts.staleness.get "source_status")
  { codes :=
      if status = "stale" ∨ status = "clear" then
        raised (status = "stale") .tpStaleAfterFiling ++
          (if source = some "stale" then [.stalenessSourceStale] else raised (source ≠ some "ok") .stalenessSourceUnavailable)
      else raised (status ≠ "not_applicable") .stalenessSourceUnavailable
    checks := [("tp_staleness", .entries
      [("pass", if status = "not_applicable" then .null else .bool (status = "clear" ∧ source = some "ok")),
       ("status", .text status), ("source_status", .ofText source),
       ("filings", listed (mappingsOf (facts.staleness.get "filings"))), ("trigger_poll", facts.staleness.get "trigger_poll"),
       ("detail", facts.staleness.get "detail")])] }

def sessionAgeGate : Gate Digest where
  codes := raised (thresholds.maxTpAgeSessions < facts.tpSessionsBehind) .tpSessionStale
  checks := [("tp_session_age", .entries
    [("pass", .bool (facts.tpSessionsBehind ≤ thresholds.maxTpAgeSessions)), ("sessions_behind", .integer facts.tpSessionsBehind),
     ("limit", .integer thresholds.maxTpAgeSessions), ("tp_session", facts.row.get "official_session_date"),
     ("expected_session", .text facts.expectedSession)])]

def fundamentalsGate (reference : Int) : Gate Digest :=
  let limit := thresholds.fundamentalsQuarterDays + thresholds.fundamentalsGraceDays
  let age := fundamentalsAgeDays setting (facts.row.get "fundamentals_as_of") reference
  { codes :=
      match age with
      | none => [.fundamentalsDateUnknown]
      | some age => raised (limit < age) .fundamentalsStale
    checks := [("fundamentals_age", .entries
      [("pass", .bool (age.any (· ≤ limit))), ("fundamentals_as_of", .ofText (text setting (facts.row.get "fundamentals_as_of"))),
       ("age_days", .ofInteger age), ("limit_days", .integer limit)])] }

def observedPrice : Option ℚ := positive setting (facts.price.get "price")

/-- How far the price moved since the cut, in percent. -/
def priceMove : Option ℚ :=
  match observedPrice setting facts, positive setting (facts.row.get "price") with
  | some observed, some cut => some (|observed / cut - 1| * 100)
  | _, _ => none

/-- Whether the price was observed since the last completed session closed. -/
def sessionObserved : Bool := (text setting (facts.price.get "session")).any (facts.expectedSession ≤ ·)

def priceGate : Gate Digest :=
  let observed := observedPrice setting facts
  let move := priceMove setting facts
  { codes :=
      match move with
      | none => [.priceUnavailable]
      | some move => raised (!sessionObserved setting facts) .priceSessionStale ++ raised (thresholds.maxPriceMovePercent < move) .priceMovedSinceCut
    checks :=
      [("price_move", .entries
        [("pass", .bool (move.any (· ≤ thresholds.maxPriceMovePercent))), ("cut_price", .ofNumber (positive setting (facts.row.get "price"))),
         ("price", .ofNumber observed), ("move_percent", .ofNumber move), ("limit_percent", .number thresholds.maxPriceMovePercent),
         ("price_source", facts.price.get "source")]),
       ("price_session", .entries
        [("pass", if observed.isSome then .bool (sessionObserved setting facts) else .null),
         ("price_session", .ofText (text setting (facts.price.get "session"))), ("expected_session", .text facts.expectedSession),
         ("price_source", facts.price.get "source")])] }

/-- The field a row is validated by: the producer's own, else the quality of its signal. -/
def statusField : String :=
  match facts.row.get "tp_validation_status" with
  | .null => "signal_quality"
  | _ => "tp_validation_status"

def validated : Bool :=
  match facts.row.get (statusField facts) with
  | .text status => status = thresholds.validatedStatus
  | _ => false

def validatedGate : Gate Digest where
  codes := raised (!validated thresholds facts) .notValidated
  checks := [("validated", .entries
    [("pass", .bool (validated thresholds facts)), ("field", .text (statusField facts)), ("value", facts.row.get (statusField facts))])]

def dispersionGate : Gate Digest :=
  let dispersion := number setting (facts.row.get "method_dispersion_percent")
  { codes :=
      match dispersion with
      | none => [.methodDispersionUnknown]
      | some dispersion => raised (thresholds.maxMethodDispersionPercent < dispersion) .methodDispersionHigh
    checks := [("method_dispersion", .entries
      [("pass", .bool (dispersion.any (· ≤ thresholds.maxMethodDispersionPercent))), ("value", .ofNumber dispersion),
       ("limit", .number thresholds.maxMethodDispersionPercent)])] }

def confidenceGate : Gate Digest :=
  let confidence := number setting (facts.row.get "valuation_confidence")
  { codes :=
      match confidence with
      | none => [.confidenceUnknown]
      | some confidence => raised (confidence < thresholds.minValuationConfidence) .confidenceLow
    checks := [("confidence", .entries
      [("pass", .bool (confidence.any (thresholds.minValuationConfidence ≤ ·))), ("value", .ofNumber confidence),
       ("limit", .number thresholds.minValuationConfidence)])] }

def defectMarks : List String := thresholds.dataDefectFields.filter fun field => marked (facts.row.get field)

def defectGate : Gate Digest where
  codes := raised (defectMarks thresholds facts ≠ []) .dataDefect
  checks := [("data_defects", .entries
    [("pass", .bool (defectMarks thresholds facts = [])),
     ("marks", .entries ((defectMarks thresholds facts).map fun field => (field, facts.row.get field))),
     ("fields", listed (thresholds.dataDefectFields.map .text))])]

def hasStatus (fact : Json Digest) (status : String) : Bool :=
  match fact.get "status" with
  | .text value => value = status
  | _ => false

def eProfile : Option ℚ := if hasStatus facts.error "ok" then number setting (facts.error.get "value") else none

def hMarket : Option ℚ := if hasStatus facts.rate "ok" then number setting (facts.rate.get "h_market") else none

def errorGate : Gate Digest where
  codes :=
    if hasStatus facts.error "warming_up" then [.eProfileWarmingUp] else raised (eProfile setting facts = none) .eProfileUnavailable

def rateGate : Gate Digest where
  codes := raised (hMarket setting facts = none) .marketRateUnavailable

def askPrice : Option ℚ := positive setting (facts.price.get "ask")

def entryPrice : Option ℚ := (askPrice setting facts).or (observedPrice setting facts)

def entryGate : Gate Digest :=
  let entry := entryPrice setting facts
  let buyIn := positive setting (facts.row.get "buy_in")
  let pass : Bool := match entry, buyIn with
    | some entry, some buyIn => entry ≤ buyIn
    | _, _ => false
  { codes := raised (entry.isSome && !pass) .priceAboveBuyIn
    checks := [("entry", .entries
      [("pass", if entry.isSome then .bool pass else .null), ("entry_price", .ofNumber entry),
       ("basis", .text (if (askPrice setting facts).isSome then "ask" else "price")), ("buy_in", .ofNumber buyIn)])] }

def marginGate : Gate Digest :=
  let tp := positive setting (facts.row.get "our_tp")
  let known : List (String × Json Digest) :=
    [("tp_value", .ofNumber tp), ("e_profile", .ofNumber (eProfile setting facts)), ("h_market", .ofNumber (hMarket setting facts))]
  match entryPrice setting facts, tp, eProfile setting facts, hMarket setting facts with
  | some entry, some tp, some eProfile, some hMarket =>
      { codes := raised (tp * (1 - eProfile) < entry * (1 + hMarket)) .tpMarginInsufficient
        checks := [("tp_margin", .entries ([("pass", .bool (entry * (1 + hMarket) ≤ tp * (1 - eProfile))),
          ("tp_after_error", .number (tp * (1 - eProfile))), ("required", .number (entry * (1 + hMarket)))] ++ known))] }
  | _, _, _, _ =>
      { codes := []
        checks := [("tp_margin", .entries ([("pass", .null), ("tp_after_error", .null), ("required", .null)] ++ known))] }

/-- Every gate but those of the events, in the order they are evaluated. -/
def gatesOf (reference : Int) : List (Gate Digest) :=
  [staleFlagGate facts, stalenessGate setting facts, sessionAgeGate thresholds facts, fundamentalsGate setting thresholds facts reference,
   priceGate setting thresholds facts, validatedGate thresholds facts, dispersionGate setting thresholds facts, confidenceGate setting thresholds facts,
   defectGate thresholds facts, errorGate setting facts, rateGate setting facts, entryGate setting facts, marginGate setting facts]

end Gates

section Events
variable (setting : Setting Digest) (thresholds : DecisorThresholds) (facts : Facts Digest)

/-- Whether the consensus was cut beyond the limit, or turned. -/
def consensusCut : Bool :=
  let consensus := mappingOf (facts.events.get "consensus")
  hasStatus consensus "ok" &&
    (consensus.get "turned_non_positive" matches .bool true ||
      (number setting (consensus.get "log_change")).any fun change => decide (change < -thresholds.consensusEpsCutLog))

def sentimentNegative : Bool :=
  let sentiment := mappingOf (facts.events.get "sentiment")
  hasStatus sentiment "ok" &&
    match number setting (sentiment.get "bearish_percent"), number setting (sentiment.get "articles_last_week"),
      number setting (sentiment.get "age_days") with
    | some bearish, some articles, some age =>
        thresholds.newsSentimentBearishMinPercent ≤ bearish ∧ thresholds.newsSentimentMinArticles ≤ articles ∧ age ≤ thresholds.newsSentimentMaxAgeDays
    | _, _, _ => false

/-- The event codes that the facts raise, in a fixed order. -/
def eventCodes : List Code :=
  let earnings := mappingOf (facts.events.get "earnings")
  raised (earnings.get "within" matches .bool true) .earningsWithinN ++
    raised (hasStatus earnings "row_invalid" || earnings.get "row_invalid" matches .bool true) .earningsCalendarRowInvalid ++
    (if hasStatus earnings "estimated" then [.earningsDateEstimated]
     else raised (!(hasStatus earnings "calendar" || hasStatus earnings "row_invalid")) .earningsCalendarUnavailable) ++
    raised (consensusCut setting thresholds facts) .consensusEpsCut30d ++
    raised (sentimentNegative setting thresholds facts) .newsSentimentNegative

/-- What each event rule records of itself. -/
def eventChecks : List (String × Json Digest) :=
  [("earnings", mappingOf (facts.events.get "earnings")),
   ("consensus", (Json.entries [("cut", .bool (consensusCut setting thresholds facts)), ("limit_log", .number (-thresholds.consensusEpsCutLog))]).merge
     (mappingOf (facts.events.get "consensus"))),
   ("sentiment", (Json.entries [("negative", .bool (sentimentNegative setting thresholds facts)),
     ("bearish_min_percent", .number thresholds.newsSentimentBearishMinPercent), ("min_articles", .number thresholds.newsSentimentMinArticles),
     ("max_age_days", .number thresholds.newsSentimentMaxAgeDays)]).merge (mappingOf (facts.events.get "sentiment")))]

/-- The market of the event gates: that of the facts, else that of the row. -/
def eventMarket : Option String := (marketOf setting (facts.events.get "market")).or (marketOf setting (facts.row.get "official_market"))

/-- Whether the earnings gate is in force in the market; it is where nobody named one. -/
def gatedMarket : Bool :=
  match eventMarket setting facts with
  | none => true
  | some market => market ∈ thresholds.earningsGateMarkets ∨ (market = "US" ∧ ∃ exchange ∈ ["NASDAQ", "NYSE"], exchange ∈ thresholds.earningsGateMarkets)

/-- Whether an event withholds a permission here. -/
def gatesHere (code : Code) : Bool :=
  if code ∈ neverGates then false
  else if code = .earningsCalendarRowInvalid then
    hasStatus (mappingOf (facts.events.get "earnings")) "row_invalid" ∧
      (Code.earningsWithinN ∈ thresholds.eventGates ∨ code ∈ thresholds.eventGates) ∧ gatedMarket setting thresholds facts
  else code ∈ thresholds.eventGates ∧ (code ≠ .earningsWithinN ∨ gatedMarket setting thresholds facts)

def eventGates : List Code := (eventCodes setting thresholds facts).filter (gatesHere setting thresholds facts)

def eventMarks : List Code := (eventCodes setting thresholds facts).filter fun code => code ∉ eventGates setting thresholds facts

end Events

/-- A veto where any code vetoes, observation where any other holds, else the permission. -/
def verdictOf (codes : List Code) : Verdict × List Code :=
  if codes.any (· ∈ vetoCodes) then (.veto, codes)
  else if codes ≠ [] then (.observar, codes)
  else (.compraPermitida, [.allGatesPassed])

structure Outcome (Digest : Type) where
  verdict : Verdict
  reasonCodes : List Code
  checks : Json Digest
  marks : List Code
  verdictWithoutEvents : Verdict
  price : Option ℚ
  eProfile : Option ℚ
  hMarket : Option ℚ

/-- A session that is no date. -/
inductive Refusal where
  | isoformat (session : String)
  deriving DecidableEq, Repr

def textsOf (codes : List Code) : Json Digest := listed (codes.map fun code => .text code.text)

def decide (setting : Setting Digest) (thresholds : DecisorThresholds) (facts : Facts Digest) : Except Refusal (Outcome Digest) :=
  match setting.fromisoformat facts.expectedSession with
  | none => .error (.isoformat facts.expectedSession)
  | some reference =>
      let gates := gatesOf setting thresholds facts reference
      let codes := gates.flatMap Gate.codes
      let withoutEvents := verdictOf codes
      let withEvents := verdictOf (codes ++ eventGates setting thresholds facts)
      .ok
        { verdict := withEvents.1
          reasonCodes := withEvents.2
          checks := .entries (gates.flatMap Gate.checks ++
            [("events", .entries (eventChecks setting thresholds facts ++
              [("market", .ofText (eventMarket setting facts)), ("raised", textsOf (eventCodes setting thresholds facts)),
               ("gates", textsOf (eventGates setting thresholds facts)), ("marks", textsOf (eventMarks setting thresholds facts))])),
             ("counterfactual", .entries
              [("verdict_without_events", .text withoutEvents.1.text), ("reason_codes_without_events", textsOf withoutEvents.2)])])
          marks := eventMarks setting thresholds facts
          verdictWithoutEvents := withoutEvents.1
          price := entryPrice setting facts
          eProfile := eProfile setting facts
          hMarket := hMarket setting facts }

end C3po.Decisor

/-! The state of one name after its filings, as far as the poll that looks for them was alive and
covered the issuer. Instants are in microseconds.
-/

namespace C3po.Decisor
open C3po.Stored (Json)

/-- A pending mark: the filing, when it was accepted and recorded, and what the target has to reach. -/
structure Mark where
  id : Option String
  docId : Option String
  form : Option String
  items : Option String
  acceptedAt : Option Int
  recordedAt : Option Int
  reason : Option String
  expectedPeriodEnd : Option String
  officialCycleId : Option String
  deriving DecidableEq, Repr

/-- The poll relied on, with what a record keeps of it. -/
structure Poll (Digest : Type) where
  startedAt : Option Int
  completedAt : Option Int
  reference : Json Digest

/-- What a poll records of the issuers it did and did not observe. -/
structure Coverage where
  known : Bool
  failedIssuers : Option (List String)
  unattributedFailures : Option Int
  observedIssuers : Option (List String)
  deriving DecidableEq, Repr

/-- The causal read of the marks, with the poll. -/
structure StalenessRead (Digest : Type) where
  status : String
  knownAt : Option Int
  marksKnown : Option Int
  latestRecordedAt : Option Int
  pending : String → List Mark
  triggerPoll : Option (Poll Digest)
  pollCoverage : Option Coverage
  detail : Option String

section Staleness
variable {Digest : Type} (setting : Setting Digest) (thresholds : DecisorThresholds)

def filingReference (mark : Mark) : Json Digest :=
  .entries
    [("mark_id", .ofText mark.id), ("doc_id", .ofText mark.docId), ("form", .ofText mark.form), ("items", .ofText mark.items),
     ("accepted_at", .ofText (mark.acceptedAt.map setting.iso)), ("recorded_at", .ofText (mark.recordedAt.map setting.iso)),
     ("reason", .ofText mark.reason), ("expected_period_end", .ofText mark.expectedPeriodEnd),
     ("official_cycle_id", .ofText mark.officialCycleId)]

def hour : Int := 3600000000
def second : Int := 1000000

/-- The poll started in the last hours before the clock and completed before the margin. -/
def pollFresh (poll : Option (Poll Digest)) (knownAt : Option Int) : Bool :=
  match poll.bind Poll.startedAt, poll.bind Poll.completedAt, knownAt with
  | some started, some completed, some clock =>
      clock - thresholds.stalenessPollMaxAgeHours * hour ≤ started ∧ started ≤ completed ∧ completed ≤ clock - thresholds.insertMarginSeconds * second
  | _, _, _ => false

def whyUncovered (coverage : Option Coverage) (issuerKey : Option String) : Option String :=
  match coverage with
  | none => some "the live poll recorded no coverage (a run from before failed_issuers/unattributed_failures): unknown, counted as none"
  | some coverage =>
      if !coverage.known then
        some "the live poll recorded no coverage (a run from before failed_issuers/unattributed_failures): unknown, counted as none"
      else
        let unattributed := coverage.unattributedFailures.getD 0
        let missed := coverage.failedIssuers.getD []
        if 0 < unattributed then some s!"the live poll had {unattributed} failure(s) naming no issuer: it covers no name"
        else
          match coverage.observedIssuers, issuerKey with
          | some _, none => some "the name's issuer is unknown: the live poll cannot have observed it"
          | some observed, some issuer => if issuer ∈ observed then none else some "the live poll did not observe the name's issuer"
          | none, none => if missed = [] then none else some "the live poll missed issuers and the name's issuer is unknown"
          | none, some issuer => if issuer ∈ missed then some "the live poll did not observe the name's issuer" else none

/-- What is read of a name without a read of the source. -/
def unread : StalenessRead Digest where
  status := ""
  knownAt := none
  marksKnown := none
  latestRecordedAt := none
  pending _ := []
  triggerPoll := none
  pollCoverage := none
  detail := none

/-- The state of one name: not asked outside the United States; stale where a mark is pending; its
source stale without a live poll that covers the issuer, and unavailable without a table. -/
def nameStaleness (source : Option (StalenessRead Digest)) (market symbol : String) (issuerKey : Option String) : Json Digest :=
  if market ∉ usStalenessMarkets then
    .entries [("status", .text "not_applicable"), ("source_status", .null), ("source", .null),
      ("detail", .text "migration 053 marks US TPs only (SEC filings)"), ("filings", listed [])]
  else
    let given := source.getD unread
    let live := pollFresh thresholds given.triggerPoll given.knownAt
    let why := whyUncovered given.pollCoverage issuerKey
    let uncovered := live && why.isSome
    let fresh := live && !uncovered
    let table : Bool := given.status = "ok"
    let read := if !fresh && !table then { given with marksKnown := some 0, latestRecordedAt := none, pending := fun _ => [] } else given
    let base : List (String × Json Digest) :=
      [("source", .text "valuation_tp_staleness"), ("known_at", .ofText (read.knownAt.map setting.iso)), ("marks_known", .ofInteger read.marksKnown),
       ("latest_recorded_at", .ofText (read.latestRecordedAt.map setting.iso)),
       ("trigger_poll", (read.triggerPoll.map Poll.reference).getD .null), ("poll_max_age_hours", .integer thresholds.stalenessPollMaxAgeHours),
       ("issuer_observed", if read.triggerPoll.isSome then .bool !uncovered else .null)]
    if fresh && !table then
      .entries (base ++ [("status", .text "unavailable"), ("source_status", .text "unavailable"),
        ("detail", .text (read.detail.getD "the staleness source was not read")), ("filings", listed [])])
    else
      let marks := read.pending symbol
      let noPoll := s!"no live {thresholds.stalenessPollSource} poll (successful, with progress, started in the " ++
        s!"{thresholds.stalenessPollMaxAgeHours} h before the run's clock): the marks known are kept, their absence is no evidence"
      .entries (base ++ [("status", .text (if marks = [] then "clear" else "stale")), ("source_status", .text (if fresh then "ok" else "stale")),
        ("detail", if fresh then .null
          else if uncovered then .text (why.getD "" ++ ": the marks known are kept, their absence is no evidence")
          else .text noPoll),
        ("filings", listed (marks.map (filingReference setting)))])

end Staleness

end C3po.Decisor
