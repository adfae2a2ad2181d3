import Mathlib.Data.List.Dedup
import Mathlib.Data.List.GetD
import Mathlib.Data.Prod.Lex
import Mathlib.Data.String.Basic
import Mathlib.Tactic.IntervalCases
import C3po.Library.Calendar
import C3po.Library.Latest
import C3po.Library.StableSort

/-! The quarter a filing reports. Days are ordinals, and quarters step by months or by weeks. -/

set_option autoImplicit false

namespace C3po.Staleness
open C3po.Library.Calendar

def monthrange (year month : ℤ) : ℤ := (monthLengths year).getD (month - 1).toNat 0

def lastDay (year month : ℤ) : ℤ := ofCivil year month (monthrange year month)

/-- Three months on for the close of a month, thirteen weeks on for any other. -/
def nextQuarterEnd (finish : ℤ) : ℤ :=
  if (civil (finish + 1)).2.2 ≠ 1 then finish + 13 * 7
  else
    let (year, month, _) := civil finish
    let monthIndex := year * 12 + month - 1 + 3
    lastDay (monthIndex / 12) (monthIndex % 12 + 1)

def stepQuarters (acceptedDay : ℤ) : ℕ → ℤ → ℤ
  | 0, finish => finish
  | steps + 1, finish =>
      let following := nextQuarterEnd finish
      if following < acceptedDay then stepQuarters acceptedDay steps following else finish

def calendarQuarters (year : ℤ) : List ℤ := [3, 6, 9, 12].map fun month => lastDay year month

/-- `announced_quarter_end`, from the day of the acceptance in New York. -/
def announcedQuarterEnd (acceptedDay : ℤ) (statementPeriods : List ℤ) : ℤ :=
  match (statementPeriods.filter (· < acceptedDay)).max? with
  | some finish => stepQuarters acceptedDay (acceptedDay - finish).toNat finish
  | none =>
      -- never empty: the quarters of last year end before the day
      let known := calendarQuarters ((civil acceptedDay).1 - 1) ++ calendarQuarters (civil acceptedDay).1
      ((known.filter (· < acceptedDay)).max?).getD acceptedDay

end C3po.Staleness

/-! The staleness marks of the US price targets: the trigger that appends them and their two readers.

Instants are microseconds and days are ordinals. The served rows of a generation are what
the trigger reads of them, by symbol.
-/

namespace C3po.Staleness
open C3po.Library

def dayLength : ℤ := 86400 * 1000000

/-- Filings accepted earlier are not evaluated again. -/
def triggerLookback : ℤ := 10 * dayLength

/-- A provider that labels the quarter by its calendar month still covers it. -/
def periodToleranceDays : ℤ := 7

def statementForms : List String :=
  ["10-Q", "10-K", "10-Q/A", "10-K/A", "10-QT", "10-KT", "10-QT/A", "10-KT/A"]

def resultsForms : List String := ["10-Q", "10-K", "10-Q/A", "10-K/A"]

def earningsReleaseForms : List String := ["8-K", "8-K/A"]

def isTriggerFiling (form : String) (items : List String) : Bool :=
  form ∈ resultsForms || (form ∈ earningsReleaseForms && "2.02" ∈ items)

/-- The days and midnights of the two zones. -/
structure Zones where
  newYorkDay : ℤ → ℤ
  saoPauloDay : ℤ → ℤ
  saoPauloMidnight : ℤ → ℤ

/-- A registered document; its texts are never empty. -/
structure Filing where
  docId : String
  issuerKey : String
  form : String
  items : List String
  symbols : List String
  periodOfReport : Option ℤ
  acceptedAt : ℤ
  named : docId ≠ ""
  symbolsNamed : ∀ symbol ∈ symbols, symbol ≠ ""

/-- A served row as the trigger reads it; `none` is a clock or a day that is missing or does not parse. -/
structure Official where
  officialMarket : String
  officialCycleId : String
  predictionInstant : Option ℤ
  fundamentalsAsOf : Option ℤ
  deriving DecidableEq

inductive MarkState
  | stale
  | cleared
  | untracked
  deriving DecidableEq

structure Mark where
  market : String
  symbol : String
  issuerKey : String
  docId : String
  form : String
  items : List String
  acceptedAt : ℤ
  periodOfReport : Option ℤ
  state : MarkState
  reason : String
  officialCycleId : Option String
  predictionInstant : Option ℤ
  fundamentalsAsOf : Option ℤ
  expectedPeriodEnd : Option ℤ
  coversPeriod : Option Bool
  queuedForCutAt : Option ℤ
  recordedAt : ℤ
  createdAt : ℤ
  deriving DecidableEq

/-- A filing and one of its symbols. -/
abbrev Pair := String × String

def Mark.pair (mark : Mark) : Pair := (mark.docId, mark.symbol)

def Mark.key (mark : Mark) : Pair × MarkState := (mark.pair, mark.state)

/-- `TpStalenessStore.append`: nothing at all when a mark is malformed, and one row for each key. -/
def append (store rows : List Mark) : Option (List Mark) :=
  if rows.any fun row => row.symbol == "" || row.docId == "" || row.reason == "" then none
  else some (rows.foldl (fun store row => if row.key ∈ store.map Mark.key then store else store ++ [row]) store)

section Trigger
variable (zones : Zones)

def nextNightlyCut (now : ℤ) : ℤ := zones.saoPauloMidnight (zones.saoPauloDay now + 1)

def expectedPeriodEnd (filing : Filing) (statementPeriods : List ℤ) : ℤ :=
  let announced := announcedQuarterEnd (zones.newYorkDay filing.acceptedAt) statementPeriods
  if filing.form ∈ statementForms then filing.periodOfReport.getD announced else announced

/-- Whether the fundamentals reach the period. -/
def coversPeriod (expected : ℤ) (official : Official) : Bool :=
  official.fundamentalsAsOf.any (expected - periodToleranceDays ≤ ·)

def predictedAfter (filing : Filing) (official : Official) : Bool := official.predictionInstant.any (filing.acceptedAt < ·)

def statementPeriods (filings : List Filing) (issuerKey : String) : List ℤ :=
  (filings.filter fun filing => filing.issuerKey = issuerKey ∧ filing.form ∈ statementForms).filterMap (·.periodOfReport)

def Filing.mark (filing : Filing) (symbol : String) (state : MarkState) (reason : String) (official : Option Official)
    (now : ℤ) (expected : Option ℤ) (covers : Option Bool) : Mark where
  market := (official.map (·.officialMarket)).filter (· ≠ "") |>.getD "US"
  symbol := symbol
  issuerKey := filing.issuerKey
  docId := filing.docId
  form := filing.form
  items := filing.items
  acceptedAt := filing.acceptedAt
  periodOfReport := filing.periodOfReport
  state := state
  reason := reason
  officialCycleId := (official.map (·.officialCycleId)).filter (· ≠ "")
  predictionInstant := official.bind (·.predictionInstant)
  fundamentalsAsOf := official.bind (·.fundamentalsAsOf)
  expectedPeriodEnd := expected
  coversPeriod := covers
  queuedForCutAt := if state = .stale then some (nextNightlyCut zones now) else none
  recordedAt := now
  createdAt := now

def states (marks : List Mark) (pair : Pair) : List MarkState := (marks.filter (·.pair = pair)).map Mark.state

def Filing.order (filing : Filing) : ℤ ×ₗ String := toLex (filing.acceptedAt, filing.docId)

def recentFilings (filings : List Filing) (now : ℤ) : List Filing :=
  stableSort Filing.order (filings.filter (now - triggerLookback ≤ ·.acceptedAt))

def olderFilings (filings : List Filing) (marks : List Mark) (now : ℤ) : List Filing :=
  let pending := (marks.filter fun mark => .stale ∈ states marks mark.pair ∧ .cleared ∉ states marks mark.pair).map Mark.docId
  let recent := (recentFilings filings now).map Filing.docId
  stableSort Filing.order (filings.filter fun filing => filing.docId ∈ pending ∧ filing.docId ∉ recent)

/-- Cleared is terminal; untracked is evaluated again within the lookback. -/
def isOpen (known : List MarkState) (recent : Bool) : Bool :=
  .cleared ∉ known && (.stale ∈ known || known = [] || recent)

/-- The mark that one open pair gets. -/
def evaluated (known : List MarkState) (filing : Filing) (symbol : String) (periods : List ℤ) (official : Option Official)
    (now : ℤ) : Option Mark :=
  match official with
  | none => if known = [] then some (filing.mark zones symbol .untracked "no_official_tp" none now none none) else none
  | some official =>
    let expected := expectedPeriodEnd zones filing periods
    let covers := coversPeriod expected official
    let after := predictedAfter filing official
    if after && covers then
      let reason := if .stale ∈ known then "revalued_by_cut" else "tp_after_acceptance"
      some (filing.mark zones symbol .cleared reason (some official) now (some expected) (some covers))
    else if .stale ∉ known then
      let reason := if !after then "tp_predates_acceptance" else "fundamentals_predate_period"
      some (filing.mark zones symbol .stale reason (some official) now (some expected) (some covers))
    else none

/-- The pairs a pass evaluates, with what one generation serves. -/
def openPairs (filings : List Filing) (marks : List Mark) (now : ℤ) : List (Filing × String) :=
  let recent := recentFilings filings now
  let trigger := (olderFilings filings marks now ++ recent).filter fun filing => isTriggerFiling filing.form filing.items
  trigger.flatMap fun filing => (filing.symbols.map fun symbol => (filing, symbol)).filter fun (filing, symbol) =>
    isOpen (states marks (filing.docId, symbol)) (filing.docId ∈ recent.map Filing.docId)

def passMarks (filings : List Filing) (served : String → Option Official) (marks : List Mark) (now : ℤ) : List Mark :=
  (openPairs filings marks now).filterMap fun (filing, symbol) =>
    evaluated zones (states marks (filing.docId, symbol)) filing symbol (statementPeriods filings filing.issuerKey) (served symbol) now

/-- `evaluate_us_filings`. -/
def evaluateUsFilings (filings : List Filing) (served : String → Option Official) (marks : List Mark) (now : ℤ) : Option (List Mark) :=
  append marks (passMarks zones filings served marks now)

/-- The served row was predicted after the acceptance, over fundamentals that reach the expected period. -/
def revalued (filings : List Filing) (filing : Filing) (official : Official) : Bool :=
  predictedAfter filing official &&
    coversPeriod (expectedPeriodEnd zones filing (statementPeriods filings filing.issuerKey)) official

end Trigger

/-- The rows of the table as its store reads them. -/
def Mark.rowOrder (mark : Mark) : ℤ ×ₗ String ×ₗ String := toLex (mark.recordedAt, toLex (mark.docId, mark.symbol))

/-- `stale_us_tps`: the stale marks of a symbol whose pair is not cleared, oldest acceptance first. -/
def staleUsTps (marks : List Mark) (symbol : String) : List Mark :=
  (stableSort Mark.acceptedAt (stableSort Mark.rowOrder marks)).filter fun mark =>
    mark.symbol = symbol ∧ mark.state = .stale ∧ .cleared ∉ states marks mark.pair

/-- `rows_known_at`. -/
def rowsKnownAt (marks : List Mark) (instant margin : ℤ) : List Mark :=
  marks.filter fun mark => mark.recordedAt ≤ instant ∧ mark.createdAt ≤ instant - margin

def MarkState.order : MarkState → ℕ
  | .untracked => 0
  | .cleared => 1
  | .stale => 2

/-- Of two marks recorded at one instant, the stricter is the latest. -/
def Mark.latestOrder (mark : Mark) : ℤ ×ₗ ℕ := toLex (mark.recordedAt, mark.state.order)

def Mark.pendingOrder (mark : Mark) : ℤ ×ₗ String ×ₗ String := toLex (mark.acceptedAt, toLex (mark.docId, mark.symbol))

/-- The pending marks of a symbol in `us_staleness_at`. -/
def usStalenessAt (marks : List Mark) (instant margin : ℤ) (symbol : String) : List Mark :=
  let known := rowsKnownAt marks instant margin
  let latestMarks := (known.map Mark.pair).dedup.filterMap fun pair => latest Mark.latestOrder (known.filter (·.pair = pair))
  (stableSort Mark.pendingOrder latestMarks).filter fun mark => mark.symbol = symbol ∧ mark.state = .stale

structure World where
  filings : List Filing
  served : String → Option Official
  marks : List Mark
  clock : ℤ

namespace World
variable (world : World)

/-- A document that is registered already keeps its row. -/
def register (filing : Filing) : World :=
  if filing.docId ∈ world.filings.map Filing.docId then world else { world with filings := world.filings ++ [filing] }

/-- A generation comes into force: a pass of the cycle, a switch or a rollback. -/
def serve (served : String → Option Official) : World := { world with served }

def evaluate (zones : Zones) (now : ℤ) : World :=
  { world with
    marks := (evaluateUsFilings zones world.filings world.served world.marks now).getD world.marks
    clock := now }

end World

/-- What a pass saw. -/
structure Look where
  filings : List Filing
  served : String → Option Official
  now : ℤ

def World.look (world : World) (now : ℤ) : Look := ⟨world.filings, world.served, now⟩

/-- Runs under one clock that never goes back, with what their passes saw. -/
inductive Reached (zones : Zones) : List Look → World → Prop
  | start (clock : ℤ) : Reached zones [] ⟨[], fun _ => none, [], clock⟩
  | register {looks : List Look} {world : World} (before : Reached zones looks world) (filing : Filing) :
      Reached zones looks (world.register filing)
  | serve {looks : List Look} {world : World} (before : Reached zones looks world) (served : String → Option Official) :
      Reached zones looks (world.serve served)
  | evaluate {looks : List Look} {world : World} (before : Reached zones looks world) {now : ℤ} (onward : world.clock ≤ now) :
      Reached zones (looks ++ [world.look now]) (world.evaluate zones now)

structure History (zones : Zones) where
  looks : List Look
  world : World
  reached : Reached zones looks world

end C3po.Staleness
