import Mathlib.Data.Rat.Floor

/-! The rule of the live R2D2: sizes, the stop and the lock, and what a quote must be to act on.

Amounts, prices and percentages are exact rationals. An instant is UTC microseconds,
a day the ordinal of its date, and a local time microseconds after midnight in New
York; the zone itself is a parameter.
-/

set_option autoImplicit false

namespace C3po.Live

/-- The New York clock. -/
structure Zone where
  date : Int → Int
  time : Int → Int
  /-- The instant of a local time of a day. -/
  instant : Int → Int → Int

def clockTime (hour minute second : Int) : Int := (hour * 3600 + minute * 60 + second) * 1000000

inductive SizeRule where
  | equal
  | taper
  | inverse
  | tiers
  deriving DecidableEq, Repr

/-- The rule in force. -/
structure Rule where
  gapMinPercent : ℚ := 1
  slots : ℕ := 20
  spreadMaxBps : ℚ := 5
  stopPercent : ℚ := 1 / 8
  lockMinPercent : ℚ := 1 / 10
  lockStepPercent : ℚ := 1 / 20
  lockWideFromPercent : ℚ := 1 / 5
  lockWideStepPercent : ℚ := 1 / 20
  closeFlat : Bool := false
  sizeRule : SizeRule := .tiers
  sizeTiers : List (ℚ × ℚ) := [(2, 1), (3, 4 / 5), (5, 1 / 2)]
  boundBps : ℚ := 1 / 1000000
  deriving Repr

def rule : Rule := {}

def currentConfig : String := "TIT-2S5-F20-L5-S0125"
def feeSide : ℚ := 1 / 20000
def maxPrice : ℚ := 1000000

def lastEntryInForce : Int := clockTime 15 59 59 + 999999
def lastEntryByConfig : List (String × Int) :=
  [("TIT-2S3-RT", clockTime 15 29 59), ("TIT-2S5-RT", clockTime 15 29 59)]
def sellPositivesFrom : Int := clockTime 15 59 30
def flatLastEntry : Int := sellPositivesFrom - 1
def sessionClose : Int := clockTime 16 0 0

def second : Int := 1000000
def quoteMaxAge : Int := 5 * second
def nbboMaxAge : Int := 60 * second
def nbboExitMaxAge : Int := 10 * second
def shadowTradeMaxAge : Int := 10 * second
def futureTolerance : Int := 5 * second
def nbboMaxDeviation : ℚ := 1 / 50

/-- The last entry of a session: the one of the label it started under. -/
def lastEntryOf (config : String) : Int := (lastEntryByConfig.lookup config).getD lastEntryInForce

/-- The share of a slot a buy takes; a tier's bound includes a spread a hair over it. -/
def sizeWeight (spreadBps : ℚ) (sizeRule : SizeRule := rule.sizeRule) : ℚ :=
  match sizeRule with
  | .equal => 1
  | .taper => max (2 / 5) (min 1 (1 - 3 / 20 * (spreadBps - 1)))
  | .inverse => if 0 < spreadBps then min 1 (2 / spreadBps) else 1
  | .tiers =>
      match rule.sizeTiers.find? fun tier => spreadBps ≤ tier.1 + rule.boundBps with
      | some tier => tier.2
      | none => (rule.sizeTiers.getLast?.map Prod.snd).getD 1

structure Ladder where
  min : ℚ
  step : ℚ
  wideFrom : ℚ
  wideStep : ℚ
  deriving DecidableEq, Repr

def ladderInForce : Ladder :=
  ⟨rule.lockMinPercent, rule.lockStepPercent, rule.lockWideFromPercent, rule.lockWideStepPercent⟩

def lockLadders : List (String × Ladder) :=
  [("TIT-2S5-F20", ⟨1 / 10, 1 / 10, 1 / 5, 3 / 20⟩), ("TIT-2S5-F20-L5", ⟨1 / 10, 1 / 20, 1 / 5, 1 / 20⟩),
    ("TIT-2S5-F20-L5-S1", ⟨1 / 10, 1 / 20, 1 / 5, 1 / 20⟩), (currentConfig, ladderInForce)]

def stops : List (String × ℚ) :=
  [("TIT-2S5-F20", 1 / 5), ("TIT-2S5-F20-L5", 1 / 5), ("TIT-2S5-F20-L5-S1", 1),
    (currentConfig, rule.stopPercent)]

/-- A state without a label runs under the one in force. -/
def labelOr (config : String) : String := if config = "" then currentConfig else config

def stopOf (config : String) : ℚ := (stops.lookup (labelOr config)).getD rule.stopPercent

/-- The armed lock's floor: the last step the peak reached. -/
def lockFloor (peak : ℚ) (config : String) : ℚ :=
  let ladder := (lockLadders.lookup (labelOr config)).getD ladderInForce
  let reached := peak + 1 / 1000000000
  if reached < ladder.wideFrom then
    ladder.min + ladder.step * ((reached - ladder.min) / ladder.step).floor
  else ladder.wideFrom + ladder.wideStep * ((reached - ladder.wideFrom) / ladder.wideStep).floor

structure Position where
  symbol : String
  market : String
  shares : ℚ
  entryPrice : ℚ
  costUsd : ℚ
  openedAt : Int
  peakPercent : Option ℚ := none
  armed : Bool := false
  daysHeld : ℕ := 0
  lastMark : Option ℚ := none
  deriving DecidableEq, Repr

namespace Position

def netPercent (position : Position) (bid : ℚ) : ℚ :=
  (position.shares * bid * (1 - feeSide) / position.costUsd - 1) * 100

/-- The net at which the rule sells now: the armed lock's floor, else the stop. -/
def level (position : Position) (config : String) : ℚ :=
  if position.armed then
    let peak := match position.peakPercent with
      | some peak => if peak = 0 then rule.lockMinPercent else peak
      | none => rule.lockMinPercent
    lockFloor peak config
  else -stopOf config

def exitPrice (position : Position) (config : String) : ℚ :=
  position.costUsd * (1 + position.level config / 100) / (position.shares * (1 - feeSide))

end Position

structure Quote where
  bid : ℚ
  ask : ℚ
  quotedAt : Int
  deriving DecidableEq, Repr

structure MarketView where
  price : Option ℚ := none
  tradeAt : Option Int := none
  vwap : Option ℚ := none
  bid : Option ℚ := none
  ask : Option ℚ := none
  quoteAt : Option Int := none
  deriving DecidableEq, Repr

namespace MarketView

def quote (market : MarketView) : Option Quote :=
  match market.bid, market.ask, market.quoteAt with
  | some bid, some ask, some quotedAt => some ⟨bid, ask, quotedAt⟩
  | _, _, _ => none

def freshQuote (market : MarketView) (now : Int) : Option Quote :=
  market.quote.filter fun quote =>
    0 < quote.bid ∧ quote.bid ≤ quote.ask ∧ now - quote.quotedAt ≤ quoteMaxAge

end MarketView

def Quote.ordered (quote : Quote) : Bool := 0 < quote.bid ∧ quote.bid ≤ quote.ask

def Quote.spreadBps (quote : Quote) : ℚ :=
  (quote.ask - quote.bid) / ((quote.ask + quote.bid) / 2) * 10000

/-- A quote a buy may stand on: within the screen's bounds and near the signal's own price. -/
def plausibleQuote (quote : Quote) (close : ℚ) : Bool :=
  quote.ordered ∧ quote.ask ≤ maxPrice ∧ 0 < close ∧
    |(quote.bid + quote.ask) / 2 / close - 1| ≤ nbboMaxDeviation

/-- The bid a held name is marked on: a usable NBBO, neither old nor from the future. -/
def exitBid (quote : Option Quote) (moment : Int) : Option ℚ :=
  (quote.filter fun quote => quote.ordered ∧ quote.ask ≤ maxPrice ∧
    -futureTolerance ≤ moment - quote.quotedAt ∧ moment - quote.quotedAt ≤ nbboExitMaxAge).map Quote.bid

inductive ExitReason where
  | hardStop
  | lock
  | t30Positive
  | t30Flat
  deriving DecidableEq, Repr

def ExitReason.text : ExitReason → String
  | hardStop => "stop"
  | lock => "trava de lucro"
  | t30Positive => "positiva nos últimos 30 s"
  | t30Flat => "zerada no fechamento"

/-- A sale the feed's bid triggers stands only when the fresh last trade is at the same level. -/
def tradeConfirms (position : Position) (market : MarketView) (moment : Int) (reason : ExitReason)
    (config : String) : Bool :=
  match market.price, market.tradeAt with
  | some price, some tradeAt =>
      let net := position.netPercent price
      let fresh := -futureTolerance ≤ moment - tradeAt ∧ moment - tradeAt ≤ quoteMaxAge
      let confirmed := match reason with
        | .hardStop => decide (net ≤ -stopOf config)
        | .lock => decide (net ≤ lockFloor (position.peakPercent.getD rule.lockMinPercent) config)
        | .t30Flat => true
        | .t30Positive => decide (0 < net)
      decide fresh && confirmed
  | _, _ => false

theorem exitBid_positive {quote : Option Quote} {moment : Int} {bid : ℚ}
    (usable : exitBid quote moment = some bid) : 0 < bid := by
  obtain ⟨found, kept, rfl⟩ := Option.map_eq_some_iff.mp usable
  have checked := (Option.filter_eq_some_iff.mp kept).2
  simp only [Quote.ordered, decide_eq_true_eq] at checked
  exact checked.1.1

theorem freshQuote_positive {market : MarketView} {moment : Int} {quote : Quote}
    (fresh : market.freshQuote moment = some quote) : 0 < quote.bid := by
  have checked := (Option.filter_eq_some_iff.mp fresh).2
  simp only [decide_eq_true_eq] at checked
  exact checked.1

theorem sizeWeight_bounds (spreadBps : ℚ) : 0 < sizeWeight spreadBps ∧ sizeWeight spreadBps ≤ 1 := by
  unfold sizeWeight rule
  simp only
  split
  · rename_i tier found
    have listed := List.mem_of_find?_eq_some found
    simp only [List.mem_cons, List.not_mem_nil, or_false] at listed
    rcases listed with rfl | rfl | rfl <;> norm_num
  · norm_num

example : lockFloor (23 / 100) currentConfig = 1 / 5 := by decide +kernel

end C3po.Live
