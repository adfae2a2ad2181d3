import C3po.Library.Calendar
import C3po.Library.Loops
import C3po.Live.Engine

/-! What a session publishes, and the checkpoint a restart loads.

A document carries the rounded fills and the book at an instant. A checkpoint is the
JSON object of the state: a field may be absent, and a restart takes the default of
one that is.
-/

set_option autoImplicit false

namespace C3po.Live
open C3po.Library

structure BookPosition where
  symbol : String
  market : String
  quantity : ℚ
  averageCost : ℚ
  lastPrice : ℚ
  costUsd : ℚ
  unrealizedPnlUsd : ℚ
  unrealizedReturnPercent : ℚ
  stopPrice : ℚ
  openedAt : Int
  deriving DecidableEq, Repr

structure Book where
  navStartUsd : ℚ
  navUsd : ℚ
  realizedNavUsd : ℚ
  cashUsd : ℚ
  asOf : Int
  positions : List BookPosition
  deriving DecidableEq, Repr

structure DocumentTrade where
  id : String
  fill : Fill
  deriving DecidableEq, Repr

structure Cycle where
  candidates : ℕ
  signals : ℕ
  entries : ℕ
  closed : ℕ
  deriving DecidableEq, Repr

structure Document where
  schema : String
  day : Int
  config : String
  trades : List DocumentTrade
  book : Option Book
  cycle : Option Cycle
  deriving DecidableEq, Repr

def documentSchema : String := "C3PO-R2D2-LAB-LIVE-v1"

def Position.priceShown (position : Position) : ℚ :=
  (position.lastMark.filter (· ≠ 0)).getD position.entryPrice

def Position.shown (position : Position) (config : String) : BookPosition :=
  let mark := position.priceShown
  let net := position.netPercent mark
  { symbol := position.symbol, market := position.market, quantity := position.shares
    averageCost := position.entryPrice, lastPrice := mark, costUsd := position.costUsd
    unrealizedPnlUsd := position.costUsd * net / 100, unrealizedReturnPercent := net
    stopPrice := position.exitPrice config, openedAt := position.openedAt }

def EngineState.book (state : EngineState) (now : Int) : Book :=
  let positions := state.positions.entries.map fun entry => entry.2.shown state.config
  { navStartUsd := state.navStart.getD state.navRealized
    navUsd := state.navRealized + (positions.map BookPosition.unrealizedPnlUsd).sum
    realizedNavUsd := state.navRealized
    cashUsd := state.navRealized - state.openCost
    asOf := now
    positions := positions }

section Rounded

def rounded (number : ℚ) : ℚ := roundTo 6 number
def roundedUsd (number : ℚ) : ℚ := roundTo 2 number

def Fill.rounded (fill : Fill) : Fill := { fill with
  quantity := Live.rounded fill.quantity
  price := Live.rounded fill.price
  feesUsd := roundedUsd fill.feesUsd
  realizedPnlUsd := fill.realizedPnlUsd.map roundedUsd
  realizedReturnPercent := fill.realizedReturnPercent.map Live.rounded }

def BookPosition.rounded (position : BookPosition) : BookPosition := { position with
  quantity := Live.rounded position.quantity
  averageCost := Live.rounded position.averageCost
  lastPrice := Live.rounded position.lastPrice
  costUsd := roundedUsd position.costUsd
  unrealizedPnlUsd := roundedUsd position.unrealizedPnlUsd
  unrealizedReturnPercent := Live.rounded position.unrealizedReturnPercent
  stopPrice := Live.rounded position.stopPrice }

def Book.rounded (book : Book) : Book := { book with
  navStartUsd := roundedUsd book.navStartUsd
  navUsd := roundedUsd book.navUsd
  realizedNavUsd := roundedUsd book.realizedNavUsd
  cashUsd := roundedUsd book.cashUsd
  positions := book.positions.map BookPosition.rounded }

end Rounded

def Side.text : Side → String
  | buy => "buy"
  | sell => "sell"

def tradeId (config : String) (day : Int) (fill : Fill) (index : ℕ) : String :=
  ":".intercalate [config, Calendar.isoformat day, fill.symbol, fill.side.text,
    toString (fill.executedAt / second), toString index]

def documentTrades (config : String) (day : Int) (fills : List Fill) : List DocumentTrade :=
  fills.zipIdx.map fun entry => ⟨tradeId config day entry.1 entry.2, entry.1.rounded⟩

/-- The label of a document: the one asked for, else the session's own, else the one in force. -/
def documentConfig (state : EngineState) (config : String) : String :=
  if config ≠ "" then config else labelOr state.config

def Engine.document (engine : Engine) (now : Int) (config : String) : Document :=
  let config := documentConfig engine.state config
  let fills := engine.state.fills
  { schema := documentSchema
    day := engine.day
    config := config
    trades := documentTrades config engine.day fills
    book := some (engine.state.book now).rounded
    cycle := some
      { candidates := engine.state.candidates.size, signals := engine.state.signals
        entries := (fills.filter fun fill => fill.side = .buy).length
        closed := (fills.filter fun fill => fill.side = .sell).length } }

section Checkpoints

/-- The JSON object of a state. -/
structure Checkpoint where
  navRealized : ℚ
  lastSession : Option Int
  positions : Option (List Position)
  session : Option Int
  navStart : Option ℚ
  candidates : Option (Dict String ℚ)
  below : Option (Dict String Bool)
  signals : Option ℕ
  fills : Option (List Fill)
  lastSignalMinute : Option Int
  candidatesFixed : Option Bool
  config : Option String
  shadow : Option (Dict String Shadow)
  bands : Option (Dict ShadowBand BandStats)
  bandsClosed : Option (Int × Dict ShadowBand BandStats)
  deriving DecidableEq

def EngineState.toJson (state : EngineState) : Checkpoint where
  navRealized := state.navRealized
  lastSession := state.lastSession
  positions := some (state.positions.entries.map Prod.snd)
  session := state.session
  navStart := state.navStart
  candidates := some state.candidates
  below := some state.below
  signals := some state.signals
  fills := some state.fills
  lastSignalMinute := some state.lastSignalMinute
  candidatesFixed := some state.candidatesFixed
  config := some state.config
  shadow := some state.shadow
  bands := some state.bands
  bandsClosed := state.bandsClosed

def EngineState.fromJson (data : Checkpoint) : EngineState where
  navRealized := data.navRealized
  positions := (data.positions.getD []).foldl
    (fun positions position => positions.insert position.symbol position) Dict.empty
  lastSession := data.lastSession
  session := data.session
  navStart := data.navStart
  candidates := data.candidates.getD Dict.empty
  below := data.below.getD Dict.empty
  signals := data.signals.getD 0
  fills := data.fills.getD []
  lastSignalMinute := data.lastSignalMinute.getD (-1)
  candidatesFixed := data.candidatesFixed.getD false
  config := data.config.getD ""
  shadow := data.shadow.getD Dict.empty
  bands := data.bands.getD Dict.empty
  bandsClosed := data.bandsClosed

/-- Every position stands under its own symbol. -/
def EngineState.Keyed (state : EngineState) : Prop :=
  ∀ symbol position, state.positions.get? symbol = some position → position.symbol = symbol

theorem fromJson_toJson {state : EngineState} (keyed : state.Keyed) :
    EngineState.fromJson state.toJson = state := by
  have positions := Dict.foldl_insert_values Position.symbol state.positions fun entry member =>
    keyed entry.1 entry.2 (Dict.mem_entries.mp member)
  unfold EngineState.fromJson EngineState.toJson
  simp only [Option.getD_some, positions]

end Checkpoints

section Values

theorem Position.result_eq {position : Position} (funded : position.costUsd = 0 → position.shares = 0)
    (mark : ℚ) : position.costUsd * position.netPercent mark / 100 =
      position.shares * mark * (1 - feeSide) - position.costUsd := by
  unfold Position.netPercent
  by_cases free : position.costUsd = 0
  · rw [free, funded free]
    ring
  · field_simp

theorem EngineState.book_nav {state : EngineState}
    (funded : ∀ symbol position, state.positions.get? symbol = some position →
      position.costUsd = 0 → position.shares = 0) (now : Int) :
    (state.book now).navUsd = (state.book now).cashUsd +
      ((state.book now).positions.map fun position =>
        position.quantity * position.lastPrice * (1 - feeSide)).sum := by
  have shown : ∀ entries : List (String × Position), (∀ entry ∈ entries,
      entry.2.costUsd = 0 → entry.2.shares = 0) →
      ((entries.map fun entry => entry.2.shown state.config).map BookPosition.unrealizedPnlUsd).sum =
        ((entries.map fun entry => entry.2.shown state.config).map fun position =>
          position.quantity * position.lastPrice * (1 - feeSide)).sum -
          (entries.map fun entry => entry.2.costUsd).sum := by
    intro entries
    induction entries with
    | nil => intro _; simp
    | cons entry rest ih =>
      intro paid
      have head := Position.result_eq (paid entry (by simp)) entry.2.priceShown
      have tail := ih fun other member => paid other (by simp [member])
      simp only [List.map_cons, List.sum_cons, tail]
      simp only [Position.shown, head]
      ring
  have whole := shown state.positions.entries fun entry member =>
    funded entry.1 entry.2 (Dict.mem_entries.mp member)
  unfold EngineState.book EngineState.openCost Dict.total
  simp only [whole]
  ring

end Values

/-! What the screen's store accepts as the document of a session.

A document is typed here, so the checks of its JSON shape have nothing to refuse. The
latest write of a day is the one read.
-/

def maxQuantity : ℚ := 1000000000
def maxGrossUsd : ℚ := 10000000000
def maxAbsUsd : ℚ := 1000000000
def maxAbsPercent : ℚ := 10000
def maxPositions : ℕ := 100
def maxNavUsd : ℚ := 10000000000
def minNavUsd : ℚ := 1
def maxCycle : ℕ := 1000000
def engineMaxTrades : ℕ := 20000

def markets : List String := ["NASDAQ", "NYSE"]

section Names

def spelled (allowed : Char → Bool) (most : ℕ) (text : String) : Bool :=
  text ≠ "" ∧ text.length ≤ most ∧ text.toList.all allowed

def configCharacter (character : Char) : Bool := character.isAlphanum || [ '.', '_', '-'].contains character
def idCharacter (character : Char) : Bool := configCharacter character || character = ':'
def tickerCharacter (character : Char) : Bool :=
  character.isUpper || character.isDigit || [ '.', '-'].contains character

def isConfig (text : String) : Bool := spelled configCharacter 24 text
def isTradeId (text : String) : Bool := spelled idCharacter 80 text
def isTicker (text : String) : Bool :=
  spelled tickerCharacter 10 text ∧ text.toList.head?.any Char.isUpper

end Names

def require (holds : Prop) [Decidable holds] (message : String) : Except String Unit :=
  if holds then .ok () else .error message

def number (value : ℚ) (name : String) (bound : ℚ) : Except String ℚ := do
  require (|value| ≤ bound) (name ++ " is out of bounds")
  return value

def positiveNumber (value : ℚ) (name : String) (bound : ℚ) : Except String ℚ := do
  require (|value| ≤ bound) (name ++ " is out of bounds")
  require (0 < value) (name ++ " is not positive")
  return value

def optionalNumber (value : Option ℚ) (name : String) (bound : ℚ) : Except String (Option ℚ) :=
  match value with
  | none => return none
  | some value => return some (← number value name bound)

/-- One fill of the day, its fees taken as a cost whatever their sign. -/
def validTrade (zone : Zone) (day : Int) (seen : List String) (trade : DocumentTrade) :
    Except String DocumentTrade := do
  let fill := trade.fill
  require (isTradeId trade.id ∧ trade.id ∉ seen) "a fill id is invalid or repeated"
  require (isTicker fill.symbol) "symbol is not a ticker"
  require (fill.market ∈ markets) "market is not NASDAQ or NYSE"
  require (zone.date fill.executedAt = day) "a fill is not on the posted session day"
  require (fill.reason ≠ "" ∧ fill.reason.length ≤ 200) "reason is not a short text"
  let pnl ← optionalNumber fill.realizedPnlUsd "realized_pnl_usd" maxAbsUsd
  let ret ← optionalNumber fill.realizedReturnPercent "realized_return_percent" maxAbsPercent
  require (¬ (fill.side = .buy ∧ (pnl.isSome ∨ ret.isSome))) "a BUY carries no realized result"
  let quantity ← positiveNumber fill.quantity "quantity" maxQuantity
  let price ← positiveNumber fill.price "price" maxPrice
  require (quantity * price ≤ maxGrossUsd) "price × quantity is out of bounds"
  let fees ← number fill.feesUsd "fees_usd" maxAbsUsd
  return { trade with fill := { fill with
    quantity := quantity, price := price, feesUsd := |fees|, realizedPnlUsd := pnl
    realizedReturnPercent := ret } }

def validTrades (zone : Zone) (day : Int) : List String → List DocumentTrade →
    Except String (List DocumentTrade)
  | _, [] => return []
  | seen, trade :: rest => do
      let stored ← validTrade zone day seen trade
      let others ← validTrades zone day (trade.id :: seen) rest
      return stored :: others

def validPosition (item : BookPosition) : Except String BookPosition := do
  require (isTicker item.symbol) "a position symbol is not a ticker"
  require (item.market ∈ markets) "a position market is not NASDAQ or NYSE"
  let quantity ← positiveNumber item.quantity "quantity" maxQuantity
  let last ← positiveNumber item.lastPrice "last_price" maxPrice
  require (quantity * last ≤ maxGrossUsd) "a position value is out of bounds"
  let averageCost ← positiveNumber item.averageCost "average_cost" maxPrice
  let cost ← positiveNumber item.costUsd "cost_usd" maxGrossUsd
  let pnl ← number item.unrealizedPnlUsd "unrealized_pnl_usd" maxAbsUsd
  let ret ← number item.unrealizedReturnPercent "unrealized_return_percent" maxAbsPercent
  let stop ← number item.stopPrice "stop_price" maxPrice
  return { item with
    quantity := quantity, averageCost := averageCost, lastPrice := last, costUsd := cost
    unrealizedPnlUsd := pnl, unrealizedReturnPercent := ret, stopPrice := stop }

def validBook (book : Book) : Except String Book := do
  require (book.positions.length ≤ maxPositions)
    ("the book positions are not a list of at most " ++ toString maxPositions)
  let positions ← book.positions.mapM validPosition
  let start ← positiveNumber book.navStartUsd "nav_start_usd" maxNavUsd
  let nav ← positiveNumber book.navUsd "nav_usd" maxNavUsd
  let realized ← positiveNumber book.realizedNavUsd "realized_nav_usd" maxNavUsd
  require (minNavUsd ≤ min start (min nav realized)) "a book NAV is below the floor"
  require ((nav / start :: positions.map fun item => item.quantity * item.lastPrice / nav).all
    fun value => |value| ≤ maxNavUsd) "a book ratio is out of bounds"
  let cash ← number book.cashUsd "cash_usd" maxNavUsd
  return { book with
    navStartUsd := start, navUsd := nav, realizedNavUsd := realized, cashUsd := cash
    positions := positions }

/-- A book posted before its session opens has one NAV. -/
def Book.opening (book : Book) : Bool :=
  |book.navUsd - book.navStartUsd| ≤ 1 / 100 ∧ |book.realizedNavUsd - book.navStartUsd| ≤ 1 / 100

def Cycle.counts (cycle : Cycle) : List ℕ := [cycle.candidates, cycle.signals, cycle.entries, cycle.closed]

def validate (zone : Zone) (payload : Document) (now : Int) (maxTrades : ℕ) : Except String Document := do
  require (payload.schema = documentSchema) "unexpected schema"
  require (|payload.day - zone.date now| ≤ 3) "day is not a recent session"
  require (isConfig payload.config) "config is not a scenario name"
  require (payload.trades.length ≤ maxTrades)
    ("trades is not a list of at most " ++ toString maxTrades ++ " fills")
  let trades ← validTrades zone payload.day [] payload.trades
  let book ← payload.book.mapM validBook
  require (¬ (zone.date now < payload.day ∧ ¬ book.all Book.opening)) "an opening book has NAVs that differ"
  require (payload.cycle.all fun cycle => cycle.counts.all (· ≤ maxCycle))
    "the cycle is not exactly candidates, signals, entries, closed counts"
  return { payload with trades := trades, book := book }

section Stored

theorem require_ok {holds : Prop} [Decidable holds] {message : String} {done : Unit}
    (ok : require holds message = .ok done) : holds := by
  unfold require at ok
  split at ok
  · assumption
  · cases ok

theorem number_ok {value found bound : ℚ} {name : String} (ok : number value name bound = .ok found) :
    found = value := by
  obtain ⟨_, _, rest⟩ := bind_ok ok
  cases rest
  rfl

theorem positiveNumber_ok {value found bound : ℚ} {name : String}
    (ok : positiveNumber value name bound = .ok found) : found = value ∧ 0 < value := by
  obtain ⟨_, _, rest⟩ := bind_ok ok
  obtain ⟨_, positive, rest⟩ := bind_ok rest
  cases rest
  exact ⟨rfl, require_ok positive⟩

theorem optionalNumber_ok {value found : Option ℚ} {bound : ℚ} {name : String}
    (ok : optionalNumber value name bound = .ok found) : found = value := by
  cases value with
  | none =>
    cases ok
    rfl
  | some value =>
    obtain ⟨_, same, rest⟩ := bind_ok ok
    cases rest
    rw [number_ok same]

def DocumentTrade.stored (trade : DocumentTrade) : DocumentTrade :=
  { trade with fill := { trade.fill with feesUsd := |trade.fill.feesUsd| } }

theorem validTrade_ok {zone : Zone} {day : Int} {seen : List String} {trade found : DocumentTrade}
    (ok : validTrade zone day seen trade = .ok found) :
    found = trade.stored ∧ 0 < trade.fill.quantity ∧ 0 < trade.fill.price := by
  obtain ⟨_, _, ok⟩ := bind_ok ok
  obtain ⟨_, _, ok⟩ := bind_ok ok
  obtain ⟨_, _, ok⟩ := bind_ok ok
  obtain ⟨_, _, ok⟩ := bind_ok ok
  obtain ⟨_, _, ok⟩ := bind_ok ok
  obtain ⟨pnl, pnlOk, ok⟩ := bind_ok ok
  obtain ⟨ret, retOk, ok⟩ := bind_ok ok
  obtain ⟨_, _, ok⟩ := bind_ok ok
  obtain ⟨quantity, quantityOk, ok⟩ := bind_ok ok
  obtain ⟨price, priceOk, ok⟩ := bind_ok ok
  obtain ⟨_, _, ok⟩ := bind_ok ok
  obtain ⟨fees, feesOk, ok⟩ := bind_ok ok
  cases ok
  obtain ⟨rfl, quantityPositive⟩ := positiveNumber_ok quantityOk
  obtain ⟨rfl, pricePositive⟩ := positiveNumber_ok priceOk
  obtain rfl := optionalNumber_ok pnlOk
  obtain rfl := optionalNumber_ok retOk
  obtain rfl := number_ok feesOk
  exact ⟨rfl, quantityPositive, pricePositive⟩

theorem validTrades_ok {zone : Zone} {day : Int} {trades found : List DocumentTrade} {seen : List String}
    (ok : validTrades zone day seen trades = .ok found) : found = trades.map DocumentTrade.stored ∧
      ∀ trade ∈ trades, 0 < trade.fill.quantity ∧ 0 < trade.fill.price := by
  induction trades generalizing seen found with
  | nil =>
    cases ok
    exact ⟨rfl, by simp⟩
  | cons trade rest ih =>
    obtain ⟨stored, storedOk, ok⟩ := bind_ok ok
    obtain ⟨others, othersOk, ok⟩ := bind_ok ok
    cases ok
    obtain ⟨rfl, positive⟩ := validTrade_ok storedOk
    obtain ⟨rfl, later⟩ := ih othersOk
    exact ⟨rfl, fun other member => (List.mem_cons.mp member).elim (fun same => same ▸ positive) (later other)⟩

theorem validPosition_ok {item found : BookPosition} (ok : validPosition item = .ok found) :
    found = item ∧ 0 < item.quantity ∧ 0 < item.lastPrice ∧ 0 < item.costUsd := by
  obtain ⟨_, _, ok⟩ := bind_ok ok
  obtain ⟨_, _, ok⟩ := bind_ok ok
  obtain ⟨quantity, quantityOk, ok⟩ := bind_ok ok
  obtain ⟨last, lastOk, ok⟩ := bind_ok ok
  obtain ⟨_, _, ok⟩ := bind_ok ok
  obtain ⟨averageCost, averageCostOk, ok⟩ := bind_ok ok
  obtain ⟨cost, costOk, ok⟩ := bind_ok ok
  obtain ⟨pnl, pnlOk, ok⟩ := bind_ok ok
  obtain ⟨ret, retOk, ok⟩ := bind_ok ok
  obtain ⟨stop, stopOk, ok⟩ := bind_ok ok
  cases ok
  obtain ⟨rfl, quantityPositive⟩ := positiveNumber_ok quantityOk
  obtain ⟨rfl, lastPositive⟩ := positiveNumber_ok lastOk
  obtain ⟨rfl, _⟩ := positiveNumber_ok averageCostOk
  obtain ⟨rfl, costPositive⟩ := positiveNumber_ok costOk
  obtain rfl := number_ok pnlOk
  obtain rfl := number_ok retOk
  obtain rfl := number_ok stopOk
  exact ⟨rfl, quantityPositive, lastPositive, costPositive⟩

theorem validPositions_ok {items found : List BookPosition} (ok : items.mapM validPosition = .ok found) :
    found = items ∧ ∀ item ∈ items, 0 < item.quantity ∧ 0 < item.lastPrice ∧ 0 < item.costUsd := by
  induction items generalizing found with
  | nil =>
    cases ok
    exact ⟨rfl, by simp⟩
  | cons item rest ih =>
    rw [List.mapM_cons] at ok
    obtain ⟨stored, storedOk, ok⟩ := bind_ok ok
    obtain ⟨others, othersOk, ok⟩ := bind_ok ok
    cases ok
    obtain ⟨rfl, positive⟩ := validPosition_ok storedOk
    obtain ⟨rfl, later⟩ := ih othersOk
    exact ⟨rfl, fun other member => (List.mem_cons.mp member).elim (fun same => same ▸ positive) (later other)⟩

theorem validBook_ok {book found : Book} (ok : validBook book = .ok found) : found = book ∧
    ∀ item ∈ book.positions, 0 < item.quantity ∧ 0 < item.lastPrice ∧ 0 < item.costUsd := by
  obtain ⟨_, _, ok⟩ := bind_ok ok
  obtain ⟨positions, positionsOk, ok⟩ := bind_ok ok
  obtain ⟨start, startOk, ok⟩ := bind_ok ok
  obtain ⟨nav, navOk, ok⟩ := bind_ok ok
  obtain ⟨realized, realizedOk, ok⟩ := bind_ok ok
  obtain ⟨_, _, ok⟩ := bind_ok ok
  obtain ⟨_, _, ok⟩ := bind_ok ok
  obtain ⟨cash, cashOk, ok⟩ := bind_ok ok
  cases ok
  obtain ⟨rfl, positive⟩ := validPositions_ok positionsOk
  obtain ⟨rfl, _⟩ := positiveNumber_ok startOk
  obtain ⟨rfl, _⟩ := positiveNumber_ok navOk
  obtain ⟨rfl, _⟩ := positiveNumber_ok realizedOk
  obtain rfl := number_ok cashOk
  exact ⟨rfl, positive⟩

theorem validate_ok {zone : Zone} {payload found : Document} {now : Int} {maxTrades : ℕ}
    (ok : validate zone payload now maxTrades = .ok found) :
    found = { payload with trades := payload.trades.map DocumentTrade.stored } ∧
      ∀ trade ∈ payload.trades, 0 < trade.fill.quantity ∧ 0 < trade.fill.price := by
  obtain ⟨_, _, ok⟩ := bind_ok ok
  obtain ⟨_, _, ok⟩ := bind_ok ok
  obtain ⟨_, _, ok⟩ := bind_ok ok
  obtain ⟨_, _, ok⟩ := bind_ok ok
  obtain ⟨trades, tradesOk, ok⟩ := bind_ok ok
  obtain ⟨book, bookOk, ok⟩ := bind_ok ok
  obtain ⟨_, _, ok⟩ := bind_ok ok
  obtain ⟨_, _, ok⟩ := bind_ok ok
  cases ok
  obtain ⟨rfl, positive⟩ := validTrades_ok tradesOk
  have same : book = payload.book := by
    cases posted : payload.book with
    | none =>
      rw [posted] at bookOk
      cases bookOk
      rfl
    | some written =>
      rw [posted] at bookOk
      have mapped : some <$> validBook written = .ok book := bookOk
      cases stored : validBook written with
      | error refusal =>
        rw [stored] at mapped
        cases mapped
      | ok kept =>
        rw [stored] at mapped
        cases mapped
        rw [(validBook_ok stored).1]
  rw [same]
  exact ⟨rfl, positive⟩

end Stored
end C3po.Live
