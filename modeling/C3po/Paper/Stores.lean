import Mathlib.Algebra.Order.Field.Basic
import Mathlib.Algebra.Order.Ring.Rat
import C3po.Library.Dict
import C3po.Library.Transaction

/-! The paper ledger of an experiment: cash, positions and recorded trades.

A trade is one transaction on the rows of the experiment, under the checks of the tables.
The hooks run inside it on its view of the rows; what they write elsewhere is left out, and
so are the columns no trade reads. Amounts are exact rationals.
-/

set_option autoImplicit false

namespace C3po.Paper
open C3po.Library

structure Position where
  name : String
  currency : String
  quantity : ℚ
  averageCostLocal : ℚ
  averageCostUsd : ℚ
  lastPriceLocal : ℚ
  fxToUsd : ℚ
  highWaterPriceLocal : ℚ
  stopPriceLocal : ℚ
  openedAt : Int
  updatedAt : Int
  deriving DecidableEq, Repr

structure Trade where
  id : ℕ
  market : String
  symbol : String
  name : String
  side : String
  quantity : ℚ
  signalPrice : ℚ
  fillPrice : ℚ
  fx : ℚ
  gross : ℚ
  fees : ℚ
  slippage : ℚ
  realized : Option ℚ
  reason : String
  corrected : Bool
  executedAt : Int
  quoteAsOf : Int
  deriving DecidableEq, Repr

/-- The rows of one experiment. -/
structure Books where
  startingCapital : ℚ
  cash : ℚ
  status : String
  positions : Dict (String × String) Position
  trades : List Trade

inductive Refusal where
  | value (text : String)
  | arithmetic
  | check (table : String)
  | hook (text : String)
  deriving DecidableEq, Repr

/-- A hook reads the rows of the transaction and may raise. -/
abbrev Hook := Books → Option String

/-- One call. The caller's own copy of the cash may be stale. -/
structure Order where
  copy : ℚ
  market : String
  symbol : String
  name : String
  currency : String
  stopPrice : ℚ
  side : String
  quantity : ℚ
  signalPrice : ℚ
  fillPrice : ℚ
  fx : ℚ
  fees : ℚ
  slippage : ℚ
  reason : String
  corrected : Bool
  quoteAsOf : Int
  clock : Int
  beforeEffect : Hook := fun _ => none
  afterEffect : Hook := fun _ => none

namespace Order
variable (order : Order)

def key : String × String := (order.market, order.symbol)

def gross : ℚ := order.quantity * order.fillPrice * order.fx

end Order

def Trade.key (trade : Trade) : String × String := (trade.market, trade.symbol)

/-- The smallest holding that is kept, and by how much a sale may exceed its position. -/
def dust : ℚ := 1 / 10 ^ 8

def tableMarkets : List String := ["B3", "NASDAQ", "NYSE"]

def Position.checked (position : Position) (market : String) : Bool :=
  market ∈ tableMarkets && 0 ≤ position.quantity && 0 < position.averageCostLocal && 0 < position.averageCostUsd &&
    0 < position.lastPriceLocal && 0 < position.fxToUsd && 0 < position.highWaterPriceLocal && 0 < position.stopPriceLocal

def Trade.checked (trade : Trade) : Bool :=
  trade.market ∈ tableMarkets && trade.side ∈ ["BUY", "SELL"] && 0 < trade.quantity && 0 < trade.signalPrice &&
    0 < trade.fillPrice && 0 < trade.fx && 0 ≤ trade.gross && 0 ≤ trade.fees && 0 ≤ trade.slippage

abbrev Effect (A : Type) := Transaction Books Refusal A

def require (condition : Bool) (refusal : Refusal) : Effect Unit :=
  if condition then pure () else Transaction.raise refusal

def runHook (hook : Hook) : Effect Unit := do
  let books ← Transaction.read
  match hook books with
  | none => pure ()
  | some text => Transaction.raise (.hook text)

def putPosition (key : String × String) (position : Position) : Effect Unit := do
  let books ← Transaction.read
  require (position.checked key.1) (.check "r2d2_positions")
  Transaction.write { books with positions := books.positions.insert key position }

def deletePosition (key : String × String) : Effect Unit := do
  let books ← Transaction.read
  Transaction.write { books with positions := books.positions.erase key }

def updateCash (cash : ℚ) : Effect Unit := do
  let books ← Transaction.read
  require (0 ≤ cash) (.check "r2d2_experiments")
  Transaction.write { books with cash := cash, status := "running" }

def insertTrade (trade : Trade) : Effect Unit := do
  let books ← Transaction.read
  require trade.checked (.check "r2d2_trades")
  Transaction.write { books with trades := books.trades ++ [trade] }

/-- The position after a purchase, its average cost blended over fees and all. An open position
keeps its name and currency. -/
def boughtPosition (order : Order) (current : Option Position) : Except Refusal Position :=
  let oldQuantity := (current.map Position.quantity).getD 0
  let oldCost := (current.map Position.averageCostUsd).getD 0
  let quantity := oldQuantity + order.quantity
  if quantity = 0 ∨ order.fx = 0 then .error .arithmetic
  else
    let average := (oldQuantity * oldCost + order.gross + order.fees) / quantity
    .ok
      { name := (current.map Position.name).getD order.name
        currency := (current.map Position.currency).getD order.currency
        quantity
        averageCostLocal := average / order.fx
        averageCostUsd := average
        lastPriceLocal := order.fillPrice
        fxToUsd := order.fx
        highWaterPriceLocal := match current with
          | none => order.fillPrice
          | some current => max current.highWaterPriceLocal order.fillPrice
        stopPriceLocal := order.stopPrice
        openedAt := (current.map Position.openedAt).getD order.clock
        updatedAt := order.clock }

/-- The position after a sale that leaves more than dust. -/
def soldPosition (order : Order) (current : Position) : Position :=
  { current with
    quantity := current.quantity - order.quantity
    lastPriceLocal := order.fillPrice
    fxToUsd := order.fx
    updatedAt := order.clock }

def recordedTrade (order : Order) (id : ℕ) (realized : Option ℚ) : Trade :=
  { id
    market := order.market
    symbol := order.symbol
    name := order.name
    side := order.side
    quantity := order.quantity
    signalPrice := order.signalPrice
    fillPrice := order.fillPrice
    fx := order.fx
    gross := order.gross
    fees := order.fees
    slippage := order.slippage
    realized
    reason := order.reason
    corrected := order.corrected
    executedAt := order.clock
    quoteAsOf := order.quoteAsOf }

/-- What a call answers: its trade, and the caller's copy of the cash brought up to date. -/
structure Executed where
  trade : Trade
  copy : ℚ

/-- The common end of a trade: the cash, the record and the last hook. -/
def closeTrade (order : Order) (cash : ℚ) (realized : Option ℚ) : Effect Executed := do
  updateCash cash
  let books ← Transaction.read
  let trade := recordedTrade order books.trades.length realized
  insertTrade trade
  runHook order.afterEffect
  pure ⟨trade, cash⟩

/-- The transaction of a trade. The cash and the position are those of the locked rows,
never the caller's copy. -/
def executeTrade (order : Order) : Effect Executed := do
  let books ← Transaction.read
  let current := books.positions.get? order.key
  runHook order.beforeEffect
  if order.side = "BUY" then
    require (order.gross + order.fees ≤ books.cash + 1 / 100) (.value "Paper order exceeds available cash")
    let position ← Transaction.check (boughtPosition order current)
    putPosition order.key position
    closeTrade order (books.cash - (order.gross + order.fees)) none
  else
    match current with
    | none => Transaction.raise (.value "Paper sell exceeds the virtual position")
    | some current =>
        require (order.quantity ≤ current.quantity + dust) (.value "Paper sell exceeds the virtual position")
        let realized := order.gross - order.fees - order.quantity * current.averageCostUsd
        if current.quantity - order.quantity ≤ dust then deletePosition order.key
        else putPosition order.key (soldPosition order current)
        closeTrade order (books.cash + (order.gross - order.fees)) (some realized)

def call (order : Order) (books : Books) : Except Refusal Executed × Books := (executeTrade order).commit books

/-- The rows after some calls, one after the other. -/
def callAll (books : Books) (orders : List Order) : Books :=
  orders.foldl (fun books order => (call order books).2) books

structure Mandate where
  startingCapital : ℚ
  positive : 0 < startingCapital

def seeded (mandate : Mandate) : Books := ⟨mandate.startingCapital, mandate.startingCapital, "scheduled", .empty, []⟩

/-- What the recorded sales realized, by the day of the accounts. -/
def realizedPnlBySession (session : Int → Int) (trades : List Trade) : Dict Int ℚ :=
  (trades.filter fun trade => trade.side = "SELL" ∧ trade.realized.isSome ∧ ¬ trade.corrected).foldl
    (fun buckets trade =>
      let day := session trade.executedAt
      buckets.insert day ((buckets.get? day).getD 0 + trade.realized.getD 0)) .empty

/-! The two stores of the paper ledger: the tables, and the dictionaries that stand in for them
without a database.

Every operation is written twice. On the tables it is one transaction under their checks; on the
dictionaries it writes as it goes, checks nothing and keeps what it wrote when it raises. A hook
is given no connection on the dictionaries, so a call comes with what its hooks raise.
-/

/-- A position with the columns of the fast risk watcher. -/
structure Holding extends Position where
  hardStopPriceLocal : Option ℚ
  chandelierAtrLocal : Option ℚ
  chandelierAtrAsOf : Option Int
  chandelierStopPriceLocal : Option ℚ
  chandelierConfirmationCount : ℕ
  chandelierLastConfirmationTickAt : Option Int
  deriving DecidableEq

/-- What made the fast watcher sell. -/
structure FastExit where
  rule : Option String := none
  level : Option ℚ := none
  atr : Option ℚ := none
  tickAsOf : Option Int := none
  deriving DecidableEq

/-- A recorded trade, and whether its decision marks an operator's wind-down. -/
structure Fill extends Trade where
  cycleId : String
  fastExit : FastExit
  windDown : Bool
  deriving DecidableEq

/-- One experiment as a store holds it. -/
structure Rows where
  cash : ℚ
  status : String
  positions : Dict (String × String) Holding
  trades : List Fill

/-- The arguments of one trade, and what its hooks raise. -/
structure Request where
  order : Order
  cycleId : String := ""
  fastExit : FastExit := {}
  windDown : Bool := false
  before : Option String := none
  after : Option String := none

abbrev Work (A : Type) := Transaction Rows Refusal A

def demand (condition : Bool) (refusal : Refusal) : Work Unit :=
  if condition then pure () else Transaction.raise refusal

def hooked : Option String → Work Unit
  | none => pure ()
  | some text => Transaction.raise (.hook text)

def filled (request : Request) (id : ℕ) (realized : Option ℚ) : Fill :=
  { recordedTrade request.order id realized with
    cycleId := request.cycleId, fastExit := request.fastExit, windDown := request.windDown }

/-- What a call answers. The tables give an observation its columns, the dictionaries the position. -/
structure Watch where
  highWaterPriceLocal : ℚ
  hardStopPriceLocal : Option ℚ
  chandelierAtrLocal : Option ℚ
  chandelierAtrAsOf : Option Int
  chandelierStopPriceLocal : Option ℚ
  chandelierConfirmationCount : ℕ
  chandelierLastConfirmationTickAt : Option Int

inductive Answer where
  | executed (fill : Fill) (copy : ℚ)
  | done
  | watched (watch : Option Watch)
  | held (holding : Option Holding)

namespace Holding
variable (holding : Holding)

def opened (position : Position) (stop : ℚ) : Holding :=
  { toPosition := position
    hardStopPriceLocal := some stop
    chandelierAtrLocal := none
    chandelierAtrAsOf := none
    chandelierStopPriceLocal := none
    chandelierConfirmationCount := 0
    chandelierLastConfirmationTickAt := none }

def marked (price fx highWater stop : ℚ) (updatedAt : Int) (writeHighWater : Bool) : Holding :=
  { holding with
    lastPriceLocal := price
    fxToUsd := fx
    highWaterPriceLocal := if writeHighWater then max holding.highWaterPriceLocal highWater else holding.highWaterPriceLocal
    stopPriceLocal := stop
    updatedAt }

def anchored (atr hardStop : ℚ) (asOf : Int) : Holding :=
  { holding with
    chandelierAtrLocal := some atr
    chandelierAtrAsOf := some asOf
    hardStopPriceLocal := some (max (holding.hardStopPriceLocal.getD 0) hardStop)
    chandelierStopPriceLocal := some (max (holding.chandelierStopPriceLocal.getD 0) (holding.highWaterPriceLocal - atr * (5 / 2))) }

def advanced (price : ℚ) : Holding :=
  { holding with highWaterPriceLocal := max holding.highWaterPriceLocal price }

/-- A tick that was not counted yet. -/
def distinct (tickAsOf : Int) : Bool :=
  match holding.chandelierLastConfirmationTickAt with
  | none => true
  | some last => last < tickAsOf

/-- The stop after a tick at a price. -/
def trailing (price atr : ℚ) : ℚ :=
  max (holding.chandelierStopPriceLocal.getD 0) (max holding.highWaterPriceLocal price - atr * (5 / 2))

/-- The update of the tables at a tick: every column is set from the row as it was. -/
def ticked (price : ℚ) (tickAsOf : Int) : Holding :=
  match holding.chandelierAtrLocal with
  | none => holding.advanced price
  | some atr =>
    let stop := holding.trailing price atr
    { holding.advanced price with
      chandelierStopPriceLocal := some stop
      chandelierConfirmationCount :=
        if price ≤ stop ∧ holding.distinct tickAsOf then holding.chandelierConfirmationCount + 1
        else if stop < price then 0 else holding.chandelierConfirmationCount
      chandelierLastConfirmationTickAt :=
        if price ≤ stop ∧ holding.distinct tickAsOf then some tickAsOf
        else if stop < price then none else holding.chandelierLastConfirmationTickAt }

/-- The confirmations of the dictionaries count only below a stop that is set. -/
def confirmed (price : ℚ) (tickAsOf : Int) : Holding :=
  let stop := holding.chandelierStopPriceLocal.getD 0
  if 0 < stop ∧ price ≤ stop ∧ holding.distinct tickAsOf then
    { holding with
      chandelierConfirmationCount := holding.chandelierConfirmationCount + 1
      chandelierLastConfirmationTickAt := some tickAsOf }
  else if 0 < stop ∧ stop < price then
    { holding with chandelierConfirmationCount := 0, chandelierLastConfirmationTickAt := none }
  else holding

/-- The writes of the dictionaries at a tick, one after the other. -/
def observed (price : ℚ) (tickAsOf : Int) : Holding :=
  let atr := holding.chandelierAtrLocal.getD 0
  let raised := holding.advanced price
  let trailed := if 0 < atr then { raised with chandelierStopPriceLocal := some (holding.trailing price atr) } else raised
  trailed.confirmed price tickAsOf

def watch : Watch :=
  { highWaterPriceLocal := holding.highWaterPriceLocal
    hardStopPriceLocal := holding.hardStopPriceLocal
    chandelierAtrLocal := holding.chandelierAtrLocal
    chandelierAtrAsOf := holding.chandelierAtrAsOf
    chandelierStopPriceLocal := holding.chandelierStopPriceLocal
    chandelierConfirmationCount := holding.chandelierConfirmationCount
    chandelierLastConfirmationTickAt := holding.chandelierLastConfirmationTickAt }

end Holding

namespace Sql

def putHolding (key : String × String) (holding : Holding) : Work Unit := do
  let rows ← Transaction.read
  demand (holding.toPosition.checked key.1) (.check "r2d2_positions")
  Transaction.write { rows with positions := rows.positions.insert key holding }

def deleteHolding (key : String × String) : Work Unit := do
  let rows ← Transaction.read
  Transaction.write { rows with positions := rows.positions.erase key }

def closeTrade (request : Request) (cash : ℚ) (realized : Option ℚ) : Work Answer := do
  let rows ← Transaction.read
  demand (0 ≤ cash) (.check "r2d2_experiments")
  let fill := filled request rows.trades.length realized
  demand fill.toTrade.checked (.check "r2d2_trades")
  Transaction.write { rows with cash, status := "running", trades := rows.trades ++ [fill] }
  hooked request.after
  pure (.executed fill cash)

/-- A purchase leaves the columns of the watcher of an open position, its hard stop apart. -/
def bought (order : Order) (current : Option Holding) (position : Position) : Holding :=
  match current with
  | none => .opened position order.stopPrice
  | some current => { current with toPosition := position, hardStopPriceLocal := some order.stopPrice }

def executeTrade (request : Request) : Work Answer := do
  let order := request.order
  let rows ← Transaction.read
  let current := rows.positions.get? order.key
  hooked request.before
  if order.side = "BUY" then
    demand (order.gross + order.fees ≤ rows.cash + 1 / 100) (.value "Paper order exceeds available cash")
    let position ← Transaction.check (boughtPosition order (current.map Holding.toPosition))
    putHolding order.key (bought order current position)
    closeTrade request (rows.cash - (order.gross + order.fees)) none
  else
    match current with
    | none => Transaction.raise (.value "Paper sell exceeds the virtual position")
    | some current =>
      demand (order.quantity ≤ current.quantity + dust) (.value "Paper sell exceeds the virtual position")
      let realized := order.gross - order.fees - order.quantity * current.averageCostUsd
      if current.quantity - order.quantity ≤ dust then deleteHolding order.key
      else putHolding order.key { current with toPosition := soldPosition order current.toPosition }
      closeTrade request (rows.cash + (order.gross - order.fees)) (some realized)

/-- One update of the row of a position, if there is one. -/
def update (key : String × String) (change : Holding → Holding) : Work (Option Holding) := do
  let rows ← Transaction.read
  match rows.positions.get? key with
  | none => pure none
  | some holding =>
    putHolding key (change holding)
    pure (some (change holding))

end Sql

namespace Memory

def put (key : String × String) (holding : Holding) : Work Unit := do
  let rows ← Transaction.read
  Transaction.write { rows with positions := rows.positions.insert key holding }

def drop (key : String × String) : Work Unit := do
  let rows ← Transaction.read
  Transaction.write { rows with positions := rows.positions.erase key }

/-- The cash is written before the last hook runs, and the trade recorded after it. -/
def closeTrade (request : Request) (cash : ℚ) (realized : Option ℚ) : Work Answer := do
  let rows ← Transaction.read
  Transaction.write { rows with cash, status := "running" }
  hooked request.after
  let rows ← Transaction.read
  let fill := filled request rows.trades.length realized
  Transaction.write { rows with trades := rows.trades ++ [fill] }
  pure (.executed fill cash)

/-- A purchase replaces the position of the symbol. -/
def bought (order : Order) (position : Position) : Holding :=
  .opened { position with name := order.name, currency := order.currency, highWaterPriceLocal := order.fillPrice } order.stopPrice

/-- The cash is that of the caller's copy, and a partial sale leaves the exchange rate. -/
def executeTrade (request : Request) : Work Answer := do
  let order := request.order
  hooked request.before
  let rows ← Transaction.read
  let current := rows.positions.get? order.key
  if order.side = "BUY" then
    demand (order.gross + order.fees ≤ order.copy + 1 / 100) (.value "Paper order exceeds available cash")
    let position ← Transaction.check (boughtPosition order (current.map Holding.toPosition))
    put order.key (bought order position)
    closeTrade request (order.copy - (order.gross + order.fees)) none
  else
    match current with
    | none => Transaction.raise (.value "Paper sell exceeds the virtual position")
    | some current =>
      demand (order.quantity ≤ current.quantity + dust) (.value "Paper sell exceeds the virtual position")
      let realized := order.gross - order.fees - order.quantity * current.averageCostUsd
      if current.quantity - order.quantity ≤ dust then drop order.key
      else put order.key { current with
        quantity := current.quantity - order.quantity, lastPriceLocal := order.fillPrice, updatedAt := order.clock }
      closeTrade request (order.copy + order.gross - order.fees) (some realized)

def update (key : String × String) (change : Holding → Holding) : Work (Option Holding) := do
  let rows ← Transaction.read
  match rows.positions.get? key with
  | none => pure none
  | some holding =>
    put key (change holding)
    pure (some (change holding))

end Memory

inductive Operation where
  | trade (request : Request)
  | mark (key : String × String) (price fx highWater stop : ℚ) (updatedAt : Int) (writeHighWater : Bool)
  | anchor (key : String × String) (atr hardStop : ℚ) (asOf : Int)
  | observe (key : String × String) (price : ℚ) (tickAsOf : Int)
  | advance (key : String × String) (price : ℚ)

namespace Sql

def perform : Operation → Work Answer
  | .trade request => executeTrade request
  | .mark key price fx highWater stop updatedAt writeHighWater => do
    let _ ← update key fun holding => holding.marked price fx highWater stop updatedAt writeHighWater
    pure .done
  | .anchor key atr hardStop asOf =>
    if atr ≤ 0 then pure .done
    else do
      let _ ← update key fun holding => holding.anchored atr hardStop asOf
      pure .done
  | .observe key price tickAsOf => do
    let holding ← update key fun holding => holding.ticked price tickAsOf
    pure (.watched (holding.map Holding.watch))
  | .advance key price => do
    let _ ← update key fun holding => holding.advanced price
    pure .done

def call (operation : Operation) (rows : Rows) : Except Refusal Answer × Rows := (perform operation).commit rows

end Sql

namespace Memory

def perform : Operation → Work Answer
  | .trade request => executeTrade request
  | .mark key price fx highWater stop updatedAt writeHighWater => do
    let _ ← update key fun holding => holding.marked price fx highWater stop updatedAt writeHighWater
    pure .done
  | .anchor key atr hardStop asOf =>
    if atr ≤ 0 then pure .done
    else do
      let _ ← update key fun holding => holding.anchored atr hardStop asOf
      pure .done
  | .observe key price tickAsOf => do
    let holding ← update key fun holding => holding.observed price tickAsOf
    pure (.held holding)
  | .advance key price => do
    let _ ← update key fun holding => holding.advanced price
    pure .done

/-- One call: what it wrote stays, raised or not. -/
def call (operation : Operation) (rows : Rows) : Except Refusal Answer × Rows := perform operation rows

end Memory

def freshRows (mandate : Mandate) : Rows := ⟨mandate.startingCapital, "scheduled", .empty, []⟩

end C3po.Paper
