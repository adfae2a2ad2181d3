import C3po.Library.Dict
import C3po.Library.Rounding
import C3po.Live.Rule
import C3po.Live.Tape

/-! One session of the live rule: the state and what every call does to it.

A call reads the market many times. What the reads of one loop gave is an argument
of the call, with the time that had passed when they came; a wait on Massive carries
the passes that ran during it. Counters of the process (skips, sources) decide
nothing and are left out.
-/

set_option autoImplicit false

namespace C3po.Live
open C3po.Library

inductive Side where
  | buy
  | sell
  deriving DecidableEq, Repr

structure Fill where
  side : Side
  symbol : String
  market : String
  quantity : ℚ
  price : ℚ
  executedAt : Int
  feesUsd : ℚ
  realizedPnlUsd : Option ℚ
  realizedReturnPercent : Option ℚ
  reason : String
  deriving DecidableEq, Repr

/-- The band of a spread refused by the limit. -/
inductive ShadowBand where
  | fiveToEight
  | eightToTen
  | overTen
  deriving DecidableEq, Repr

def shadowBand (spreadBps : ℚ) : ShadowBand :=
  if spreadBps ≤ 8 then .fiveToEight else if spreadBps ≤ 10 then .eightToTen else .overTen

structure Shadow where
  band : ShadowBand
  ask : ℚ
  spreadBps : ℚ
  sizeUsd : ℚ
  peak : Option ℚ
  armed : Bool
  lastNet : Option ℚ
  openedAt : Int
  deriving DecidableEq, Repr

structure BandStats where
  vetoed : ℕ := 0
  closed : ℕ := 0
  wins : ℕ := 0
  netUsd : ℚ := 0
  deriving DecidableEq, Repr

/-- A session label is none where the source's is empty. -/
structure EngineState where
  navRealized : ℚ
  positions : Dict String Position := Dict.empty
  lastSession : Option Int := none
  session : Option Int := none
  navStart : Option ℚ := none
  candidates : Dict String ℚ := Dict.empty
  below : Dict String Bool := Dict.empty
  signals : ℕ := 0
  fills : List Fill := []
  lastSignalMinute : Int := -1
  candidatesFixed : Bool := false
  config : String := ""
  shadow : Dict String Shadow := Dict.empty
  bands : Dict ShadowBand BandStats := Dict.empty
  bandsClosed : Option (Int × Dict ShadowBand BandStats) := none
  deriving DecidableEq

structure Member where
  symbol : String
  market : String
  prevClose : ℚ
  deriving DecidableEq, Repr

structure Engine where
  state : EngineState
  day : Int
  members : Dict String Member
  /-- When the exits last marked each held name. -/
  markedMoment : Dict String Int
  lastEntry : Int
  deriving DecidableEq

/-- What the reads of one name gave: its view, its quote, and the time since the call began. -/
structure Reading where
  market : MarketView := {}
  quote : Option Quote := none
  elapsed : ℕ := 0

/-- A pass on the pushed NBBO. -/
structure Pass where
  now : Int
  read : String → Reading

/-- A wait on Massive: the passes that ran during it, and the answers. -/
structure Wait where
  passes : List Pass
  answers : String → Option Quote

structure StepInput where
  now : Int
  /-- None where no quote is pushed to the session. -/
  pushed : Option (String → Reading)
  /-- None where Massive is not asked, as for the entries. -/
  exits : Option Wait
  settled : String → Reading
  shadows : String → MarketView
  /-- The shadows marked before their reads failed, when they failed. -/
  shadowFault : Option ℕ
  signal : String → Option (ℚ × ℚ)
  entries : Option Wait
  bought : String → Reading

inductive ExitSource where
  | massive
  | fast
  | stream
  deriving DecidableEq, Repr

namespace EngineState

/-- The positions' result since the marks `mark` gives. -/
def unrealized (state : EngineState) (mark : Position → Option ℚ) : ℚ :=
  state.positions.total fun _ position =>
    position.costUsd * (((mark position).map position.netPercent).getD 0 / 100)

def openCost (state : EngineState) : ℚ := state.positions.total fun _ position => position.costUsd

/-- A new session: the opening NAV is the last close marked at the last known prices. -/
def openSession (state : EngineState) (day : Int) : EngineState := { state with
  session := some day
  candidates := Dict.empty
  below := Dict.empty
  signals := 0
  fills := []
  lastSignalMinute := -1
  candidatesFixed := false
  config := currentConfig
  shadow := Dict.empty
  bands := Dict.empty
  navStart := some (state.navRealized + state.unrealized fun position =>
    position.lastMark.filter (· ≠ 0)) }

section Shadows

def bandStats (state : EngineState) (band : ShadowBand) : BandStats := state.bands.getD band {}

def shadowOpen (state : EngineState) (symbol : String) (ask spreadBps : ℚ) (moment : Int) : EngineState :=
  let band := shadowBand spreadBps
  let stats := state.bandStats band
  let row : Shadow :=
    { band := band, ask := ask, spreadBps := spreadBps
      sizeUsd := state.navRealized / rule.slots * sizeWeight spreadBps
      peak := none, armed := false, lastNet := none, openedAt := moment }
  { state with
    bands := state.bands.insert band { stats with vetoed := stats.vetoed + 1 }
    shadow := if state.shadow.contains symbol ∨ state.positions.contains symbol then state.shadow
      else state.shadow.insert symbol row }

def shadowClose (state : EngineState) (symbol : String) (row : Shadow) (net : ℚ) : EngineState :=
  let stats := state.bandStats row.band
  { state with
    shadow := state.shadow.erase symbol
    bands := state.bands.insert row.band { stats with
      closed := stats.closed + 1
      wins := stats.wins + if 0 < net then 1 else 0
      netUsd := stats.netUsd + row.sizeUsd * net / 100 } }

/-- A shadow follows the exits of a position, on the last trade less half its spread. -/
def shadowExit (late : Bool) (now : Int) (view : String → MarketView) (state : EngineState)
    (symbol : String) : EngineState :=
  match state.shadow.get? symbol, (view symbol).price, (view symbol).tradeAt with
  | some row, some price, some tradeAt =>
      if shadowTradeMaxAge < now - tradeAt then state
      else
        let bid := price * (1 - row.spreadBps / 2 / 10000)
        let net := (bid * (1 - feeSide) / (row.ask * (1 + feeSide)) - 1) * 100
        let peak := row.peak.elim net fun peak => max peak net
        let armed := row.armed || rule.lockMinPercent ≤ net
        let row := { row with lastNet := some net, peak := some peak, armed := armed }
        let marked := { state with shadow := state.shadow.insert symbol row }
        if net ≤ -stopOf state.config ∨ (armed ∧ net ≤ lockFloor peak state.config) ∨
            (late ∧ (0 < net ∨ rule.closeFlat)) then marked.shadowClose symbol row net
        else marked
  | _, _, _ => state

/-- Reads that fail drop the open shadows. -/
def shadowExits (state : EngineState) (late : Bool) (now : Int) (view : String → MarketView)
    (fault : Option ℕ) : EngineState :=
  let symbols := state.shadow.keys
  match fault with
  | none => symbols.foldl (shadowExit late now view) state
  | some marked => { (symbols.take marked).foldl (shadowExit late now view) state with shadow := Dict.empty }

/-- A shadow closes at its last mark, or is dropped when it has none. -/
def settleShadow (state : EngineState) (entry : String × Shadow) : EngineState :=
  match entry.2.lastNet with
  | none => { state with shadow := state.shadow.erase entry.1 }
  | some net => state.shadowClose entry.1 entry.2 net

end Shadows

end EngineState

def universeMembers (names : List Member) : Dict String Member :=
  names.foldl (fun members member => members.insert member.symbol member) Dict.empty

/-- A carried name stays tradeable for its exit. -/
def sessionMembers (names : List Member) (positions : Dict String Position) : Dict String Member :=
  positions.entries.foldl (fun members entry =>
    if members.contains entry.1 then members
    else members.insert entry.1 ⟨entry.1, entry.2.market, 0⟩) (universeMembers names)

/-- An engine on a state and the names of the universe: the session in progress is resumed, any other starts anew. -/
def Engine.start (state : EngineState) (day : Int) (names : List Member) : Engine :=
  let resumed := state.session = some day
  let opened := if resumed then state else state.openSession day
  { state := opened, day := day, members := sessionMembers names state.positions
    markedMoment := Dict.empty, lastEntry := lastEntryOf opened.config }

namespace Engine

section Candidates

/-- Fixed once at the open, even when empty. -/
def setCandidates (engine : Engine) (opening : String → Option ℚ) : Engine :=
  if engine.state.candidatesFixed then engine
  else
    let chosen := engine.members.entries.foldl (fun candidates entry =>
      match (opening entry.1).filter (· ≠ 0) with
      | some price =>
          let gap := (price / entry.2.prevClose - 1) * 100
          if 0 < entry.2.prevClose ∧ gap ≤ -rule.gapMinPercent then candidates.insert entry.1 gap
          else candidates
      | none => candidates) engine.state.candidates
    { engine with state := { engine.state with candidatesFixed := true, candidates := chosen } }

def openingWindowEnd : Int := clockTime 9 31 0

/-- The selection of a lost opening, on the prints the one at the open could have seen. -/
def adoptOpening (zone : Zone) (engine : Engine) (tapes : String → Option Tape) : Engine :=
  let windowEnd : ℚ := zone.instant engine.day openingWindowEnd / second
  { engine with state := { engine.state with candidatesFixed := false } }.setCandidates fun symbol =>
    (tapes symbol).bind fun tape =>
      if tape.openingAt.any fun openingAt => openingAt < windowEnd then tape.opening else none

end Candidates

section Exits

def sell (engine : Engine) (position : Position) (bid net : ℚ) (reason : ExitReason) (now : Int) : Engine :=
  let pnl := position.costUsd * net / 100
  let held := if position.daysHeld = 0 then ""
    else " (posição de " ++ toString position.daysHeld ++ " pregão(ões) atrás)"
  { engine with
    state := { engine.state with
      navRealized := engine.state.navRealized + pnl
      positions := engine.state.positions.erase position.symbol
      below := engine.state.below.insert position.symbol false
      fills := engine.state.fills ++ [
        { side := .sell, symbol := position.symbol, market := position.market
          quantity := position.shares, price := bid, executedAt := now
          feesUsd := position.shares * bid * feeSide, realizedPnlUsd := some pnl
          realizedReturnPercent := some net
          reason := "venda: " ++ reason.text ++ ", " ++ signed 3 net ++ "% líquido de custos" ++ held }] }
    markedMoment := engine.markedMoment.erase position.symbol }

end Exits
end Engine

/-- The mark, the peak and the arming; armed by the net now, never by an older peak. -/
def Position.marked (position : Position) (bid : ℚ) : Position :=
  let net := position.netPercent bid
  { position with
    lastMark := some bid
    peakPercent := some (position.peakPercent.elim net fun peak => max peak net)
    armed := position.armed || rule.lockMinPercent ≤ net }

def Position.older (position : Position) : Position := { position with daysHeld := position.daysHeld + 1 }

def exitReason (position : Position) (net : ℚ) (late : Bool) (config : String) : Option ExitReason :=
  if net ≤ -stopOf config then some .hardStop
  else if position.armed ∧ position.peakPercent.any fun peak => net ≤ lockFloor peak config then some .lock
  else if late ∧ 0 < net then some .t30Positive
  else if late ∧ rule.closeFlat then some .t30Flat
  else none

namespace Engine
variable (zone : Zone)

def late (moment : Int) : Bool := sellPositivesFrom ≤ zone.time moment

/-- At or past the close an exit check neither marks nor sells. -/
def afterClose (engine : Engine) (moment : Int) : Bool := zone.instant engine.day sessionClose ≤ moment

section Exits

def mark (engine : Engine) (position : Position) (moment : Int) : Engine := { engine with
  state := { engine.state with positions := engine.state.positions.insert position.symbol position }
  markedMoment := engine.markedMoment.insert position.symbol moment }

/-- What an exit check of a marked position sells it for; the feed's bid alone never sells. -/
def sale (position : Position) (market : MarketView) (moment : Int) (net : ℚ) (source : ExitSource)
    (config : String) : Option ExitReason :=
  match exitReason position net (late zone moment) config with
  | none => none
  | some reason =>
      if source = .stream ∧ !tradeConfirms position market moment reason config then
        if late zone moment ∧ rule.closeFlat ∧ tradeConfirms position market moment .t30Flat config then
          some .t30Flat
        else none
      else some reason

def exit (engine : Engine) (position : Position) (market : MarketView) (moment : Int) (bid : ℚ)
    (source : ExitSource) : Engine :=
  let net := position.netPercent bid
  let marked := position.marked bid
  let engine := engine.mark marked moment
  match sale zone marked market moment net source engine.state.config with
  | none => engine
  | some reason => engine.sell marked bid net reason moment

/-- A pass over held names on the pushed NBBO; a read past the close ends it. -/
def passOver (now : Int) (read : String → Reading) : List String → Engine → Engine
  | [], engine => engine
  | symbol :: rest, engine =>
      match engine.state.positions.get? symbol with
      | none => passOver now read rest engine
      | some position =>
          let reading := read symbol
          let moment := now + reading.elapsed
          if engine.afterClose zone moment then engine
          else match exitBid reading.quote moment with
            | none => passOver now read rest engine
            | some bid =>
                passOver now read rest (engine.exit zone position reading.market moment bid .fast)

def fastExits (engine : Engine) (pass : Pass) : Engine :=
  passOver zone pass.now pass.read engine.state.positions.keys engine

def fastPasses (engine : Engine) (passes : List Pass) : Engine := passes.foldl (fastExits zone) engine

/-- The step's own pass: the names with no usable pushed quote are left pending. -/
def pushedExits (now : Int) (read : String → Reading) : List String → Engine → List String →
    Engine × List String
  | [], engine, pending => (engine, pending)
  | symbol :: rest, engine, pending =>
      match engine.state.positions.get? symbol with
      | none => pushedExits now read rest engine pending
      | some position =>
          let reading := read symbol
          let moment := now + reading.elapsed
          if engine.afterClose zone moment then (engine, [])
          else match exitBid reading.quote moment with
            | none => pushedExits now read rest engine (pending ++ [symbol])
            | some bid =>
                pushedExits now read rest (engine.exit zone position reading.market moment bid .massive) pending

/-- The names left pending, on Massive's answers, then on the feed's fresh quote; a name sold
or marked since the wait began is left alone. -/
def settle (now : Int) (answers : String → Option Quote) (read : String → Reading)
    (before : Dict String Int) : List String → Engine → Engine
  | [], engine => engine
  | symbol :: rest, engine =>
      match engine.state.positions.get? symbol with
      | none => settle now answers read before rest engine
      | some position =>
          if engine.markedMoment.get? symbol ≠ before.get? symbol then
            settle now answers read before rest engine
          else
            let reading := read symbol
            let moment := now + reading.elapsed
            if engine.afterClose zone moment then engine
            else match exitBid (answers symbol) moment, reading.market.freshQuote moment with
              | some bid, _ =>
                  settle now answers read before rest
                    (engine.exit zone position reading.market moment bid .massive)
              | none, some quote =>
                  settle now answers read before rest
                    (engine.exit zone position reading.market moment quote.bid .stream)
              | none, none => settle now answers read before rest engine

end Exits

section Entries

/-- A name whose last trade is back above its VWAP. -/
structure Cross where
  symbol : String
  gap : ℚ
  close : ℚ
  deriving DecidableEq, Repr

/-- One candidate of the buy signal; a held name's cross is counted and not bought. -/
def watch (signal : String → Option (ℚ × ℚ)) (seen : Engine × List Cross) (candidate : String × ℚ) :
    Engine × List Cross :=
  let (engine, crosses) := seen
  let (symbol, gap) := candidate
  if !engine.members.contains symbol then (engine, crosses)
  else match signal symbol with
    | none => (engine, crosses)
    | some (close, vwap) =>
        if close < vwap then
          ({ engine with state := { engine.state with below := engine.state.below.insert symbol true } }, crosses)
        else if close ≤ vwap ∨ !engine.state.below.getD symbol false then (engine, crosses)
        else
          let engine := { engine with state := { engine.state with
            below := engine.state.below.insert symbol false, signals := engine.state.signals + 1 } }
          (engine, if engine.state.positions.contains symbol then crosses else crosses ++ [⟨symbol, gap, close⟩])

/-- What an entry buys: its quote, and where that came from. -/
structure Purchase where
  quote : Quote
  massive : Bool
  moment : Int
  deriving DecidableEq, Repr

def buy (engine : Engine) (cross : Cross) (purchase : Purchase) : Engine :=
  let spreadBps := purchase.quote.spreadBps
  let ask := purchase.quote.ask
  let size := engine.state.navRealized / rule.slots * sizeWeight spreadBps
  let shares := size / (ask * (1 + feeSide))
  let market := ((engine.members.get? cross.symbol).map Member.market).getD ""
  { engine with state := { engine.state with
      positions := engine.state.positions.insert cross.symbol
        { symbol := cross.symbol, market := market, shares := shares, entryPrice := ask
          costUsd := size, openedAt := purchase.moment, lastMark := some purchase.quote.bid }
      fills := engine.state.fills ++ [
        { side := .buy, symbol := cross.symbol, market := market, quantity := shares, price := ask
          executedAt := purchase.moment, feesUsd := shares * ask * feeSide, realizedPnlUsd := none
          realizedReturnPercent := none
          reason := "compra: abertura " ++ signed 2 cross.gap ++
            "% sobre o fechamento anterior, voltou acima do VWAP, spread " ++ fixed 1 spreadBps ++
            " bps (" ++ (if purchase.massive then "NBBO Massive" else "cotação do stream") ++ ")" }] } }

def shadowOpen (engine : Engine) (symbol : String) (purchase : Purchase) : Engine := { engine with
  state := engine.state.shadowOpen symbol purchase.quote.ask purchase.quote.spreadBps purchase.moment }

/-- What one cross of the step comes to. -/
inductive Verdict where
  | skip
  | stop
  | shadow (purchase : Purchase)
  | buy (purchase : Purchase)
  deriving DecidableEq, Repr

/-- An answer far from the signal's own close is never bought on: the feed's quote stands in. -/
def quoteOf (asked : Option Wait) (market : MarketView) (cross : Cross) : Option (Quote × Bool) :=
  let answer := asked.bind fun wait => (wait.answers cross.symbol).filter fun quote => plausibleQuote quote cross.close
  match answer with
  | some quote => some (quote, true)
  | none => market.quote.map fun quote => (quote, false)

def entryMaxAge (massive : Bool) : Int := if massive then nbboMaxAge else quoteMaxAge

def lastEntryNow (engine : Engine) : Int :=
  if rule.closeFlat then min engine.lastEntry flatLastEntry else engine.lastEntry

def verdict (engine : Engine) (now : Int) (asked : Option Wait) (read : String → Reading) (cross : Cross) :
    Verdict :=
  if rule.slots ≤ engine.state.positions.size then .skip
  else
    let reading := read cross.symbol
    let moment := now + reading.elapsed
    match quoteOf asked reading.market cross with
    | none => .skip
    | some (quote, massive) =>
        if !plausibleQuote quote cross.close then .skip
        else if engine.lastEntryNow < zone.time moment then .stop
        else if !quote.ordered ∨ entryMaxAge massive < moment - quote.quotedAt then .skip
        else if rule.spreadMaxBps + rule.boundBps < quote.spreadBps then .shadow ⟨quote, massive, moment⟩
        else .buy ⟨quote, massive, moment⟩

def enter (now : Int) (asked : Option Wait) (read : String → Reading) : List Cross → Engine → Engine
  | [], engine => engine
  | cross :: rest, engine =>
      match engine.verdict zone now asked read cross with
      | .skip => enter now asked read rest engine
      | .stop => engine
      | .shadow purchase => enter now asked read rest
          (engine.shadowOpen cross.symbol purchase)
      | .buy purchase => enter now asked read rest (engine.buy cross purchase)

end Entries

section Steps

/-- The pushed pass of a step, and the names it leaves pending. -/
def stepPushed (engine : Engine) (input : StepInput) : Engine × List String :=
  match input.pushed with
  | none => (engine, engine.state.positions.keys)
  | some read => pushedExits zone input.now read engine.state.positions.keys engine []

/-- The exits of a step: the pushed pass, the wait on Massive with the passes during it, and the
names still pending after it. -/
def stepExits (engine : Engine) (input : StepInput) : Engine :=
  let pushed := engine.stepPushed zone input
  let before := pushed.1.markedMoment
  match input.exits with
  | some wait =>
      let waited := if pushed.2 = [] then pushed.1 else pushed.1.fastPasses zone wait.passes
      settle zone input.now wait.answers input.settled before pushed.2 waited
  | none => settle zone input.now (fun _ => none) input.settled before pushed.2 pushed.1

/-- The buy signal over the candidates: this second's crosses. -/
def stepSignals (engine : Engine) (input : StepInput) : Engine × List Cross :=
  let minute := zone.time input.now / (60 * second)
  let engine := { engine with state := { engine.state with lastSignalMinute := minute } }
  engine.state.candidates.entries.foldl (watch input.signal) (engine, [])

/-- The wait on Massive for the crosses, when a slot is free. -/
def stepWait (engine : Engine) (input : StepInput) (crosses : List Cross) : Engine :=
  match input.entries with
  | some wait =>
      if crosses ≠ [] ∧ engine.state.positions.size < rule.slots then engine.fastPasses zone wait.passes
      else engine
  | none => engine

def stepEntries (engine : Engine) (input : StepInput) : Engine :=
  if zone.time input.now ≤ engine.lastEntryNow then
    let signals := engine.stepSignals zone input
    enter zone input.now input.entries input.bought signals.2 (signals.1.stepWait zone input signals.2)
  else engine

def stepShadows (engine : Engine) (input : StepInput) : Engine := { engine with
  state := engine.state.shadowExits (late zone input.now) input.now input.shadows input.shadowFault }

def step (engine : Engine) (input : StepInput) : Engine :=
  ((engine.stepExits zone input).stepShadows zone input).stepEntries zone input

def flatSale (engine : Engine) (position : Position) : Engine :=
  match position.lastMark with
  | some mark => engine.sell position mark (position.netPercent mark) .t30Flat
      (zone.instant engine.day sessionClose)
  | none => engine

/-- A flat close sells what no check could mark; the shadows never carry. -/
def closeSession (engine : Engine) : Engine :=
  let sold := if rule.closeFlat then
      (engine.state.positions.entries.map Prod.snd).foldl (flatSale zone) engine
    else engine
  let settled := sold.state.shadow.entries.foldl EngineState.settleShadow sold.state
  { sold with state := { settled with
      bandsClosed := some (sold.day, settled.bands)
      positions := settled.positions.mapValues Position.older
      lastSession := some sold.day
      session := none } }

end Steps
end Engine
end C3po.Live
