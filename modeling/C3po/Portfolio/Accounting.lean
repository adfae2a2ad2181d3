import Mathlib.Algebra.Order.Ring.Rat
import Mathlib.Data.Prod.Lex
import C3po.Library.Calendar
import C3po.Library.Dict
import C3po.Library.StableSort

/-! The personal portfolio: native-currency accounting of recorded events.

A portfolio is a list of events. `replay` runs them forward, `holdingsAt` gives the
holdings at the close of a day (forward, or backwards from a later informed
position), and `periodResult` measures a period between two closes. Amounts are
exact rationals and a date is the ordinal of its day.
-/

set_option autoImplicit false

namespace C3po.Portfolio
open C3po.Library

inductive Kind where
  | position
  | buy
  | sell
  | dividend
  | split
  | other (name : String)
  deriving DecidableEq, Repr

structure Event where
  symbol : String
  market : String := "US"
  kind : Kind
  quantity : ℚ
  total : ℚ
  fees : ℚ := 0
  splitDenominator : ℚ := 1
  day : Int
  sequence : Int
  deriving DecidableEq, Repr

/-- What a call may raise. -/
inductive Refusal where
  | value (text : String)
  | ambiguousDay (symbol : String)
  | key (name : String)
  | arithmetic
  deriving DecidableEq, Repr

def amount (value : ℚ) : Except Refusal ℚ :=
  if value < 0 then .error (.value "Valor deve ser finito e não negativo") else .ok value

def divide (dividend divisor : ℚ) : Except Refusal ℚ :=
  if divisor = 0 then .error .arithmetic else .ok (dividend / divisor)

structure Position where
  quantity : ℚ := 0
  basis : ℚ := 0
  realized : ℚ := 0
  dividends : ℚ := 0
  deriving DecidableEq, Repr

abbrev Holdings := Dict String Position

def Event.key (event : Event) : Int ×ₗ Int := toLex (event.day, event.sequence)

def ordered (events : List Event) : List Event := stableSort Event.key events

def Position.record (position : Position) (event : Event) : Except Refusal Position := do
  let quantity ← amount event.quantity
  let total ← amount event.total
  let fees ← amount event.fees
  let denominator ← amount event.splitDenominator
  if denominator ≤ 0 ∨ (event.kind ≠ .split ∧ denominator ≠ 1) then
    throw (.value "Denominador permitido apenas em desdobramento")
  match event.kind with
  | .position =>
      if fees ≠ 0 then throw (.value "Inclua as taxas no custo total da posição")
      if quantity = 0 ∧ total ≠ 0 then throw (.value "Posição sem ações deve ter custo zero")
      pure { position with quantity := quantity, basis := total }
  | .buy =>
      if quantity ≤ 0 then throw (.value "Quantidade da compra deve ser positiva")
      pure { position with
        quantity := position.quantity + quantity, basis := position.basis + (total + fees) }
  | .sell =>
      if quantity ≤ 0 ∨ position.quantity < quantity then
        throw (.value "Venda excede a quantidade disponível na data")
      if total < fees then throw (.value "Taxas da venda excedem o valor total")
      let basisSold := position.basis * quantity / position.quantity
      pure { position with
        quantity := position.quantity - quantity
        basis := position.basis - basisSold
        realized := position.realized + (total - fees - basisSold) }
  | .dividend =>
      if quantity ≠ 0 ∨ total < fees then
        throw (.value "Provento deve ter quantidade zero e taxas até o total")
      pure { position with dividends := position.dividends + (total - fees) }
  | .split =>
      if quantity ≤ 0 ∨ position.quantity ≤ 0 ∨ total ≠ 0 ∨ fees ≠ 0 then
        throw (.value "Desdobramento exige fator positivo e posição existente, sem valor ou taxas")
      pure { position with quantity := position.quantity * quantity / denominator }
  | .other _ => throw (.value "Movimentação inválida")

def recordOn (holdings : Holdings) (event : Event) : Except Refusal Holdings := do
  let position ← (holdings.getD event.symbol {}).record event
  pure (holdings.insert event.symbol position)

def replay (events : List Event) (through : Option Int := none) : Except Refusal Holdings :=
  (ordered events).foldlM
    (fun holdings event =>
      if through.any (· < event.day) then pure holdings else recordOn holdings event)
    Dict.empty

/-- The scan of one symbol's events for corrections: the quantity the informed position
and the movements since it give, and the days whose informed position disagrees. -/
structure Scan where
  quantity : Option ℚ := none
  informedDay : Option Int := none
  moved : Bool := false
  found : List Int := []
  deriving DecidableEq, Repr

def Scan.inform (scan : Scan) (informed : ℚ) (day : Int) : Scan :=
  -- a second informed position on the same day, with no movement between, fixes a typing error
  let sameDayFix := scan.informedDay = some day ∧ ¬ scan.moved
  { quantity := some informed
    informedDay := some day
    moved := false
    found := if scan.quantity.any (informed ≠ ·) ∧ ¬ sameDayFix then scan.found ++ [day] else scan.found }

def Scan.record (scan : Scan) (event : Event) : Except Refusal Scan := do
  if event.kind = .position then
    let informed ← amount event.quantity
    return scan.inform informed event.day
  let moved := { scan with moved := scan.moved || event.kind ≠ .dividend }
  match scan.quantity, event.kind with
  | some quantity, .buy =>
      let bought ← amount event.quantity
      pure { moved with quantity := some (quantity + bought) }
  | some quantity, .sell =>
      let sold ← amount event.quantity
      pure { moved with quantity := some (quantity - sold) }
  | some quantity, .split =>
      let factor ← amount event.quantity
      let denominator ← amount event.splitDenominator
      let scaled ← divide (quantity * factor) denominator
      pure { moved with quantity := some scaled }
  | _, _ => pure moved

def symbols (events : List Event) : List String := (events.map Event.symbol).dedup

def eventsOf (events : List Event) (symbol : String) : List Event :=
  events.filter fun event => event.symbol = symbol

/-- The informed positions that disagree with the previous one plus the movements between. -/
def restatements (events : List Event) : Except Refusal (List (String × Int)) := do
  let found ← (symbols events).mapM fun symbol => do
    let scan ← (ordered (eventsOf events symbol)).foldlM Scan.record {}
    pure (scan.found.map fun day => (symbol, day))
  pure found.flatten

def cutoffOf (day : Int) : Int := Calendar.newYear (Calendar.yearOf day) - 1

/-- The earliest date stays; on that date the last informed position wins. -/
def laterOf (event : Event) : Option Event → Event
  | none => event
  | some first => if event.day = first.day then event else first

def laterSnapshots (events : List Event) (day : Int) : Dict String Event :=
  ((ordered events).filter fun event => event.kind = .position ∧ day < event.day).foldl
    (fun later event => later.insert event.symbol (laterOf event (later.get? event.symbol)))
    Dict.empty

def anchored (events : List Event) (day : Int) (symbol : String) : Bool :=
  events.any fun event => event.kind = .position ∧ event.day ≤ day ∧ event.symbol = symbol

/-- The quantity before a movement, from the quantity after it. -/
def unmove (quantity : ℚ) (event : Event) : Except Refusal ℚ :=
  match event.kind with
  | .buy => do
      let bought ← amount event.quantity
      pure (quantity - bought)
  | .sell => do
      let sold ← amount event.quantity
      pure (quantity + sold)
  | .split => do
      let denominator ← amount event.splitDenominator
      let factor ← amount event.quantity
      divide (quantity * denominator) factor
  | _ => pure quantity

def undo (quantity : ℚ) (event : Event) : Except Refusal ℚ := do
  let before ← unmove quantity event
  if before < 0 then .error (.value "Movimentações incompatíveis com a posição informada")
  else .ok before

def movesUpTo (events : List Event) (symbol : String) (day : Int) (snap : Event) : List Event :=
  (ordered events).filter fun event =>
    event.symbol = symbol ∧ event.kind ≠ .position ∧ event.kind ≠ .dividend ∧
      day < event.day ∧ event.day ≤ snap.day

/-- One symbol's holding projected back from the informed position after `day`. -/
def projectBack (events : List Event) (day : Int) (closing : Bool) (holdings : Holdings)
    (entry : String × Event) : Except Refusal Holdings :=
  let symbol := entry.1
  let snap := entry.2
  let cutoff := cutoffOf snap.day
  let moves := movesUpTo events symbol day snap
  if anchored events day symbol then .ok holdings
  else if day < cutoff ∨ (closing ∧ day = cutoff) then .ok holdings
  else if moves.any fun event => event.day = snap.day then .error (.ambiguousDay symbol)
  else do
    let informed ← amount snap.quantity
    let quantity ← moves.reverse.foldlM undo informed
    pure (holdings.insert symbol { holdings.getD symbol {} with quantity := quantity })

/-- Holdings at the close of `day`. -/
def holdingsAt (events : List Event) (day : Int) (closing : Bool := false) :
    Except Refusal Holdings := do
  let holdings ← replay events (some day)
  (laterSnapshots events day).entries.foldlM (projectBack events day closing) holdings

inductive Reason where
  | noOpening
  | corrected (symbol : String) (day : Int)
  | notProjected (year : Int)
  | ambiguous (symbol : String)
  | incompatible
  | smallCapital
  | noQuote
  deriving DecidableEq, Repr

def twoDigits (number : Int) : String := if number < 10 then s!"0{number}" else s!"{number}"

def dayText (day : Int) : String :=
  let (year, month, dayOfMonth) := Calendar.civil day
  s!"{twoDigits dayOfMonth}/{twoDigits month}/{year}"

def Reason.text : Reason → String
  | .noOpening => "Sem posição comprovada no início do período"
  | .corrected symbol day =>
      s!"Posição de {symbol} corrigida em {dayText day}; a correção não é resultado"
  | .notProjected year => s!"Posições informadas em {year} não são projetadas antes de {year}"
  | .ambiguous symbol => s!"Movimentação de {symbol} no mesmo dia da posição informada; " ++
      "não se sabe se veio antes ou depois"
  | .incompatible => "Movimentações incompatíveis com a posição informada"
  | .smallCapital => "Base de capital insuficiente para percentual"
  | .noQuote => "Cotação ou câmbio histórico indisponível para uma das posições"

structure Result where
  first : Int
  last : Int
  profitUsd : Option ℚ := none
  returnPercent : Option ℚ := none
  reason : Option Reason := none
  deriving DecidableEq, Repr

/-- With no informed position at all, the first event must be a buy or come before the period. -/
def unproven (events : List Event) (before : Int) : Bool :=
  !(events.any fun event => event.kind = .position) &&
    match (ordered events).head? with
    | none => true
    | some first => before < first.day && first.kind ≠ .buy

def held (holdings : Holdings) : List (String × ℚ) :=
  (holdings.entries.map fun entry => (entry.1, entry.2.quantity)).filter fun entry => entry.2 ≠ 0

def sameHeld (first second : Holdings) : Bool :=
  (held first).all (· ∈ held second) && (held second).all (· ∈ held first)

def cutoffs (events : List Event) (before last : Int) : List Int :=
  stableSort id ((((events.filter fun event => event.kind = .position).map fun event =>
    cutoffOf event.day).dedup).filter fun cutoff => before < cutoff ∧ cutoff < last)

/-- The first 31 December at which recorded movements and informed positions disagree. -/
def switchAt (events : List Event) : List Int → Except Refusal (Option Int)
  | [] => pure none
  | cutoff :: later => do
      let recorded ← holdingsAt events cutoff true
      let informed ← holdingsAt events cutoff
      if sameHeld recorded informed then switchAt events later else pure (some cutoff)

def bounds (events : List Event) (before last : Int) : Except Refusal (Int ⊕ Holdings × Holdings) := do
  match ← switchAt events (cutoffs events before last) with
  | some cutoff => pure (.inl cutoff)
  | none =>
      let opening ← holdingsAt events before
      let closing ← holdingsAt events last true
      pure (.inr (opening, closing))

def flowOf (event : Event) (total fees : ℚ) : ℚ :=
  match event.kind with
  | .buy => total + fees
  | .sell => -(total - fees)
  | .dividend => -(total - fees)
  | _ => 0

section
variable (valueAt : Holdings → Int → Except Refusal ℚ) (rateAt : String → Int → Except Refusal ℚ)

/-- The flow of one event in dollars, with its weight in the period. -/
def addFlow (last days : Int) (sums : ℚ × ℚ) (event : Event) : Except Refusal (ℚ × ℚ) := do
  let total ← amount event.total
  let fees ← amount event.fees
  let flow := flowOf event total fees
  if flow = 0 then return sums
  let fx ← rateAt event.market event.day
  let dollars ← divide flow fx
  let weight ← divide (dollars * ((last - event.day : Int) : ℚ)) (days : ℚ)
  pure (sums.1 + dollars, sums.2 + weight)

def measure (events : List Event) (blank : Result) (opening closing : Holdings) :
    Except Refusal Result := do
  let before := blank.first - 1
  let openingValue ← valueAt opening before
  let closingValue ← valueAt closing blank.last
  let selected := events.filter fun event => blank.first ≤ event.day ∧ event.day ≤ blank.last
  let (flows, weighted) ← selected.foldlM (addFlow rateAt blank.last (blank.last - before)) (0, 0)
  let profit := closingValue - openingValue - flows
  let capital := openingValue + weighted
  pure { blank with
    profitUsd := some profit
    returnPercent := if 0 < capital then some (profit / capital * 100) else none
    reason := if capital ≤ 0 then some .smallCapital else none }

/-- Modified Dietz on the securities sleeve; dated flows assumed at day end. -/
def periodResult (events : List Event) (first last : Int) : Except Refusal Result := do
  let before := first - 1
  let blank : Result := { first := first, last := last }
  if unproven events before then return { blank with reason := some .noOpening }
  let crossed := (← restatements events).filter fun entry => before < entry.2 ∧ entry.2 ≤ last
  match stableSort Prod.snd crossed with
  | (symbol, day) :: _ => pure { blank with reason := some (.corrected symbol day) }
  | [] =>
      match bounds events before last with
      | .error (.ambiguousDay symbol) => pure { blank with reason := some (.ambiguous symbol) }
      | .error (.value _) => pure { blank with reason := some .incompatible }
      | .error other => throw other
      | .ok (.inl cutoff) =>
          pure { blank with reason := some (.notProjected ((Calendar.yearOf cutoff) + 1)) }
      | .ok (.inr (opening, closing)) =>
          match measure valueAt rateAt events blank opening closing with
          | .error .arithmetic => throw .arithmetic
          | .error _ => pure { blank with reason := some .noQuote }
          | .ok result => pure result

end
end C3po.Portfolio
