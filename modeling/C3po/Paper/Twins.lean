import Mathlib.Tactic.Linarith
import Mathlib.Tactic.Ring
import C3po.Paper.Stores

/-! When the dictionaries behave as the tables.

They drift apart where a purchase adds to a position the watcher already follows, where a
partial sale brings another exchange rate, where the last hook raises, where the caller's copy
of the cash is stale, and where the tables refuse a value.
-/

set_option autoImplicit false

namespace C3po.Paper
open C3po.Library

section Conditions

/-- What the tables accept of the arguments of a trade. -/
structure Order.Valid (order : Order) : Prop where
  market : order.market ∈ tableMarkets
  side : order.side = "BUY" ∨ order.side = "SELL"
  quantity : 0 < order.quantity
  signalPrice : 0 < order.signalPrice
  fillPrice : 0 < order.fillPrice
  fx : 0 < order.fx
  fees : 0 ≤ order.fees
  slippage : 0 ≤ order.slippage
  stop : order.side = "BUY" → 0 < order.stopPrice

/-- Both stores refuse the trade before they write. -/
def Refused (rows : Rows) (order : Order) : Prop :=
  if order.side = "BUY" then
    ((rows.positions.get? order.key).map fun holding => holding.quantity).getD 0 + order.quantity = 0 ∨ order.fx = 0 ∨
      (rows.cash + 1 / 100 < order.gross + order.fees ∧ order.copy + 1 / 100 < order.gross + order.fees)
  else ∀ holding ∈ rows.positions.get? order.key, holding.quantity + dust < order.quantity

/-- The effects of a trade are the same in both stores. -/
structure Plain (rows : Rows) (request : Request) : Prop where
  valid : request.order.Valid
  copy : request.order.copy = rows.cash
  after : request.after = none
  affords : request.order.side = "BUY" → request.order.gross + request.order.fees ≤ rows.cash
  keeps : request.order.side = "SELL" → 0 ≤ rows.cash + (request.order.gross - request.order.fees)
  adds : request.order.side = "BUY" → ∀ holding ∈ rows.positions.get? request.order.key,
    holding.chandelierAtrLocal = none ∧ holding.highWaterPriceLocal ≤ request.order.fillPrice
  trims : request.order.side = "SELL" → ∀ holding ∈ rows.positions.get? request.order.key,
    dust < holding.quantity - request.order.quantity → request.order.fx = holding.fxToUsd

/-- The condition under which one call does the same to both stores. -/
def Met (rows : Rows) : Operation → Prop
  | .trade request => request.before = none → Refused rows request.order ∨ Plain rows request
  | .mark key price fx _ stop _ _ => (rows.positions.get? key).isSome → 0 < price ∧ 0 < fx ∧ 0 < stop
  | .observe key price _ => ∀ holding ∈ rows.positions.get? key, ∀ atr ∈ holding.chandelierAtrLocal,
      0 < price ∨ 0 < holding.trailing price atr
  | .anchor .. | .advance .. => True

end Conditions

section Columns

/-- A position without its name and its instants. -/
def Holding.columns (holding : Holding) : Holding :=
  { holding with name := "", currency := "", openedAt := 0, updatedAt := 0, chandelierAtrAsOf := none }

/-- A trade without its id and its instant. -/
def Fill.columns (fill : Fill) : Fill := { fill with id := 0, executedAt := 0 }

/-- What the watcher keeps of a position: no stop and no confirmation before the first ATR, and
no confirmation below a stop of zero. -/
structure Holding.Watched (holding : Holding) : Prop where
  unset : holding.chandelierAtrLocal = none → holding.chandelierStopPriceLocal = none ∧
    holding.chandelierConfirmationCount = 0 ∧ holding.chandelierLastConfirmationTickAt = none
  set : ∀ atr ∈ holding.chandelierAtrLocal, 0 < atr ∧ 0 ≤ holding.chandelierStopPriceLocal.getD 0
  low : holding.chandelierStopPriceLocal.getD 0 ≤ 0 →
    holding.chandelierConfirmationCount = 0 ∧ holding.chandelierLastConfirmationTickAt = none

/-- The two stores hold the same. -/
structure Alike (sql memory : Rows) : Prop where
  cash : sql.cash = memory.cash
  positions : ∀ key, (sql.positions.get? key).map Holding.columns = (memory.positions.get? key).map Holding.columns
  trades : sql.trades.map Fill.columns = memory.trades.map Fill.columns

/-- They hold the same, and what the next calls rely on. -/
structure Twin (sql memory : Rows) : Prop extends Alike sql memory where
  checked : ∀ key holding, sql.positions.get? key = some holding → holding.toPosition.checked key.1 = true
  watched : ∀ key holding, sql.positions.get? key = some holding → holding.Watched

variable {holding other : Holding}

/-- A change that does not look at what is left out. -/
def Blind (change : Holding → Holding) : Prop := ∀ holding, (change holding).columns = (change holding.columns).columns

theorem marked_blind (price fx highWater stop : ℚ) (updatedAt : Int) (writes : Bool) :
    Blind fun holding => holding.marked price fx highWater stop updatedAt writes := fun _ => rfl

theorem anchored_blind (atr hardStop : ℚ) (asOf : Int) : Blind fun holding => holding.anchored atr hardStop asOf := fun _ => rfl

theorem advanced_blind (price : ℚ) : Blind fun holding => holding.advanced price := fun _ => rfl

theorem ticked_blind (price : ℚ) (tickAsOf : Int) : Blind fun holding => holding.ticked price tickAsOf := by
  rintro ⟨position, hard, _ | atr, asOf, stop, count, last⟩
  · rfl
  · rfl

theorem ticked_observed (watched : holding.Watched) {price : ℚ} (tickAsOf : Int)
    (met : ∀ atr ∈ holding.chandelierAtrLocal, 0 < price ∨ 0 < holding.trailing price atr) :
    holding.ticked price tickAsOf = holding.observed price tickAsOf := by
  unfold Holding.ticked Holding.observed Holding.confirmed
  cases set : holding.chandelierAtrLocal with
  | none =>
    obtain ⟨stop, -, -⟩ := watched.unset set
    have none : (holding.advanced price).chandelierStopPriceLocal = none := stop
    simp [none]
  | some atr =>
    have positive := (watched.set atr set).1
    simp only [Option.getD_some, if_pos positive]
    by_cases below : price ≤ holding.trailing price atr
    · have low : 0 < holding.trailing price atr := by
        obtain price | stop := met atr set
        · exact lt_of_lt_of_le price below
        · exact stop
      have above : ¬ holding.trailing price atr < price := not_lt.mpr below
      by_cases counted : holding.distinct tickAsOf = true
      · have both : price ≤ holding.trailing price atr ∧ holding.distinct tickAsOf = true := ⟨below, counted⟩
        conv_lhs => simp only [if_pos both]
        exact (if_pos ⟨low, below, counted⟩).symm
      · have neither : ¬ (price ≤ holding.trailing price atr ∧ holding.distinct tickAsOf = true) := fun both => counted both.2
        conv_lhs => simp only [if_neg neither, if_neg above]
        exact ((if_neg fun all => counted all.2.2).trans (if_neg fun all => above all.2)).symm
    · have above : holding.trailing price atr < price := not_le.mp below
      have neither : ¬ (price ≤ holding.trailing price atr ∧ holding.distinct tickAsOf = true) := fun both => below both.1
      conv_lhs => simp only [if_neg neither, if_pos above]
      by_cases low : 0 < holding.trailing price atr
      · exact ((if_neg fun all => below all.2.1).trans (if_pos ⟨low, above⟩)).symm
      · -- The stop was zero before the tick too, so nothing was counted yet.
        have before : holding.chandelierStopPriceLocal.getD 0 ≤ 0 := (le_max_left _ _).trans (not_lt.mp low)
        obtain ⟨count, last⟩ := watched.low before
        rw [← count, ← last]
        exact ((if_neg fun all => low all.1).trans (if_neg fun all => low all.1)).symm

theorem Holding.Watched.columns : holding.columns.Watched ↔ holding.Watched :=
  ⟨fun ⟨unset, set, low⟩ => ⟨unset, set, low⟩, fun ⟨unset, set, low⟩ => ⟨unset, set, low⟩⟩

theorem opened_watched (position : Position) (stop : ℚ) : (Holding.opened position stop).Watched where
  unset _ := ⟨rfl, rfl, rfl⟩
  set _ set := nomatch set
  low _ := ⟨rfl, rfl⟩

theorem anchored_watched (watched : holding.Watched) {atr : ℚ} (positive : 0 < atr) (hardStop : ℚ) (asOf : Int) :
    (holding.anchored atr hardStop asOf).Watched where
  unset none := nomatch none
  set _ set := by
    cases set
    refine ⟨positive, ?_⟩
    cases was : holding.chandelierAtrLocal with
    | none =>
      have unset := (watched.unset was).1
      simp [Holding.anchored, unset]
    | some old => exact ((watched.set old was).2).trans (le_max_left _ _)
  low zero := watched.low ((le_max_left _ _).trans zero)

theorem ticked_watched (watched : holding.Watched) {price : ℚ} (tickAsOf : Int)
    (met : ∀ atr ∈ holding.chandelierAtrLocal, 0 < price ∨ 0 < holding.trailing price atr) :
    (holding.ticked price tickAsOf).Watched := by
  unfold Holding.ticked
  cases was : holding.chandelierAtrLocal with
  | none => exact ⟨watched.unset, watched.set, watched.low⟩
  | some atr =>
    constructor
    · intro none
      exact absurd (was.symm.trans none) (nofun)
    · intro other set
      obtain ⟨positive, nonneg⟩ := watched.set other set
      exact ⟨positive, nonneg.trans (le_max_left _ _)⟩
    · intro zero
      change holding.trailing price atr ≤ 0 at zero
      have paid : 0 < price := (met atr was).resolve_right (not_lt.mpr zero)
      have above : holding.trailing price atr < price := lt_of_le_of_lt zero paid
      have below : ¬ price ≤ holding.trailing price atr := not_le.mpr above
      simp only [below, above, false_and, if_false, if_true, and_self]

end Columns

section Effects
variable {rows : Rows} {request : Request} {A B : Type}

theorem demand_true {condition : Bool} (holds : condition = true) (refusal : Refusal) (next : Unit → Work A) :
    (demand condition refusal >>= next) rows = next () rows := by
  rw [demand, if_pos holds]
  rfl

theorem demand_false {condition : Bool} (fails : condition = false) (refusal : Refusal) (next : Unit → Work A) :
    (demand condition refusal >>= next) rows = (.error refusal, rows) := by
  rw [demand, if_neg (by rw [fails]; decide)]
  rfl

theorem hooked_none {hook : Option String} (silent : hook = none) (next : Unit → Work A) :
    (hooked hook >>= next) rows = next () rows := by
  rw [silent]
  rfl

theorem hooked_some {hook : Option String} {text : String} (raises : hook = some text) (next : Unit → Work A) :
    (hooked hook >>= next) rows = (.error (.hook text), rows) := by
  rw [raises]
  rfl

theorem check_ok_bind {made : Except Refusal B} {value : B} (ok : made = .ok value) (next : B → Work A) :
    (Transaction.check made >>= next) rows = next value rows := by
  rw [ok]
  rfl

theorem check_error_bind {made : Except Refusal B} {refusal : Refusal} (error : made = .error refusal) (next : B → Work A) :
    (Transaction.check made >>= next) rows = (.error refusal, rows) := by
  rw [error]
  rfl

theorem putHolding_bind {key : String × String} {holding : Holding} (checked : holding.toPosition.checked key.1 = true)
    (next : Unit → Work A) :
    (Sql.putHolding key holding >>= next) rows = next () { rows with positions := rows.positions.insert key holding } := by
  unfold Sql.putHolding demand
  rw [checked]
  rfl

theorem bind_of_ok {first : Work A} {value : A} {written : Rows} (ran : first rows = (.ok value, written)) (next : A → Work B) :
    (first >>= next) rows = next value written := by
  simp only [bind, ran]

theorem sql_closes {cash : ℚ} {realized : Option ℚ} (solvent : 0 ≤ cash)
    (checked : (filled request rows.trades.length realized).toTrade.checked = true) (after : request.after = none) :
    Sql.closeTrade request cash realized rows = (.ok (.executed (filled request rows.trades.length realized) cash),
      { rows with cash, status := "running", trades := rows.trades ++ [filled request rows.trades.length realized] }) := by
  unfold Sql.closeTrade
  rw [Transaction.read_bind, demand_true (decide_eq_true solvent), demand_true checked, Transaction.write_bind, hooked_none after]
  rfl

theorem memory_closes {cash : ℚ} {realized : Option ℚ} (after : request.after = none) :
    Memory.closeTrade request cash realized rows = (.ok (.executed (filled request rows.trades.length realized) cash),
      { rows with cash, status := "running", trades := rows.trades ++ [filled request rows.trades.length realized] }) := by
  unfold Memory.closeTrade
  rw [Transaction.read_bind, Transaction.write_bind, hooked_none after]
  rfl

theorem valid_checked (valid : request.order.Valid) (id : ℕ) (realized : Option ℚ) :
    (filled request id realized).toTrade.checked = true := by
  have gross : 0 ≤ request.order.gross :=
    mul_nonneg (mul_nonneg valid.quantity.le valid.fillPrice.le) valid.fx.le
  have side : request.order.side ∈ ["BUY", "SELL"] := by
    obtain buy | sell := valid.side
    · rw [buy]; exact List.mem_cons_self
    · rw [sell]; exact List.mem_cons_of_mem _ List.mem_cons_self
  simp only [filled, recordedTrade, Trade.checked, Bool.and_eq_true]
  exact ⟨⟨⟨⟨⟨⟨⟨⟨decide_eq_true valid.market, decide_eq_true side⟩, decide_eq_true valid.quantity⟩,
    decide_eq_true valid.signalPrice⟩, decide_eq_true valid.fillPrice⟩, decide_eq_true valid.fx⟩, decide_eq_true gross⟩,
    decide_eq_true valid.fees⟩, decide_eq_true valid.slippage⟩

end Effects

section Purchases
variable {order : Order} {holding other : Holding}

theorem columns_quantity (same : holding.columns = other.columns) : holding.quantity = other.quantity := by
  have fields := congrArg (fun plain : Holding => plain.quantity) same
  exact fields

theorem of_columns (same : holding.columns = other.columns) :
    other = { holding with
      name := other.name, currency := other.currency, openedAt := other.openedAt, updatedAt := other.updatedAt,
      chandelierAtrAsOf := other.chandelierAtrAsOf } := by
  obtain ⟨⟨⟩⟩ := holding
  obtain ⟨⟨⟩⟩ := other
  simp only [Holding.columns, Holding.mk.injEq, Position.mk.injEq] at same ⊢
  tauto

def highWater (fillPrice : ℚ) (current : Option Position) : ℚ :=
  match current with
  | none => fillPrice
  | some current => max current.highWaterPriceLocal fillPrice

theorem boughtPosition_checked (valid : order.Valid) (buys : order.side = "BUY") (current : Option Position)
    (held : ∀ position ∈ current, position.checked order.market = true) :
    ∃ position, boughtPosition order current = .ok position ∧ position.checked order.market = true := by
  have gross : 0 < order.gross := mul_pos (mul_pos valid.quantity valid.fillPrice) valid.fx
  have old : 0 ≤ (current.map Position.quantity).getD 0 ∧ 0 ≤ (current.map Position.averageCostUsd).getD 0 := by
    cases current with
    | none => exact ⟨le_rfl, le_rfl⟩
    | some position =>
      have checks := held position rfl
      simp only [Position.checked, Bool.and_eq_true, decide_eq_true_eq] at checks
      exact ⟨checks.1.1.1.1.1.1.2, checks.1.1.1.1.2.le⟩
  have quantity : 0 < (current.map Position.quantity).getD 0 + order.quantity := add_pos_of_nonneg_of_pos old.1 valid.quantity
  have average : 0 < ((current.map Position.quantity).getD 0 * (current.map Position.averageCostUsd).getD 0 + order.gross + order.fees) /
      ((current.map Position.quantity).getD 0 + order.quantity) := by
    apply div_pos _ quantity
    linarith [mul_nonneg old.1 old.2, valid.fees]
  have high : 0 < highWater order.fillPrice current := by
    cases current with
    | none => exact valid.fillPrice
    | some position => exact lt_max_of_lt_right valid.fillPrice
  refine ⟨_, if_neg (not_or.mpr ⟨quantity.ne', valid.fx.ne'⟩), ?_⟩
  simp only [Position.checked, Bool.and_eq_true]
  exact ⟨⟨⟨⟨⟨⟨⟨decide_eq_true valid.market, decide_eq_true quantity.le⟩, decide_eq_true (div_pos average valid.fx)⟩,
    decide_eq_true average⟩, decide_eq_true valid.fillPrice⟩, decide_eq_true valid.fx⟩, decide_eq_true high⟩,
    decide_eq_true (valid.stop buys)⟩

/-- A purchase makes the same position of two alike, the first before the watcher set a stop and
below the price paid. -/
theorem bought_twin {current standing : Option Holding} (same : current.map Holding.columns = standing.map Holding.columns)
    (early : ∀ holding ∈ current, holding.Watched ∧ holding.chandelierAtrLocal = none ∧ holding.highWaterPriceLocal ≤ order.fillPrice)
    {position : Position} (made : boughtPosition order (current.map Holding.toPosition) = .ok position) :
    ∃ twin, boughtPosition order (standing.map Holding.toPosition) = .ok twin ∧
      (Sql.bought order current position).columns = (Memory.bought order twin).columns := by
  cases current with
  | none =>
    cases standing with
    | some other => cases same
    | none =>
      refine ⟨position, made, ?_⟩
      unfold boughtPosition at made
      dsimp only at made
      split at made
      · cases made
      · cases made
        rfl
  | some holding =>
    cases standing with
    | none => cases same
    | some other =>
      obtain ⟨watched, unset, low⟩ := early holding rfl
      obtain ⟨stop, count, last⟩ := watched.unset unset
      rw [of_columns (Option.some.inj same)]
      unfold boughtPosition at made ⊢
      dsimp only [Option.map_some, Option.getD_some] at made ⊢
      split at made
      · cases made
      · rename_i sound
        cases made
        refine ⟨_, if_neg sound, ?_⟩
        simp only [Sql.bought, Memory.bought, Holding.opened, Holding.columns, unset, stop, count, last, max_eq_right low]

end Purchases

section Trades
variable {sql memory rows : Rows} {request : Request} {order : Order}

def BothRaise (operation : Operation) (sql memory : Rows) : Prop :=
  (∃ refusal, Sql.perform operation sql = (.error refusal, sql)) ∧
    ∃ refusal, Memory.perform operation memory = (.error refusal, memory)

theorem boughtPosition_error {current : Option Position}
    (zero : (current.map Position.quantity).getD 0 + order.quantity = 0 ∨ order.fx = 0) :
    boughtPosition order current = .error .arithmetic := if_pos zero

theorem quantity_same {current standing : Option Holding} (same : current.map Holding.columns = standing.map Holding.columns) :
    (standing.map fun holding => holding.quantity).getD 0 = (current.map fun holding => holding.quantity).getD 0 := by
  cases current with
  | none =>
    cases standing with
    | none => rfl
    | some other => cases same
  | some holding =>
    cases standing with
    | none => cases same
    | some other => exact (columns_quantity (Option.some.inj same)).symm

theorem hook_raises {text : String} (raises : request.before = some text) (sql memory : Rows) :
    BothRaise (.trade request) sql memory := by
  constructor
  · refine ⟨.hook text, ?_⟩
    unfold Sql.perform Sql.executeTrade
    dsimp only
    rw [Transaction.read_bind, hooked_some raises]
  · refine ⟨.hook text, ?_⟩
    unfold Memory.perform Memory.executeTrade
    dsimp only
    rw [hooked_some raises]

theorem refused_raises (twin : Twin sql memory) (silent : request.before = none) (refused : Refused sql request.order) :
    BothRaise (.trade request) sql memory := by
  have same := twin.positions request.order.key
  unfold Refused at refused
  unfold BothRaise Sql.perform Memory.perform Sql.executeTrade Memory.executeTrade
  dsimp only
  rw [Transaction.read_bind, hooked_none silent, hooked_none silent, Transaction.read_bind]
  simp only [Transaction.ite_apply]
  by_cases buys : request.order.side = "BUY"
  · rw [if_pos buys] at refused
    rw [if_pos buys, if_pos buys]
    by_cases zero : ((sql.positions.get? request.order.key).map fun holding => holding.quantity).getD 0 +
        request.order.quantity = 0 ∨ request.order.fx = 0
    · -- The average cannot be computed, if the cash did not already refuse.
      have first : boughtPosition request.order ((sql.positions.get? request.order.key).map Holding.toPosition) = .error .arithmetic := by
        apply boughtPosition_error
        rw [Option.map_map]
        exact zero
      have second : boughtPosition request.order ((memory.positions.get? request.order.key).map Holding.toPosition) =
          .error .arithmetic := by
        apply boughtPosition_error
        rw [Option.map_map]
        rw [← quantity_same same] at zero
        exact zero
      constructor
      · cases affords : decide (request.order.gross + request.order.fees ≤ sql.cash + 1 / 100) with
        | true => exact ⟨_, by rw [demand_true rfl, check_error_bind first]⟩
        | false => exact ⟨_, by rw [demand_false rfl]⟩
      · cases affords : decide (request.order.gross + request.order.fees ≤ request.order.copy + 1 / 100) with
        | true => exact ⟨_, by rw [demand_true rfl, check_error_bind second]⟩
        | false => exact ⟨_, by rw [demand_false rfl]⟩
    · have poor := (or_assoc.mpr refused).resolve_left zero
      constructor
      · exact ⟨_, by rw [demand_false (decide_eq_false (not_le.mpr poor.1))]⟩
      · exact ⟨_, by rw [demand_false (decide_eq_false (not_le.mpr poor.2))]⟩
  · rw [if_neg buys] at refused
    rw [if_neg buys, if_neg buys]
    cases held : sql.positions.get? request.order.key with
    | none =>
      rw [held] at same
      rw [Option.map_eq_none_iff.mp same.symm]
      exact ⟨⟨_, rfl⟩, ⟨_, rfl⟩⟩
    | some holding =>
      rw [held] at same
      obtain ⟨other, found, alike⟩ := Option.map_eq_some_iff.mp same.symm
      rw [found]
      have short : holding.quantity + dust < request.order.quantity := refused holding held
      have quantity := columns_quantity alike
      constructor
      · exact ⟨_, demand_false (decide_eq_false (not_le.mpr short)) _ _⟩
      · have short : other.quantity + dust < request.order.quantity := quantity ▸ short
        exact ⟨_, demand_false (decide_eq_false (not_le.mpr short)) _ _⟩

/-- Both calls answer, and what they leave is the same. -/
def BothDo (operation : Operation) (sql memory : Rows) : Prop :=
  ∃ first second later after, Sql.perform operation sql = (.ok first, later) ∧
    Memory.perform operation memory = (.ok second, after) ∧ Twin later after

theorem Twin.inserted (twin : Twin sql memory) (key : String × String) {holding other : Holding} {later after : Rows}
    (first : later.positions = sql.positions.insert key holding) (second : after.positions = memory.positions.insert key other)
    (same : holding.columns = other.columns) (checked : holding.toPosition.checked key.1 = true) (watched : holding.Watched)
    (cash : later.cash = after.cash) (trades : later.trades.map Fill.columns = after.trades.map Fill.columns) :
    Twin later after := by
  refine ⟨⟨cash, ?_, trades⟩, ?_, ?_⟩
  · intro name
    rw [first, second, Dict.get?_insert, Dict.get?_insert]
    split
    · exact congrArg some same
    · exact twin.positions name
  · intro name found here
    rw [first, Dict.get?_insert] at here
    split at here
    · rename_i own
      cases here
      rw [own]
      exact checked
    · exact twin.checked name found here
  · intro name found here
    rw [first, Dict.get?_insert] at here
    split at here
    · cases here
      exact watched
    · exact twin.watched name found here

theorem Twin.erased (twin : Twin sql memory) (key : String × String) {later after : Rows}
    (first : later.positions = sql.positions.erase key) (second : after.positions = memory.positions.erase key)
    (cash : later.cash = after.cash) (trades : later.trades.map Fill.columns = after.trades.map Fill.columns) :
    Twin later after := by
  refine ⟨⟨cash, ?_, trades⟩, ?_, ?_⟩
  · intro name
    rw [first, second, Dict.get?_erase, Dict.get?_erase]
    split
    · rfl
    · exact twin.positions name
  · intro name found here
    rw [first, Dict.get?_erase] at here
    split at here
    · cases here
    · exact twin.checked name found here
  · intro name found here
    rw [first, Dict.get?_erase] at here
    split at here
    · cases here
    · exact twin.watched name found here

theorem Twin.filled (twin : Twin sql memory) (request : Request) (realized : Option ℚ) :
    (sql.trades ++ [filled request sql.trades.length realized]).map Fill.columns =
      (memory.trades ++ [Paper.filled request memory.trades.length realized]).map Fill.columns := by
  rw [List.map_append, List.map_append, twin.trades]
  rfl

def Rows.recorded (rows : Rows) (request : Request) (positions : Dict (String × String) Holding) (cash : ℚ) (realized : Option ℚ) : Rows :=
  ⟨cash, "running", positions, rows.trades ++ [filled request rows.trades.length realized]⟩

theorem sql_buys (silent : request.before = none) (plain : Plain rows request) (buys : request.order.side = "BUY")
    {position : Position} (made : boughtPosition request.order ((rows.positions.get? request.order.key).map Holding.toPosition) = .ok position)
    (checked : (Sql.bought request.order (rows.positions.get? request.order.key) position).toPosition.checked request.order.key.1 = true) :
    ∃ answer, Sql.perform (.trade request) rows = (.ok answer, rows.recorded request (rows.positions.insert request.order.key
      (Sql.bought request.order (rows.positions.get? request.order.key) position))
      (rows.cash - (request.order.gross + request.order.fees)) none) := by
  have affords := plain.affords buys
  unfold Sql.perform Sql.executeTrade
  dsimp only
  rw [Transaction.read_bind, hooked_none silent, Transaction.ite_apply, if_pos buys,
    demand_true (decide_eq_true (affords.trans (by linarith))), check_ok_bind made, putHolding_bind checked]
  exact ⟨_, sql_closes (sub_nonneg.mpr affords) (valid_checked plain.valid _ none) plain.after⟩

theorem memory_buys (silent : request.before = none) (after : request.after = none) (buys : request.order.side = "BUY")
    (affords : request.order.gross + request.order.fees ≤ request.order.copy) {position : Position}
    (made : boughtPosition request.order ((rows.positions.get? request.order.key).map Holding.toPosition) = .ok position) :
    ∃ answer, Memory.perform (.trade request) rows = (.ok answer, rows.recorded request (rows.positions.insert request.order.key
      (Memory.bought request.order position)) (request.order.copy - (request.order.gross + request.order.fees)) none) := by
  unfold Memory.perform Memory.executeTrade
  dsimp only
  rw [hooked_none silent, Transaction.read_bind, Transaction.ite_apply, if_pos buys,
    demand_true (decide_eq_true (affords.trans (by linarith))), check_ok_bind made]
  exact ⟨_, memory_closes after⟩

theorem bought_checked (order : Order) (current : Option Holding) (position : Position) :
    (Sql.bought order current position).toPosition = position := by
  cases current <;> rfl

theorem buys_alike (twin : Twin sql memory) (silent : request.before = none) (plain : Plain sql request)
    (buys : request.order.side = "BUY") : BothDo (.trade request) sql memory := by
  have same := twin.positions request.order.key
  have affords := plain.affords buys
  obtain ⟨position, made, checked⟩ := boughtPosition_checked plain.valid buys
    ((sql.positions.get? request.order.key).map Holding.toPosition) (by
      intro position here
      obtain ⟨holding, held, rfl⟩ := Option.map_eq_some_iff.mp here
      have checked := twin.checked _ holding held
      exact checked)
  have early : ∀ holding ∈ sql.positions.get? request.order.key, holding.Watched ∧ holding.chandelierAtrLocal = none ∧
      holding.highWaterPriceLocal ≤ request.order.fillPrice :=
    fun holding held => ⟨twin.watched _ holding held, plain.adds buys holding held⟩
  obtain ⟨other, alsoMade, alike⟩ := bought_twin same early made
  rw [← bought_checked request.order (sql.positions.get? request.order.key) position] at checked
  obtain ⟨first, ran⟩ := sql_buys silent plain buys made checked
  obtain ⟨second, alsoRan⟩ := memory_buys silent plain.after buys (plain.copy ▸ affords) alsoMade
  refine ⟨first, second, _, _, ran, alsoRan, ?_⟩
  refine twin.inserted request.order.key rfl rfl alike checked ?_ ?_ (twin.filled request none)
  · rw [← Holding.Watched.columns, alike]
    exact Holding.Watched.columns.mpr (opened_watched _ _)
  · change sql.cash - _ = request.order.copy - _
    rw [plain.copy]

theorem sells_alike (twin : Twin sql memory) (silent : request.before = none) (plain : Plain sql request)
    (sells : request.order.side = "SELL") {holding other : Holding} (held : sql.positions.get? request.order.key = some holding)
    (found : memory.positions.get? request.order.key = some other) (alike : holding.columns = other.columns)
    (covered : request.order.quantity ≤ holding.quantity + dust) : BothDo (.trade request) sql memory := by
  have notBuys : request.order.side ≠ "BUY" := by
    rw [sells]
    decide
  have keeps := plain.keeps sells
  have checked := twin.checked _ holding held
  rw [of_columns alike] at found
  have valid := plain.valid
  have cash : sql.cash + (request.order.gross - request.order.fees) = request.order.copy + request.order.gross - request.order.fees := by
    rw [plain.copy]
    ring
  unfold BothDo Sql.perform Memory.perform Sql.executeTrade Memory.executeTrade
  dsimp only
  rw [Transaction.read_bind, hooked_none silent, hooked_none silent, Transaction.read_bind, Transaction.ite_apply,
    Transaction.ite_apply, if_neg notBuys, if_neg notBuys, held, found]
  dsimp only
  rw [demand_true (decide_eq_true covered), demand_true (decide_eq_true covered)]
  by_cases left : holding.quantity - request.order.quantity ≤ dust
  · simp only [if_pos left]
    refine ⟨_, _, _, _, sql_closes keeps (valid_checked valid _ _) plain.after, memory_closes plain.after, ?_⟩
    exact twin.erased request.order.key rfl rfl cash (twin.filled request _)
  · have fx : request.order.fx = holding.fxToUsd := plain.trims sells holding held (not_le.mp left)
    simp only [if_neg left]
    have sold : (soldPosition request.order holding.toPosition).checked request.order.key.1 = true := by
      have positive : 0 ≤ holding.quantity - request.order.quantity := by
        have dust_pos : (0 : ℚ) < dust := by norm_num [dust]
        linarith
      simp only [Position.checked, Bool.and_eq_true, soldPosition] at checked ⊢
      exact ⟨⟨⟨⟨⟨⟨⟨checked.1.1.1.1.1.1.1, decide_eq_true positive⟩, checked.1.1.1.1.1.2⟩, checked.1.1.1.1.2⟩,
        decide_eq_true valid.fillPrice⟩, decide_eq_true valid.fx⟩, checked.1.2⟩, checked.2⟩
    rw [@putHolding_bind _ _ _ { holding with toPosition := soldPosition request.order holding.toPosition } sold]
    refine ⟨_, _, _, _, sql_closes keeps (valid_checked valid _ _) plain.after, memory_closes plain.after, ?_⟩
    refine twin.inserted request.order.key rfl rfl ?_ sold ?_ cash (twin.filled request _)
    · simp only [soldPosition, Holding.columns, fx]
    · exact ⟨(twin.watched _ holding held).unset, (twin.watched _ holding held).set, (twin.watched _ holding held).low⟩

theorem trade_alike (twin : Twin sql memory) (met : Met sql (.trade request)) :
    BothRaise (.trade request) sql memory ∨ BothDo (.trade request) sql memory := by
  cases hook : request.before with
  | some text => exact .inl (hook_raises hook sql memory)
  | none =>
    obtain refused | plain := met hook
    · exact .inl (refused_raises twin hook refused)
    · obtain buys | sells := plain.valid.side
      · exact .inr (buys_alike twin hook plain buys)
      · have same := twin.positions request.order.key
        have notBuys : request.order.side ≠ "BUY" := by
          rw [sells]
          decide
        cases held : sql.positions.get? request.order.key with
        | none =>
          refine .inl (refused_raises twin hook ?_)
          rw [Refused, if_neg notBuys, held]
          exact fun _ never => nomatch never
        | some holding =>
          rw [held] at same
          obtain ⟨other, found, alike⟩ := Option.map_eq_some_iff.mp same.symm
          by_cases covered : request.order.quantity ≤ holding.quantity + dust
          · exact .inr (sells_alike twin hook plain sells held found alike.symm covered)
          · refine .inl (refused_raises twin hook ?_)
            rw [Refused, if_neg notBuys, held]
            intro found here
            cases here
            exact not_le.mp covered

end Trades

section Updates
variable {sql memory rows : Rows} {key : String × String}

theorem sql_updates {change : Holding → Holding} {holding : Holding} (held : rows.positions.get? key = some holding)
    (checked : (change holding).toPosition.checked key.1 = true) : Sql.update key change rows =
      (.ok (some (change holding)), { rows with positions := rows.positions.insert key (change holding) }) := by
  unfold Sql.update
  rw [Transaction.read_bind, held]
  dsimp only
  rw [putHolding_bind checked]
  rfl

theorem memory_updates {change : Holding → Holding} {holding : Holding} (held : rows.positions.get? key = some holding) :
    Memory.update key change rows =
      (.ok (some (change holding)), { rows with positions := rows.positions.insert key (change holding) }) := by
  unfold Memory.update
  rw [Transaction.read_bind, held]
  rfl

theorem sql_absent (change : Holding → Holding) (absent : rows.positions.get? key = none) :
    Sql.update key change rows = (.ok none, rows) := by
  unfold Sql.update
  rw [Transaction.read_bind, absent]
  rfl

theorem memory_absent (change : Holding → Holding) (absent : rows.positions.get? key = none) :
    Memory.update key change rows = (.ok none, rows) := by
  unfold Memory.update
  rw [Transaction.read_bind, absent]
  rfl

theorem updates_alike (twin : Twin sql memory) (key : String × String) {change : Holding → Holding} (observes : Holding → Holding)
    (blind : Blind change)
    (agrees : ∀ other, memory.positions.get? key = some other → observes other = change other)
    (sound : ∀ holding, sql.positions.get? key = some holding →
      (change holding).toPosition.checked key.1 = true ∧ (change holding).Watched) :
    ∃ first second later after, Sql.update key change sql = (.ok first, later) ∧
      Memory.update key observes memory = (.ok second, after) ∧ Twin later after := by
  have same := twin.positions key
  cases held : sql.positions.get? key with
  | none =>
    rw [held] at same
    have absent := Option.map_eq_none_iff.mp same.symm
    exact ⟨_, _, _, _, sql_absent change held, memory_absent observes absent, twin⟩
  | some holding =>
    rw [held] at same
    obtain ⟨other, found, alike⟩ := Option.map_eq_some_iff.mp same.symm
    obtain ⟨checked, watched⟩ := sound holding held
    refine ⟨_, _, _, _, sql_updates held checked, memory_updates found, ?_⟩
    refine twin.inserted key rfl rfl ?_ checked watched twin.cash twin.trades
    rw [agrees other found, blind holding, blind other, alike]

end Updates

section Calls
variable {sql memory rows : Rows} {key : String × String}

theorem checked_fields {position : Position} {market : String} (checked : position.checked market = true) :
    market ∈ tableMarkets ∧ 0 ≤ position.quantity ∧ 0 < position.averageCostLocal ∧ 0 < position.averageCostUsd ∧
      0 < position.lastPriceLocal ∧ 0 < position.fxToUsd ∧ 0 < position.highWaterPriceLocal ∧ 0 < position.stopPriceLocal := by
  simp only [Position.checked, Bool.and_eq_true, decide_eq_true_eq] at checked
  tauto

theorem checked_of_fields {position : Position} {market : String} (fields : market ∈ tableMarkets ∧ 0 ≤ position.quantity ∧
    0 < position.averageCostLocal ∧ 0 < position.averageCostUsd ∧ 0 < position.lastPriceLocal ∧ 0 < position.fxToUsd ∧
      0 < position.highWaterPriceLocal ∧ 0 < position.stopPriceLocal) : position.checked market = true := by
  simp only [Position.checked, Bool.and_eq_true, decide_eq_true_eq]
  tauto

theorem advanced_checked {holding : Holding} (checked : holding.toPosition.checked key.1 = true) (price : ℚ) :
    (holding.advanced price).toPosition.checked key.1 = true := by
  obtain ⟨market, quantity, local_, usd, last, fx, high, stop⟩ := checked_fields checked
  exact checked_of_fields ⟨market, quantity, local_, usd, last, fx, lt_max_of_lt_left high, stop⟩

theorem ticked_position (holding : Holding) (price : ℚ) (tickAsOf : Int) :
    (holding.ticked price tickAsOf).toPosition = (holding.advanced price).toPosition := by
  unfold Holding.ticked
  cases holding.chandelierAtrLocal <;> rfl

theorem call_alike (twin : Twin sql memory) {operation : Operation} (met : Met sql operation) :
    BothRaise operation sql memory ∨ BothDo operation sql memory := by
  cases operation with
  | trade request => exact trade_alike twin met
  | mark key price fx highWater stop updatedAt writes =>
    right
    obtain ⟨first, second, later, after, ran, alsoRan, stay⟩ := updates_alike twin key _
      (marked_blind price fx highWater stop updatedAt writes) (fun _ _ => rfl) (by
        intro holding held
        obtain ⟨paid, rate, low⟩ := met (by rw [held]; rfl)
        obtain ⟨market, quantity, local_, usd, -, -, high, -⟩ := checked_fields (twin.checked key holding held)
        have watched := twin.watched key holding held
        refine ⟨checked_of_fields ⟨market, quantity, local_, usd, paid, rate, ?_, low⟩, watched.unset, watched.set, watched.low⟩
        change 0 < if writes = true then _ else _
        split
        · exact lt_max_of_lt_left high
        · exact high)
    refine ⟨.done, .done, later, after, ?_, ?_, stay⟩
    · exact bind_of_ok ran _
    · exact bind_of_ok alsoRan _
  | anchor key atr hardStop asOf =>
    right
    by_cases none : atr ≤ 0
    · refine ⟨.done, .done, sql, memory, ?_, ?_, twin⟩
      · rw [Sql.perform, if_pos none]
        rfl
      · rw [Memory.perform, if_pos none]
        rfl
    · obtain ⟨first, second, later, after, ran, alsoRan, stay⟩ := updates_alike twin key _
        (anchored_blind atr hardStop asOf) (fun _ _ => rfl) (fun holding held =>
          ⟨twin.checked key holding held, anchored_watched (twin.watched key holding held) (not_le.mp none) hardStop asOf⟩)
      refine ⟨.done, .done, later, after, ?_, ?_, stay⟩
      · rw [Sql.perform, if_neg none]
        exact bind_of_ok ran _
      · rw [Memory.perform, if_neg none]
        exact bind_of_ok alsoRan _
  | observe key price tickAsOf =>
    right
    obtain ⟨first, second, later, after, ran, alsoRan, stay⟩ := updates_alike twin key
      (fun holding => holding.observed price tickAsOf) (ticked_blind price tickAsOf) (by
        intro other found
        have same := twin.positions key
        rw [found] at same
        obtain ⟨holding, held, alike⟩ := Option.map_eq_some_iff.mp same
        have watched : other.Watched := by
          rw [← Holding.Watched.columns, ← alike]
          exact Holding.Watched.columns.mpr (twin.watched key holding held)
        refine (ticked_observed watched tickAsOf ?_).symm
        rw [of_columns alike]
        exact met holding held) (by
        intro holding held
        rw [ticked_position]
        exact ⟨advanced_checked (twin.checked key holding held) price,
          ticked_watched (twin.watched key holding held) tickAsOf (met holding held)⟩)
    exact ⟨.watched (first.map Holding.watch), .held second, later, after, bind_of_ok ran _, bind_of_ok alsoRan _, stay⟩
  | advance key price =>
    right
    obtain ⟨first, second, later, after, ran, alsoRan, stay⟩ := updates_alike twin key _
      (advanced_blind price) (fun _ _ => rfl) (fun holding held => by
        have watched := twin.watched key holding held
        exact ⟨advanced_checked (twin.checked key holding held) price, watched.unset, watched.set, watched.low⟩)
    refine ⟨.done, .done, later, after, ?_, ?_, stay⟩
    · exact bind_of_ok ran _
    · exact bind_of_ok alsoRan _

end Calls

end C3po.Paper
