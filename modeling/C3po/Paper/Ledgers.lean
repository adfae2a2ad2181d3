import Mathlib.Data.Int.ConditionallyCompleteOrder
import C3po.Paper.Episodes
import C3po.Paper.Twins

/-! Over whole runs: the two stores stay the same while every call meets its condition. -/

set_option autoImplicit false

namespace C3po.Paper
open C3po.Library

namespace Sql

def callAll (operations : List Operation) (rows : Rows) : Rows :=
  operations.foldl (fun rows operation => (call operation rows).2) rows

end Sql

namespace Memory

def callAll (operations : List Operation) (rows : Rows) : Rows :=
  operations.foldl (fun rows operation => (call operation rows).2) rows

end Memory

/-- Every call of a run meets its condition. -/
def AllMet : Rows → List Operation → Prop
  | _, [] => True
  | rows, operation :: rest => Met rows operation ∧ AllMet (Sql.call operation rows).2 rest

/-- Within one holding the high water and the stop of the watcher do not fall. -/
def Rises (before after : Rows) : Prop :=
  ∀ key holding later, before.positions.get? key = some holding → after.positions.get? key = some later →
    holding.highWaterPriceLocal ≤ later.highWaterPriceLocal ∧
      holding.chandelierStopPriceLocal.getD 0 ≤ later.chandelierStopPriceLocal.getD 0

section Rising
variable {rows final : Rows} {request : Request} {key : String × String}

/-- A change of one position that lowers neither. -/
def Raises (change : Holding → Holding) : Prop :=
  ∀ holding : Holding, holding.highWaterPriceLocal ≤ (change holding).highWaterPriceLocal ∧
    holding.chandelierStopPriceLocal.getD 0 ≤ (change holding).chandelierStopPriceLocal.getD 0

theorem Rises.refl (rows : Rows) : Rises rows rows := by
  intro key holding later before after
  rw [before] at after
  cases after
  exact ⟨le_rfl, le_rfl⟩

theorem rises_insert {holding : Holding} (here : final.positions = rows.positions.insert key holding)
    (raises : ∀ before, rows.positions.get? key = some before → before.highWaterPriceLocal ≤ holding.highWaterPriceLocal ∧
      before.chandelierStopPriceLocal.getD 0 ≤ holding.chandelierStopPriceLocal.getD 0) : Rises rows final := by
  intro name before later held found
  rw [here, Dict.get?_insert] at found
  split at found
  · rename_i own
    cases found
    exact raises before (own ▸ held)
  · rw [held] at found
    cases found
    exact ⟨le_rfl, le_rfl⟩

theorem rises_erase (here : final.positions = rows.positions.erase key) : Rises rows final := by
  intro name before later held found
  rw [here, Dict.get?_erase] at found
  split at found
  · cases found
  · rw [held] at found
    cases found
    exact ⟨le_rfl, le_rfl⟩

theorem demand_ok {condition : Bool} {refusal : Refusal} (ok : demand condition refusal rows = (.ok (), final)) :
    condition = true ∧ final = rows := by
  unfold demand at ok
  rw [Transaction.ite_apply] at ok
  split at ok
  · rename_i holds
    cases ok
    exact ⟨holds, rfl⟩
  · cases ok

theorem hooked_ok {hook : Option String} (ok : hooked hook rows = (.ok (), final)) : final = rows := by
  cases hook with
  | none =>
    cases ok
    rfl
  | some text => cases ok

theorem putHolding_ok {holding : Holding} (ok : Sql.putHolding key holding rows = (.ok (), final)) :
    final = { rows with positions := rows.positions.insert key holding } := by
  unfold Sql.putHolding at ok
  rw [Transaction.read_bind] at ok
  obtain ⟨_, _, checks, written⟩ := Transaction.bind_ok ok
  obtain ⟨-, rfl⟩ := demand_ok checks
  cases written
  rfl

theorem sql_closeTrade {cash : ℚ} {realized : Option ℚ} {answer : Answer}
    (ok : Sql.closeTrade request cash realized rows = (.ok answer, final)) : final.positions = rows.positions ∧
      final.trades = rows.trades ++ [filled request rows.trades.length realized] ∧
        (filled request rows.trades.length realized).toTrade.checked = true := by
  unfold Sql.closeTrade at ok
  rw [Transaction.read_bind] at ok
  obtain ⟨_, _, solvent, rest⟩ := Transaction.bind_ok ok
  obtain ⟨-, rfl⟩ := demand_ok solvent
  obtain ⟨_, _, checked, rest⟩ := Transaction.bind_ok rest
  obtain ⟨checks, rfl⟩ := demand_ok checked
  obtain ⟨_, _, written, rest⟩ := Transaction.bind_ok rest
  cases written
  obtain ⟨_, _, silent, rest⟩ := Transaction.bind_ok rest
  cases hooked_ok silent
  cases rest
  exact ⟨rfl, rfl, checks⟩

theorem bought_raises {order : Order} {holding : Holding} {position : Position}
    (made : boughtPosition order (some holding.toPosition) = .ok position) :
    holding.highWaterPriceLocal ≤ position.highWaterPriceLocal := by
  unfold boughtPosition at made
  dsimp only at made
  split at made
  · cases made
  · cases made
    exact le_max_left _ _

theorem trade_rises {answer : Answer} (ok : Sql.executeTrade request rows = (.ok answer, final)) : Rises rows final := by
  unfold Sql.executeTrade at ok
  dsimp only at ok
  rw [Transaction.read_bind] at ok
  obtain ⟨_, _, silent, rest⟩ := Transaction.bind_ok ok
  cases hooked_ok silent
  rw [Transaction.ite_apply] at rest
  split at rest
  · obtain ⟨_, _, affords, rest⟩ := Transaction.bind_ok rest
    obtain ⟨-, rfl⟩ := demand_ok affords
    obtain ⟨position, _, made, rest⟩ := Transaction.bind_ok rest
    obtain ⟨made, rfl⟩ := Transaction.check_ok made
    obtain ⟨_, _, put, rest⟩ := Transaction.bind_ok rest
    refine rises_insert ((sql_closeTrade rest).1.trans (congrArg Rows.positions (putHolding_ok put))) ?_
    intro before held
    rw [held] at made ⊢
    exact ⟨bought_raises made, le_rfl⟩
  · cases held : rows.positions.get? request.order.key with
    | none =>
      rw [held] at rest
      cases rest
    | some holding =>
      rw [held] at rest
      dsimp only at rest
      obtain ⟨_, _, covered, rest⟩ := Transaction.bind_ok rest
      obtain ⟨-, rfl⟩ := demand_ok covered
      rw [Transaction.ite_apply] at rest
      split at rest
      · obtain ⟨_, _, moved, rest⟩ := Transaction.bind_ok rest
        unfold Sql.deleteHolding at moved
        rw [Transaction.read_bind] at moved
        cases moved
        exact rises_erase (sql_closeTrade rest).1
      · obtain ⟨_, _, put, rest⟩ := Transaction.bind_ok rest
        refine rises_insert ((sql_closeTrade rest).1.trans (congrArg Rows.positions (putHolding_ok put))) ?_
        intro before same
        rw [held] at same
        cases same
        exact ⟨le_rfl, le_rfl⟩

theorem update_rises {change : Holding → Holding} (raises : Raises change) {answer : Option Holding}
    (ok : Sql.update key change rows = (.ok answer, final)) : Rises rows final := by
  unfold Sql.update at ok
  rw [Transaction.read_bind] at ok
  cases held : rows.positions.get? key with
  | none =>
    rw [held] at ok
    cases ok
    exact .refl rows
  | some holding =>
    rw [held] at ok
    obtain ⟨_, _, put, rest⟩ := Transaction.bind_ok ok
    cases rest
    refine rises_insert (congrArg Rows.positions (putHolding_ok put)) ?_
    intro before same
    rw [held] at same
    cases same
    exact raises holding

theorem ticked_raises (price : ℚ) (tickAsOf : Int) : Raises fun holding => holding.ticked price tickAsOf := by
  rintro ⟨position, hard, _ | atr, asOf, stop, count, last⟩
  · exact ⟨le_max_left _ _, le_rfl⟩
  · exact ⟨le_max_left _ _, le_max_left _ _⟩

theorem marked_raises (price fx highWater stop : ℚ) (updatedAt : Int) (writes : Bool) :
    Raises fun holding => holding.marked price fx highWater stop updatedAt writes := by
  intro holding
  refine ⟨?_, le_rfl⟩
  change _ ≤ if writes = true then _ else _
  split
  · exact le_max_left _ _
  · exact le_rfl

theorem anchored_raises (atr hardStop : ℚ) (asOf : Int) : Raises fun holding => holding.anchored atr hardStop asOf :=
  fun _ => ⟨le_rfl, le_max_left _ _⟩

theorem advanced_raises (price : ℚ) : Raises fun holding => holding.advanced price := fun _ => ⟨le_max_left _ _, le_rfl⟩

theorem sql_rises (operation : Operation) (rows : Rows) : Rises rows (Sql.call operation rows).2 := by
  cases found : Sql.call operation rows with
  | mk result final =>
  cases result with
  | error refusal =>
    rw [Transaction.commit_error found]
    exact .refl rows
  | ok answer =>
    have ran := Transaction.commit_ok found
    cases operation with
    | trade request => exact trade_rises ran
    | mark key price fx highWater stop updatedAt writes =>
      obtain ⟨_, _, updated, rest⟩ := Transaction.bind_ok ran
      cases rest
      exact update_rises (marked_raises price fx highWater stop updatedAt writes) updated
    | anchor key atr hardStop asOf =>
      rw [Sql.perform, Transaction.ite_apply] at ran
      split at ran
      · cases ran
        exact .refl rows
      · obtain ⟨_, _, updated, rest⟩ := Transaction.bind_ok ran
        cases rest
        exact update_rises (anchored_raises atr hardStop asOf) updated
    | observe key price tickAsOf =>
      obtain ⟨_, _, updated, rest⟩ := Transaction.bind_ok ran
      cases rest
      exact update_rises (ticked_raises price tickAsOf) updated
    | advance key price =>
      obtain ⟨_, _, updated, rest⟩ := Transaction.bind_ok ran
      cases rest
      exact update_rises (advanced_raises price) updated

end Rising

section Runs
variable {sql memory : Rows}

theorem fresh_twin (mandate : Mandate) : Twin (freshRows mandate) (freshRows mandate) := by
  refine ⟨⟨rfl, fun _ => rfl, rfl⟩, ?_, ?_⟩
  · exact fun _ _ held => nomatch held
  · exact fun _ _ held => nomatch held

theorem Twin.call (twin : Twin sql memory) {operation : Operation} (met : Met sql operation) :
    (Sql.call operation sql).1.isOk = (Memory.call operation memory).1.isOk ∧
      Twin (Sql.call operation sql).2 (Memory.call operation memory).2 := by
  unfold Sql.call Memory.call Transaction.commit
  obtain ⟨⟨first, ran⟩, second, alsoRan⟩ | ⟨first, second, later, after, ran, alsoRan, stay⟩ := call_alike twin met
  · rw [ran, alsoRan]
    exact ⟨rfl, twin⟩
  · rw [ran, alsoRan]
    exact ⟨rfl, stay⟩

theorem Twin.callAll (twin : Twin sql memory) {operations : List Operation} (met : AllMet sql operations) :
    Twin (Sql.callAll operations sql) (Memory.callAll operations memory) := by
  induction operations generalizing sql memory with
  | nil => exact twin
  | cons operation rest ih => exact ih (twin.call met.1).2 met.2

theorem Rises.alike {later after : Rows} (rises : Rises sql later) (before : Alike sql memory) (alike : Alike later after) :
    Rises memory after := by
  intro key holding other held found
  have first := before.positions key
  have second := alike.positions key
  rw [held] at first
  rw [found] at second
  obtain ⟨twin, here, same⟩ := Option.map_eq_some_iff.mp first
  obtain ⟨next, there, alsoSame⟩ := Option.map_eq_some_iff.mp second
  have raised := rises key twin next here there
  rw [of_columns same, of_columns alsoSame]
  exact raised

/-- From one seed, after calls that all met their conditions, both stores hold the same; and a
further call that meets its own is accepted by both or raises in both, leaves them the same, and
lowers in neither the high water or the stop of the watcher of a position that stays open. -/
theorem stores_agree (mandate : Mandate) {operations : List Operation} (met : AllMet (freshRows mandate) operations) :
    Alike (Sql.callAll operations (freshRows mandate)) (Memory.callAll operations (freshRows mandate)) ∧
      ∀ next, Met (Sql.callAll operations (freshRows mandate)) next →
        (Sql.call next (Sql.callAll operations (freshRows mandate))).1.isOk =
            (Memory.call next (Memory.callAll operations (freshRows mandate))).1.isOk ∧
          Alike (Sql.call next (Sql.callAll operations (freshRows mandate))).2
            (Memory.call next (Memory.callAll operations (freshRows mandate))).2 ∧
          Rises (Sql.callAll operations (freshRows mandate)) (Sql.call next (Sql.callAll operations (freshRows mandate))).2 ∧
          Rises (Memory.callAll operations (freshRows mandate)) (Memory.call next (Memory.callAll operations (freshRows mandate))).2 := by
  have twin := (fresh_twin mandate).callAll met
  refine ⟨twin.toAlike, fun next nextMet => ?_⟩
  obtain ⟨accepts, stay⟩ := twin.call nextMet
  have rises := sql_rises next (Sql.callAll operations (freshRows mandate))
  exact ⟨accepts, stay.toAlike, rises, rises.alike twin.toAlike stay.toAlike⟩

/-- A purchase of ten shares at a hundred, a sale, and what aborts them. -/
def sample (side : String) (quantity price fx copy : ℚ) (after : Option String) : Request where
  order :=
    { copy, market := "NASDAQ", symbol := "ACME", name := "Acme", currency := "USD", stopPrice := 90, side, quantity,
      signalPrice := price, fillPrice := price, fx, fees := 0, slippage := 0, reason := "", corrected := false, quoteAsOf := 0, clock := 0 }
  after := after

def sampleMandate : Mandate := ⟨10000, by decide⟩

def opening : Operation := .trade (sample "BUY" 10 100 1 10000 none)

theorem stores_agree_opening :
    Alike (Sql.callAll [opening] (freshRows sampleMandate)) (Memory.callAll [opening] (freshRows sampleMandate)) ∧
      ((Memory.callAll [opening] (freshRows sampleMandate)).positions.get? ("NASDAQ", "ACME")).map (fun holding => holding.quantity) =
        some 10 := by
  refine ⟨(@stores_agree sampleMandate [opening] ⟨?_, trivial⟩).1, by decide +kernel⟩
  intro _
  right
  constructor
  · constructor <;> decide +kernel
  · rfl
  · rfl
  · exact fun _ => by decide +kernel
  · exact fun _ => by decide +kernel
  · exact fun _ _ none => nomatch none
  · exact fun _ _ none => nomatch none

/-- What a store holds of the position: its quantity, exchange rate, high water and stop. -/
def shown (rows : Rows) : Option (ℚ × ℚ × ℚ × Option ℚ) :=
  (rows.positions.get? ("NASDAQ", "ACME")).map fun holding =>
    (holding.quantity, holding.fxToUsd, holding.highWaterPriceLocal, holding.chandelierStopPriceLocal)

/-- An addition below the high water, a partial sale at another rate, and an aborted purchase. -/
theorem stores_drift :
    (shown (Sql.callAll [opening, .anchor ("NASDAQ", "ACME") 4 85 0, .trade (sample "BUY" 1 95 1 9000 none)] (freshRows sampleMandate)) =
        some (11, 1, 100, some 90) ∧
      shown (Memory.callAll [opening, .anchor ("NASDAQ", "ACME") 4 85 0, .trade (sample "BUY" 1 95 1 9000 none)] (freshRows sampleMandate)) =
        some (11, 1, 95, none)) ∧
    (shown (Sql.callAll [opening, .trade (sample "SELL" 4 100 2 9000 none)] (freshRows sampleMandate)) = some (6, 2, 100, none) ∧
      shown (Memory.callAll [opening, .trade (sample "SELL" 4 100 2 9000 none)] (freshRows sampleMandate)) = some (6, 1, 100, none)) ∧
    (shown (Sql.callAll [.trade (sample "BUY" 10 100 1 10000 (some "abort"))] (freshRows sampleMandate)) = none ∧
      shown (Memory.callAll [.trade (sample "BUY" 10 100 1 10000 (some "abort"))] (freshRows sampleMandate)) =
        some (10, 1, 100, none)) := by
  refine ⟨⟨?_, ?_⟩, ⟨?_, ?_⟩, ?_, ?_⟩ <;> decide +kernel

end Runs

/-! What the summaries of the days list, against the intervals at which a store holds a position. -/

/-- The summary of a day lists the intervals that ended on it, one each, and counts them. -/
structure Lists (session : Int → Int) (date : Int) (entries : List Entry) (summary : EpisodeSummary) : Prop where
  details : summary.closedEpisodeDetails = (closedOn session date entries).map listed
  closed : summary.closedEpisodes = (closedOn session date entries).length
  counted : summary.closedEpisodes = summary.positiveEpisodes + summary.negativeEpisodes + summary.flatEpisodes

section Readers
variable {session : Int → Int} {date : Int} {entries : List Entry}

theorem Follows.lists {replay : Replay} (follows : Follows session date entries replay) :
    Lists session date entries (replay.summary date) := by
  have each : replay.positive + replay.negative + replay.flat = (closedOn session date entries).length := by
    rw [follows.positive, follows.negative, follows.flat]
    induction closedOn session date entries with
    | nil => rfl
    | cons interval rest ih =>
      simp only [List.countP_cons, List.length_cons]
      obtain loses | zero | gains := lt_trichotomy (realizedOf interval.events) 0
      · simp [loses, loses.ne, not_lt.mpr loses.le]
        omega
      · simp [zero]
        omega
      · simp [gains, gains.ne', not_lt.mpr gains.le]
        omega
  exact ⟨follows.details, each, rfl⟩

theorem sorted_trades {trades : List Fill} (increasing : trades.Pairwise fun first second => first.executedAt < second.executedAt) :
    stableSort legOrder trades = trades := by
  apply stableSort_of_sorted
  refine increasing.imp ?_
  intro first second before
  exact (Prod.Lex.toLex_lt_toLex.mpr (.inl before)).le

theorem split_days (monotone : Monotone session) (date : Int) {entries : List Entry}
    (increasing : entries.Pairwise fun first second => first.fill.executedAt < second.fill.executedAt) :
    ∃ before after, entries = before ++ after ∧ (∀ entry ∈ before, session entry.fill.executedAt ≤ date) ∧
      ∀ entry ∈ after, date < session entry.fill.executedAt := by
  induction entries with
  | nil =>
    refine ⟨[], [], rfl, ?_, ?_⟩
    · exact fun _ here => nomatch here
    · exact fun _ here => nomatch here
  | cons entry rest ih =>
    rw [List.pairwise_cons] at increasing
    obtain ⟨before, after, rfl, early, late⟩ := ih increasing.2
    by_cases day : session entry.fill.executedAt ≤ date
    · refine ⟨entry :: before, after, rfl, ?_, late⟩
      intro other here
      obtain rfl | here := List.mem_cons.mp here
      · exact day
      · exact early other here
    · refine ⟨[], entry :: (before ++ after), rfl, fun _ here => (nomatch here), ?_⟩
      intro other here
      obtain rfl | here := List.mem_cons.mp here
      · exact not_le.mp day
      · exact lt_of_lt_of_le (not_le.mp day) (monotone (increasing.1 other here).le)

local instance lawfulKey : LawfulBEq (String × String) := inferInstance

/-- The trades the tables hand over are those of the symbols sold that day, up to the day. -/
def handed (session : Int → Int) (date : Int) (entries : List Entry) : Store → List Entry
  | .dictionaries => entries
  | .tables => entries.filter fun entry =>
      entry.fill.key ∈ Store.targets session date (entries.map Entry.fill) ∧ session entry.fill.executedAt ≤ date

theorem increasing_fills (increasing : entries.Pairwise fun first second => first.fill.executedAt < second.fill.executedAt) :
    (entries.map Entry.fill).Pairwise fun first second => first.executedAt < second.executedAt := List.pairwise_map.mpr increasing

theorem handed_sublist (session : Int → Int) (date : Int) (entries : List Entry) (store : Store) :
    (handed session date entries store).Sublist entries := by
  cases store with
  | tables => exact List.filter_sublist
  | dictionaries => exact List.Sublist.refl _

theorem handed_trades (increasing : entries.Pairwise fun first second => first.fill.executedAt < second.fill.executedAt) (store : Store) :
    stableSort legOrder (store.episodeTrades session date (entries.map Entry.fill)) =
      (handed session date entries store).map Entry.fill := by
  have fills := increasing_fills (increasing.sublist (handed_sublist session date entries store))
  cases store with
  | dictionaries => exact sorted_trades fills
  | tables =>
    have filtered : (entries.map Entry.fill).filter (fun fill =>
        fill.key ∈ Store.targets session date (entries.map Entry.fill) ∧ session fill.executedAt ≤ date) =
          (handed session date entries .tables).map Entry.fill := List.filter_map
    unfold Store.episodeTrades
    rw [filtered, sorted_trades fills, sorted_trades fills]

theorem flat_sells (ledgered : Ledgered entries) {entry : Entry} (here : entry ∈ entries) (flat : entry.flat = true) :
    entry.fill.side = "SELL" := by
  induction ledgered with
  | nil => cases here
  | @snoc entries last before booked ih =>
    obtain earlier | now := List.mem_append.mp here
    · exact ih earlier
    · cases List.mem_singleton.mp now
      cases booked with
      | bought side left =>
        rw [Entry.flat, left] at flat
        cases flat
      | sold side => exact side

theorem handed_ledger (monotone : Monotone session) (ledgered : Ledgered entries)
    (increasing : entries.Pairwise fun first second => first.fill.executedAt < second.fill.executedAt) (store : Store) :
    Ledgered (handed session date entries store) ∧
      closedOn session date (handed session date entries store) = closedOn session date entries := by
  cases store with
  | dictionaries => exact ⟨ledgered, rfl⟩
  | tables =>
    obtain ⟨before, after, rfl, early, late⟩ := split_days monotone date increasing
    let chosen (key : String × String) : Bool := key ∈ Store.targets session date ((before ++ after).map Entry.fill)
    have upTo : handed session date (before ++ after) .tables = before.filter fun entry => chosen entry.key := by
      unfold handed
      rw [List.filter_append]
      have first : before.filter (fun entry => entry.fill.key ∈ Store.targets session date ((before ++ after).map Entry.fill) ∧
          session entry.fill.executedAt ≤ date) = before.filter fun entry => chosen entry.key := by
        apply List.filter_congr
        intro entry here
        simp only [early entry here, and_true]
        rfl
      have second : after.filter (fun entry => entry.fill.key ∈ Store.targets session date ((before ++ after).map Entry.fill) ∧
          session entry.fill.executedAt ≤ date) = [] := by
        rw [List.filter_eq_nil_iff]
        intro entry here both
        exact absurd (of_decide_eq_true both).2 (not_le.mpr (late entry here))
      rw [first, second, List.append_nil]
    rw [upTo]
    refine ⟨ledgered.before.filter chosen, ?_⟩
    unfold closedOn closedIntervals
    have same : ((spans Entry.key Entry.flat (before ++ after)).filter fun interval => session interval.last.fill.executedAt = date) =
        (spans Entry.key Entry.flat before).filter fun interval => session interval.last.fill.executedAt = date :=
      @spans_before _ _ _ _ _ before after (fun entry => session entry.fill.executedAt = date)
        fun entry here => decide_eq_false (late entry here).ne'
    rw [same, spans_filter, List.filter_filter]
    apply List.filter_congr
    intro interval here
    obtain ⟨member, flat⟩ := mem_spans here
    by_cases today : session interval.last.fill.executedAt = date
    · -- An interval that ends today ends with a sale of today.
      have sold := flat_sells ledgered.before member flat
      have target : interval.last.key ∈ Store.targets session date ((before ++ after).map Entry.fill) := by
        refine List.mem_map.mpr ⟨interval.last.fill, List.mem_filter.mpr ⟨?_, decide_eq_true ⟨sold, today⟩⟩, rfl⟩
        exact List.mem_map_of_mem (List.mem_append_left _ member)
      simp only [today, decide_true, Bool.true_and]
      exact decide_eq_true target
    · simp only [today, decide_false, Bool.false_and]

/-- Every day's summary is given, and lists the intervals that ended on it. -/
def Summarizes (store : Store) (session : Int → Int) (rows : Rows) (entries : List Entry) : Prop :=
  ∀ date, ∃ summary, store.episodeSummary session date rows = .ok summary ∧ Lists session date entries summary

variable {store : Store} {rows : Rows}

theorem summary_replays (increasing : entries.Pairwise fun first second => first.fill.executedAt < second.fill.executedAt)
    (trades : rows.trades = entries.map Entry.fill) {summary : EpisodeSummary}
    (given : store.episodeSummary session date rows = .ok summary) :
    ∃ replay, ((handed session date entries store).map Entry.fill).foldlM (replayLeg session date) .initial = .ok replay ∧
      summary = replay.summary date := by
  unfold Store.episodeSummary episodeSummaryFromTrades at given
  rw [trades, handed_trades increasing store] at given
  obtain ⟨replay, ran, rest⟩ := bind_ok given
  cases rest
  exact ⟨replay, ran, rfl⟩

theorem summarizes_of_clean (monotone : Monotone session) (ledgered : Ledgered entries)
    (increasing : entries.Pairwise fun first second => first.fill.executedAt < second.fill.executedAt)
    (trades : rows.trades = entries.map Entry.fill) (plain : PlainLegs entries) (positive : Positive entries)
    (clean : NoResidue entries) : Summarizes store session rows entries := by
  intro date
  obtain ⟨kept, same⟩ := @handed_ledger session date entries monotone ledgered increasing store
  have within := (handed_sublist session date entries store).subset
  obtain ⟨replay, ran, follows⟩ := @replay_follows session date _ kept
    (fun entry here => plain entry (within here)) (fun entry here => positive entry (within here))
    (fun entry here => clean entry (within here))
  refine ⟨replay.summary date, ?_, ?_⟩
  · unfold Store.episodeSummary episodeSummaryFromTrades
    rw [trades, handed_trades increasing store, ran]
    rfl
  · have lists := follows.lists
    exact ⟨lists.details.trans (by rw [same]), lists.closed.trans (by rw [same]), lists.counted⟩

theorem side_of_ledgered (ledgered : Ledgered entries) {entry : Entry} (here : entry ∈ entries) :
    entry.fill.side = "BUY" ∨ entry.fill.side = "SELL" := by
  induction ledgered with
  | nil => cases here
  | @snoc entries last before booked ih =>
    obtain earlier | now := List.mem_append.mp here
    · exact ih earlier
    · cases List.mem_singleton.mp now
      cases booked with
      | bought side => exact .inl side
      | sold side => exact .inr side

theorem positive_of_replay (ledgered : Ledgered entries) {replay final : Replay} {legs : List Entry} (members : ∀ entry ∈ legs, entry ∈ entries)
    (ran : (legs.map Entry.fill).foldlM (replayLeg session date) replay = .ok final) : Positive legs := by
  induction legs generalizing replay with
  | nil => exact fun _ here => nomatch here
  | cons entry rest ih =>
    obtain ⟨next, stepped, goes⟩ := foldlM_cons_ok ran
    have tail := ih (fun other here => members other (List.mem_cons_of_mem _ here)) goes
    intro other here
    obtain rfl | here := List.mem_cons.mp here
    · unfold replayLeg at stepped
      dsimp only at stepped
      by_contra empty
      have sided : ¬ (upperCase other.fill.side ≠ "BUY" ∧ upperCase other.fill.side ≠ "SELL") := by
        obtain buys | sells := side_of_ledgered ledgered (members other List.mem_cons_self)
        · rw [buys, upper_buy]
          decide
        · rw [sells, upper_sell]
          decide
      rw [if_neg sided, if_pos (not_lt.mp empty)] at stepped
      cases stepped
    · exact tail other here

theorem handed_split {before after : List Entry} {entry : Entry} (whole : entries = before ++ entry :: after)
    (side : entry.fill.side = "SELL") (store : Store) : ∃ first rest,
      handed session (session entry.fill.executedAt) entries store = first ++ entry :: rest ∧ ∀ other ∈ first, other ∈ before := by
  cases store with
  | dictionaries => exact ⟨before, after, whole, fun _ here => here⟩
  | tables =>
    have target : entry.fill.key ∈ Store.targets session (session entry.fill.executedAt) (entries.map Entry.fill) := by
      refine List.mem_map.mpr ⟨entry.fill, List.mem_filter.mpr ⟨?_, decide_eq_true ⟨side, rfl⟩⟩, rfl⟩
      exact List.mem_map_of_mem (whole ▸ List.mem_append_right _ List.mem_cons_self)
    have kept : handed session (session entry.fill.executedAt) entries .tables =
        (before ++ entry :: after).filter fun other =>
          other.fill.key ∈ Store.targets session (session entry.fill.executedAt) (entries.map Entry.fill) ∧
            session other.fill.executedAt ≤ session entry.fill.executedAt := by
      unfold handed
      exact congrArg (List.filter _) whole
    rw [kept]
    simp only [List.filter_append, List.filter_cons, target, le_refl, and_self, decide_true, if_true]
    exact ⟨_, _, rfl, fun other here => (List.mem_filter.mp here).1⟩

theorem entry_unique (increasing : entries.Pairwise fun first second => first.fill.executedAt < second.fill.executedAt)
    {first second : Entry} (one : first ∈ entries) (two : second ∈ entries) (same : first.fill.executedAt = second.fill.executedAt) :
    first = second := by
  have nodup : (entries.map fun entry => entry.fill.executedAt).Nodup := List.pairwise_map.mpr (increasing.imp fun before => before.ne)
  exact List.inj_on_of_nodup_map nodup one two same

theorem clean_of_summarizes (monotone : Monotone session) (ledgered : Ledgered entries)
    (increasing : entries.Pairwise fun first second => first.fill.executedAt < second.fill.executedAt)
    (trades : rows.trades = entries.map Entry.fill) (plain : PlainLegs entries) (positive : Positive entries)
    (summarizes : Summarizes store session rows entries) : NoResidue entries := by
  have prefixes : ∀ before after, entries = before ++ after → NoResidue before := by
    intro before
    induction before using List.reverseRecOn with
    | nil => exact fun _ _ _ here => nomatch here
    | append_singleton before entry ih =>
      intro after whole
      have earlier := ih (entry :: after) (by rw [whole, List.append_assoc]; rfl)
      intro other here side left kept
      obtain old | now := List.mem_append.mp here
      · exact earlier other old side left kept
      · obtain rfl := List.mem_singleton.mp now
        by_contra small
        obtain ⟨summary, given, lists⟩ := summarizes (session other.fill.executedAt)
        obtain ⟨replay, ran, rfl⟩ := summary_replays increasing trades given
        have split : entries = before ++ other :: after := by
          rw [whole, List.append_assoc]
          rfl
        have within := (handed_sublist session (session other.fill.executedAt) entries store).subset
        have ledger := (@handed_ledger session (session other.fill.executedAt) entries monotone ledgered increasing store).1
        obtain ⟨first, rest, parts, subset⟩ := handed_split split side store
        have whole' : handed session (session other.fill.executedAt) entries store = (first ++ [other]) ++ rest := by
          rw [parts, List.append_assoc]
          rfl
        rw [whole'] at ledger within
        have members : ∀ entry ∈ first ++ [other], entry ∈ entries := fun entry here => within (List.mem_append_left _ here)
        rw [parts, List.map_append] at ran
        obtain ⟨detail, listedHere, closedAt⟩ := residue_listed ledger.before (fun entry here => plain entry (members entry here))
          (fun entry here => positive entry (members entry here)) (fun entry here => earlier entry (subset entry here))
          side kept (not_lt.mp small) rfl ran
        -- The day lists an end at the instant of this sale, after which the position is still held.
        have shown : detail ∈ (closedOn session (session other.fill.executedAt) entries).map listed := lists.details ▸ listedHere
        obtain ⟨interval, there, rfl⟩ := List.mem_map.mp shown
        obtain ⟨member, flat⟩ := mem_spans (List.mem_filter.mp there).1
        have held : other ∈ entries := split ▸ List.mem_append_right _ List.mem_cons_self
        rw [entry_unique increasing member held closedAt, Entry.flat, kept] at flat
        cases flat
  exact prefixes entries [] (List.append_nil entries).symm

end Readers

end C3po.Paper
