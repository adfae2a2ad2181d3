import C3po.Library.Dict
import Mathlib.Algebra.Order.Ring.Rat
import Mathlib.Data.List.Induction

/-! The five-minute candles of the realtime stream, built of the trades as they arrive. Instants are
milliseconds and prices are exact.
-/

set_option autoImplicit false

namespace C3po.Realtime
open C3po.Library

/-- What is asked of the language: a text without the blanks around it, and in upper case. -/
structure Setting where
  strip : String → String
  upper : String → String

/-- A message of the trade feed, each field as it is read: none where it does not convert. -/
structure Item where
  s : String
  dp : Bool
  p : Option ℚ
  t : Option Int
  v : Option ℚ
  ms : String
  deriving DecidableEq, Repr

structure Trade where
  price : ℚ
  stamp : Int
  volume : ℚ
  marketState : String
  deriving DecidableEq, Repr

structure Quote where
  price : ℚ
  asOf : Int
  marketState : String
  deriving DecidableEq, Repr

structure Bar where
  timestamp : Int
  updatedAt : Int
  opening : ℚ
  high : ℚ
  low : ℚ
  close : ℚ
  volume : ℚ
  trades : ℕ
  deriving DecidableEq, Repr

structure Feed where
  quotes : Dict String Quote := Dict.empty
  bars : Dict String (List Bar) := Dict.empty

/-- The start of the five minutes of an instant. -/
def barAt (instant : Int) : Int := instant - instant % 300000

def Trade.quote (trade : Trade) : Quote := ⟨trade.price, trade.stamp, trade.marketState⟩

def Bar.start (trade : Trade) : Bar where
  timestamp := barAt trade.stamp
  updatedAt := trade.stamp
  opening := trade.price
  high := trade.price
  low := trade.price
  close := trade.price
  volume := trade.volume
  trades := 1

def Bar.take (bar : Bar) (trade : Trade) : Bar :=
  { bar with
    high := max bar.high trade.price
    low := min bar.low trade.price
    close := trade.price
    volume := bar.volume + trade.volume
    trades := bar.trades + 1
    updatedAt := max bar.updatedAt trade.stamp }

/-- The last 600 bars, with one more. -/
def pushBar (bars : List Bar) (bar : Bar) : List Bar := (bars ++ [bar]).drop (bars.length + 1 - 600)

/-- A trade goes into the bar that is open, or opens the next one; a late one into none. -/
def addTrade (bars : List Bar) (trade : Trade) : List Bar :=
  match bars.getLast? with
  | some bar =>
      if bar.timestamp = barAt trade.stamp then bars.dropLast ++ [bar.take trade]
      else if bar.timestamp < barAt trade.stamp then pushBar bars (.start trade)
      else bars
  | none => pushBar bars (.start trade)

section Record
variable (setting : Setting)

/-- The trade of a message, where it is accepted. -/
def Item.trade (item : Item) : Option (String × Trade) :=
  let symbol := setting.upper (setting.strip item.s)
  if item.dp then none
  else
    match item.p, item.t with
    | some price, some stamp =>
        if symbol = "" ∨ price ≤ 0 ∨ stamp ≤ 0 then none
        else some (symbol, { price, stamp, volume := (item.v.map (max 0)).getD 0, marketState := if item.ms = "" then "open" else item.ms })
    | _, _ => none

def Feed.take (feed : Feed) (symbol : String) (trade : Trade) : Feed where
  quotes :=
    match feed.quotes.get? symbol with
    | some current => if current.asOf ≤ trade.stamp then feed.quotes.insert symbol trade.quote else feed.quotes
    | none => feed.quotes.insert symbol trade.quote
  bars := feed.bars.insert symbol (addTrade (feed.bars.getD symbol []) trade)

/-- A message that is no JSON is none. -/
def record (feed : Feed) (item : Option Item) : Feed :=
  match item.bind (Item.trade setting) with
  | some (symbol, trade) => feed.take symbol trade
  | none => feed

end Record

section Bars
variable {trades : List Trade} {trade : Trade} {bar : Bar}

/-- What a bar is of the trades that it took, in the order it took them. -/
structure Built (trades : List Trade) (bar : Bar) : Prop where
  opening : trades.head?.map Trade.price = some bar.opening
  close : trades.getLast?.map Trade.price = some bar.close
  high : bar.high ∈ trades.map Trade.price ∧ ∀ trade ∈ trades, trade.price ≤ bar.high
  low : bar.low ∈ trades.map Trade.price ∧ ∀ trade ∈ trades, bar.low ≤ trade.price
  volume : bar.volume = (trades.map Trade.volume).sum
  count : bar.trades = trades.length
  updatedAt : bar.updatedAt ∈ trades.map Trade.stamp ∧ ∀ trade ∈ trades, trade.stamp ≤ bar.updatedAt
  bucket : ∀ trade ∈ trades, bar.timestamp = barAt trade.stamp

theorem built_start (trade : Trade) : Built [trade] (.start trade) where
  opening := rfl
  close := rfl
  high := ⟨List.mem_singleton_self _, fun _ member => by rw [List.mem_singleton.mp member]; exact le_refl _⟩
  low := ⟨List.mem_singleton_self _, fun _ member => by rw [List.mem_singleton.mp member]; exact le_refl _⟩
  volume := (add_zero _).symm
  count := rfl
  updatedAt := ⟨List.mem_singleton_self _, fun _ member => by rw [List.mem_singleton.mp member]; exact le_refl _⟩
  bucket := fun _ member => by rw [List.mem_singleton.mp member]; rfl

theorem extreme_snoc {A K : Type} [LinearOrder K] {items : List A} {clock : A → K} {best : K} (item : A)
    (extreme : best ∈ items.map clock ∧ ∀ other ∈ items, clock other ≤ best) :
    max best (clock item) ∈ (items ++ [item]).map clock ∧ ∀ other ∈ items ++ [item], clock other ≤ max best (clock item) := by
  obtain ⟨member, bound⟩ := extreme
  rw [List.map_append]
  refine ⟨?_, fun other inside => ?_⟩
  · rcases max_choice best (clock item) with same | same <;> rw [same]
    · exact List.mem_append_left _ member
    · exact List.mem_append_right _ (List.mem_singleton_self _)
  · rcases List.mem_append.mp inside with early | last
    · exact (bound other early).trans (le_max_left _ _)
    · rw [List.mem_singleton.mp last]
      exact le_max_right _ _

theorem Built.take (built : Built trades bar) (same : bar.timestamp = barAt trade.stamp) : Built (trades ++ [trade]) (bar.take trade) where
  opening := by
    have opening := built.opening
    cases trades with
    | nil => cases opening
    | cons first rest => exact opening
  close := by rw [List.getLast?_concat]; rfl
  high := extreme_snoc trade built.high
  low := @extreme_snoc _ ℚᵒᵈ _ _ _ _ trade built.low
  volume := by
    rw [List.map_append, List.sum_append, ← built.volume, List.map_singleton, List.sum_singleton]
    rfl
  count := by
    rw [List.length_append, ← built.count]
    rfl
  updatedAt := extreme_snoc trade built.updatedAt
  bucket := by
    intro other member
    rcases List.mem_append.mp member with early | last
    · exact built.bucket other early
    · rw [List.mem_singleton.mp last]
      exact same

theorem getLast?_pushBar (bars : List Bar) (bar : Bar) : (pushBar bars bar).getLast? = some bar := by
  unfold pushBar
  rw [List.getLast?_drop, List.length_append, List.length_singleton, if_neg (by omega), List.getLast?_concat]

end Bars

section Arrivals
variable {setting : Setting} {symbol : String} {bucket : Int}

theorem record_bars {feed : Feed} {item : Option Item} {trade : Trade} (read : item.bind (Item.trade setting) = some (symbol, trade)) :
    (record setting feed item).bars.getD symbol [] = addTrade (feed.bars.getD symbol []) trade := by
  unfold record
  rw [read]
  show (feed.take symbol trade).bars.getD symbol [] = _
  unfold Feed.take
  rw [Dict.getD_insert, if_pos rfl]

theorem bar_built {items : List (Option Item)} {trades : List Trade} (feed : Feed) (some : trades ≠ [])
    (read : items.map (·.bind (Item.trade setting)) = trades.map fun trade => Option.some (symbol, trade))
    (inside : ∀ trade ∈ trades, barAt trade.stamp = bucket)
    (fresh : ∀ bar, (feed.bars.getD symbol []).getLast? = Option.some bar → bar.timestamp < bucket) :
    ∃ bar, ((items.foldl (record setting) feed).bars.getD symbol []).getLast? = Option.some bar ∧ Built trades bar := by
  induction trades using List.reverseRecOn generalizing items with
  | nil => exact absurd rfl some
  | append_singleton trades last ih =>
    rw [List.map_append] at read
    obtain ⟨early, final, rfl, readEarly, readLast⟩ := List.map_eq_append_iff.mp read
    obtain ⟨item, none, rfl, readItem, empty⟩ := List.map_eq_cons_iff.mp readLast
    rw [List.map_eq_nil_iff.mp empty, List.foldl_append]
    show ∃ bar, ((record setting (early.foldl (record setting) feed) item).bars.getD symbol []).getLast? = Option.some bar ∧ _
    rw [record_bars readItem]
    have lastInside := inside last (List.mem_append_right _ (List.mem_singleton_self last))
    by_cases first : trades = []
    · subst first
      cases List.map_eq_nil_iff.mp readEarly
      refine ⟨.start last, ?_, built_start last⟩
      unfold addTrade
      split
      · rename_i bar opened
        have before := fresh bar opened
        rw [lastInside, if_neg before.ne, if_pos before, getLast?_pushBar]
      · exact getLast?_pushBar _ _
    · obtain ⟨bar, opened, built⟩ := ih first readEarly fun trade member => inside trade (List.mem_append_left _ member)
      obtain ⟨other, member⟩ := List.exists_mem_of_ne_nil trades first
      have same : bar.timestamp = barAt last.stamp := by
        rw [built.bucket other member, inside other (List.mem_append_left _ member), lastInside]
      refine ⟨bar.take last, ?_, built.take same⟩
      unfold addTrade
      rw [opened]
      dsimp only
      rw [if_pos same, List.getLast?_concat]

/-- The candle of the trades of a symbol within five minutes, whatever the order they arrived in. -/
structure Candle (trades : List Trade) (bar : Bar) : Prop where
  opening : ∀ trade ∈ trades, (∀ other ∈ trades, trade.stamp ≤ other.stamp) → bar.opening = trade.price
  close : ∀ trade ∈ trades, (∀ other ∈ trades, other.stamp ≤ trade.stamp) → bar.close = trade.price
  high : bar.high ∈ trades.map Trade.price ∧ ∀ trade ∈ trades, trade.price ≤ bar.high
  low : bar.low ∈ trades.map Trade.price ∧ ∀ trade ∈ trades, bar.low ≤ trade.price
  volume : bar.volume = (trades.map Trade.volume).sum
  count : bar.trades = trades.length
  updatedAt : bar.updatedAt ∈ trades.map Trade.stamp ∧ ∀ trade ∈ trades, trade.stamp ≤ bar.updatedAt

/-- The first trade to arrive has the price of the earliest one, and the last to arrive that of the latest. -/
def EndsInOrder (trades : List Trade) : Prop :=
  (∀ trade ∈ trades, (∀ other ∈ trades, trade.stamp ≤ other.stamp) → trades.head?.map Trade.price = some trade.price) ∧
    ∀ trade ∈ trades, (∀ other ∈ trades, other.stamp ≤ trade.stamp) → trades.getLast?.map Trade.price = some trade.price

/-- The bar that arrivals build is their candle exactly where the first and the last of them are priced
as the earliest and the latest are: the opening and the close are taken in the order of arrival. -/
theorem bar_candle_iff {items : List (Option Item)} {trades : List Trade} (feed : Feed) (some : trades ≠ [])
    (read : items.map (·.bind (Item.trade setting)) = trades.map fun trade => Option.some (symbol, trade))
    (inside : ∀ trade ∈ trades, barAt trade.stamp = bucket)
    (fresh : ∀ bar, (feed.bars.getD symbol []).getLast? = Option.some bar → bar.timestamp < bucket) :
    ∃ bar, ((items.foldl (record setting) feed).bars.getD symbol []).getLast? = Option.some bar ∧
      (Candle trades bar ↔ EndsInOrder trades) := by
  obtain ⟨bar, opened, built⟩ := bar_built feed some read inside fresh
  refine ⟨bar, opened, fun candle => ⟨?_, ?_⟩, fun ends => ?_⟩
  · intro trade member earliest
    rw [built.opening, candle.opening trade member earliest]
  · intro trade member latest
    rw [built.close, candle.close trade member latest]
  · refine ⟨?_, ?_, built.high, built.low, built.volume, built.count, built.updatedAt⟩
    · intro trade member earliest
      exact Option.some.inj (built.opening.symm.trans (ends.1 trade member earliest))
    · intro trade member latest
      exact Option.some.inj (built.close.symm.trans (ends.2 trade member latest))

end Arrivals

section Sample

def plain : Setting := ⟨id, id⟩

/-- A trade of a symbol at a price and an instant. -/
def message (price : ℚ) (stamp : Int) : Option Item := some ⟨"SPY", false, some price, some stamp, some 1, "open"⟩

theorem bar_candle_in_order : ∃ bar,
    (([message 10 300001, message 12 300002].foldl (record plain) {}).bars.getD "SPY" []).getLast? = some bar ∧
      (Candle [⟨10, 300001, 1, "open"⟩, ⟨12, 300002, 1, "open"⟩] bar ↔ EndsInOrder [⟨10, 300001, 1, "open"⟩, ⟨12, 300002, 1, "open"⟩]) :=
  @bar_candle_iff plain "SPY" 300000 _ _ {} (by decide) (by decide +kernel) (by decide) (fun _ opened => nomatch opened)

/-- Two trades that arrive out of order: the candle opens at the later one and closes at the earlier. -/
theorem late_trade_closes : ∃ bar,
    (([message 12 300002, message 10 300001].foldl (record plain) {}).bars.getD "SPY" []).getLast? = some bar ∧
      bar.close = 10 ∧ ¬Candle [⟨12, 300002, 1, "open"⟩, ⟨10, 300001, 1, "open"⟩] bar := by
  refine ⟨⟨300000, 300002, 12, 12, 10, 10, 2, 2⟩, by decide +kernel, rfl, fun candle => ?_⟩
  have closed := candle.close ⟨12, 300002, 1, "open"⟩ (by decide +kernel) (by decide)
  exact absurd closed (by decide +kernel)

end Sample

end C3po.Realtime
