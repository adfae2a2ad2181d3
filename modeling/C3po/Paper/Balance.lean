import Mathlib.Data.List.Induction
import Mathlib.Tactic.Linarith
import Mathlib.Tactic.Ring
import C3po.Paper.Stores

/-! The paper ledger conserves money: what is not cash or invested was realized, up to the
dust that full exits drop.
-/

set_option autoImplicit false

namespace C3po.Paper
open C3po.Library

variable {books final : Books} {order : Order}

def Books.record (books : Books) (positions : Dict (String × String) Position) (cash : ℚ) (trade : Trade) : Books :=
  { books with positions := positions, cash := cash, status := "running", trades := books.trades ++ [trade] }

@[simp] theorem record_positions (books : Books) (positions : Dict (String × String) Position) (cash : ℚ)
    (trade : Trade) : (books.record positions cash trade).positions = positions := rfl

/-- What a call that does not raise does to the rows. -/
inductive Settles (books : Books) (order : Order) : Books → Prop where
  | bought {position : Position} (side : order.side = "BUY")
      (made : boughtPosition order (books.positions.get? order.key) = .ok position)
      (checked : position.checked order.market = true) :
      Settles books order (books.record (books.positions.insert order.key position)
        (books.cash - (order.gross + order.fees)) (recordedTrade order books.trades.length none))
  | trimmed {current : Position} (side : order.side ≠ "BUY") (held : books.positions.get? order.key = some current)
      (left : dust < current.quantity - order.quantity) :
      Settles books order (books.record (books.positions.insert order.key (soldPosition order current))
        (books.cash + (order.gross - order.fees)) (recordedTrade order books.trades.length
          (some (order.gross - order.fees - order.quantity * current.averageCostUsd))))
  | closed {current : Position} (side : order.side ≠ "BUY") (held : books.positions.get? order.key = some current)
      (covered : order.quantity ≤ current.quantity + dust) (left : current.quantity - order.quantity ≤ dust) :
      Settles books order (books.record (books.positions.erase order.key)
        (books.cash + (order.gross - order.fees)) (recordedTrade order books.trades.length
          (some (order.gross - order.fees - order.quantity * current.averageCostUsd))))

section Inversion

theorem require_ok {condition : Bool} {refusal : Refusal} (ok : require condition refusal books = (.ok (), final)) :
    condition = true ∧ final = books := by
  unfold require at ok
  rw [Transaction.ite_apply] at ok
  split at ok
  · rename_i holds
    cases ok
    exact ⟨holds, rfl⟩
  · cases ok

theorem runHook_ok {hook : Hook} (ok : runHook hook books = (.ok (), final)) : final = books := by
  unfold runHook at ok
  rw [Transaction.read_bind] at ok
  cases raised : hook books with
  | none =>
    rw [raised] at ok
    cases ok
    rfl
  | some text =>
    rw [raised] at ok
    cases ok

theorem putPosition_ok {key : String × String} {position : Position}
    (ok : putPosition key position books = (.ok (), final)) :
    position.checked key.1 = true ∧ final = { books with positions := books.positions.insert key position } := by
  unfold putPosition at ok
  rw [Transaction.read_bind] at ok
  obtain ⟨_, _, checks, written⟩ := Transaction.bind_ok ok
  cases written
  exact ⟨(require_ok checks).1, rfl⟩

theorem closeTrade_ok {cash : ℚ} {realized : Option ℚ} {executed : Executed}
    (ok : closeTrade order cash realized books = (.ok executed, final)) : 0 ≤ cash ∧
      (recordedTrade order books.trades.length realized).checked = true ∧
        final = books.record books.positions cash (recordedTrade order books.trades.length realized) := by
  unfold closeTrade at ok
  obtain ⟨_, paid, updated, rest⟩ := Transaction.bind_ok ok
  unfold updateCash at updated
  rw [Transaction.read_bind] at updated
  obtain ⟨_, _, solvent, written⟩ := Transaction.bind_ok updated
  obtain ⟨nonneg, rfl⟩ := require_ok solvent
  cases written
  rw [Transaction.read_bind] at rest
  obtain ⟨_, recorded, inserted, rest⟩ := Transaction.bind_ok rest
  unfold insertTrade at inserted
  rw [Transaction.read_bind] at inserted
  obtain ⟨_, _, checked, written⟩ := Transaction.bind_ok inserted
  obtain ⟨checks, rfl⟩ := require_ok checked
  cases written
  obtain ⟨_, _, hooked, rest⟩ := Transaction.bind_ok rest
  cases runHook_ok hooked
  cases rest
  exact ⟨of_decide_eq_true nonneg, checks, rfl⟩

theorem executeTrade_ok {executed : Executed} (ok : executeTrade order books = (.ok executed, final)) :
    Settles books order final ∧ 0 ≤ final.cash ∧ ∃ realized,
      (recordedTrade order books.trades.length realized).checked = true := by
  unfold executeTrade at ok
  rw [Transaction.read_bind] at ok
  obtain ⟨_, _, hooked, rest⟩ := Transaction.bind_ok ok
  cases runHook_ok hooked
  rw [Transaction.ite_apply] at rest
  split at rest
  · rename_i side
    obtain ⟨_, _, affordable, rest⟩ := Transaction.bind_ok rest
    obtain ⟨_, rfl⟩ := require_ok affordable
    obtain ⟨position, _, made, rest⟩ := Transaction.bind_ok rest
    obtain ⟨made, rfl⟩ := Transaction.check_ok made
    obtain ⟨_, _, put, rest⟩ := Transaction.bind_ok rest
    obtain ⟨checks, rfl⟩ := putPosition_ok put
    obtain ⟨nonneg, checked, rfl⟩ := closeTrade_ok rest
    exact ⟨.bought side made checks, nonneg, _, checked⟩
  · rename_i side
    cases held : books.positions.get? order.key with
    | none =>
      rw [held] at rest
      cases rest
    | some current =>
      rw [held] at rest
      obtain ⟨_, _, covered, rest⟩ := Transaction.bind_ok rest
      obtain ⟨enough, rfl⟩ := require_ok covered
      dsimp only at rest
      rw [Transaction.ite_apply] at rest
      split at rest
      · rename_i left
        obtain ⟨_, _, moved, rest⟩ := Transaction.bind_ok rest
        unfold deletePosition at moved
        rw [Transaction.read_bind] at moved
        cases moved
        obtain ⟨nonneg, checked, rfl⟩ := closeTrade_ok rest
        exact ⟨.closed side held (of_decide_eq_true enough) left, nonneg, _, checked⟩
      · rename_i left
        obtain ⟨_, _, moved, rest⟩ := Transaction.bind_ok rest
        obtain ⟨_, rfl⟩ := putPosition_ok moved
        obtain ⟨nonneg, checked, rfl⟩ := closeTrade_ok rest
        exact ⟨.trimmed side held (not_le.mp left), nonneg, _, checked⟩

end Inversion

section Balance

def invested (positions : Dict (String × String) Position) : ℚ :=
  positions.total fun _ position => position.quantity * position.averageCostUsd

def realizedPnl (trades : List Trade) : ℚ :=
  ((trades.filter fun trade => trade.side = "SELL").map fun trade => trade.realized.getD 0).sum

/-- The shares a trade adds, or takes. -/
def Trade.signed (trade : Trade) : ℚ := if trade.side = "BUY" then trade.quantity else -trade.quantity

/-- The signed sum of the recorded trades of a symbol. -/
def traded (trades : List Trade) (key : String × String) : ℚ :=
  ((trades.filter fun trade => trade.key = key).map Trade.signed).sum

def storedQuantity (positions : Dict (String × String) Position) (key : String × String) : ℚ :=
  ((positions.get? key).map Position.quantity).getD 0

/-- What a full exit dropped. -/
structure Residue where
  key : String × String
  quantity : ℚ
  averageCostUsd : ℚ

/-- The residue of a call: what was left of the position when the call closed it. -/
def dropped (books : Books) (order : Order) : Option Residue :=
  match call order books with
  | (.error _, _) => none
  | (.ok _, _) =>
      match books.positions.get? order.key with
      | none => none
      | some current =>
          if order.side ≠ "BUY" ∧ current.quantity - order.quantity ≤ dust then
            some ⟨order.key, current.quantity - order.quantity, current.averageCostUsd⟩
          else none

/-- The residues of some calls, one after the other. -/
def allDropped (books : Books) : List Order → List Residue
  | [] => []
  | order :: rest => (dropped books order).toList ++ allDropped (call order books).2 rest

def residueValue (residues : List Residue) : ℚ :=
  (residues.map fun residue => residue.quantity * residue.averageCostUsd).sum

def residueQuantity (residues : List Residue) (key : String × String) : ℚ :=
  ((residues.filter fun residue => residue.key = key).map Residue.quantity).sum

/-- The ledger conserves money. -/
structure Balanced (startingCapital : ℚ) (books : Books) (residues : List Residue) : Prop where
  balance : books.cash + invested books.positions =
    startingCapital + realizedPnl books.trades - residueValue residues
  solvent : 0 ≤ books.cash
  held : ∀ key position, books.positions.get? key = some position → 0 < position.quantity ∧ 0 < position.averageCostUsd
  quantities : ∀ key, storedQuantity books.positions key = traded books.trades key - residueQuantity residues key
  small : ∀ residue ∈ residues, |residue.quantity| ≤ dust ∧ 0 < residue.averageCostUsd

end Balance

section Sums
variable {trades : List Trade} {trade : Trade} {key : String × String}

@[simp] theorem realizedPnl_snoc : realizedPnl (trades ++ [trade]) =
    realizedPnl trades + if trade.side = "SELL" then trade.realized.getD 0 else 0 := by
  unfold realizedPnl
  by_cases sell : trade.side = "SELL" <;> simp [sell]

@[simp] theorem traded_snoc : traded (trades ++ [trade]) key =
    traded trades key + if trade.key = key then trade.signed else 0 := by
  unfold traded
  by_cases own : trade.key = key <;> simp [own]

@[simp] theorem residueValue_append (first second : List Residue) :
    residueValue (first ++ second) = residueValue first + residueValue second := by
  unfold residueValue
  rw [List.map_append, List.sum_append]

@[simp] theorem residueQuantity_append (first second : List Residue) (key : String × String) :
    residueQuantity (first ++ second) key = residueQuantity first key + residueQuantity second key := by
  unfold residueQuantity
  rw [List.filter_append, List.map_append, List.sum_append]

theorem storedQuantity_insert (positions : Dict (String × String) Position) (own key : String × String)
    (position : Position) : storedQuantity (positions.insert own position) key =
      if key = own then position.quantity else storedQuantity positions key := by
  unfold storedQuantity
  rw [Dict.get?_insert]
  split <;> rfl

theorem storedQuantity_erase (positions : Dict (String × String) Position) (own key : String × String) :
    storedQuantity (positions.erase own) key = if key = own then 0 else storedQuantity positions key := by
  unfold storedQuantity
  rw [Dict.get?_erase]
  split <;> rfl

theorem boughtPosition_ok {current : Option Position} {position : Position}
    (made : boughtPosition order current = .ok position) :
    position.quantity = (current.map Position.quantity).getD 0 + order.quantity ∧
      position.quantity * position.averageCostUsd = (current.map Position.quantity).getD 0 *
        (current.map Position.averageCostUsd).getD 0 + order.gross + order.fees := by
  unfold boughtPosition at made
  dsimp only at made
  split at made
  · cases made
  · rename_i some
    have nonzero : (current.map Position.quantity).getD 0 + order.quantity ≠ 0 := fun zero => some (.inl zero)
    cases made
    exact ⟨rfl, mul_div_cancel₀ _ nonzero⟩

end Sums
section Steps
variable {startingCapital : ℚ} {residues : List Residue}

theorem invested_insert (positions : Dict (String × String) Position) (key : String × String) (position : Position) :
    invested (positions.insert key position) = invested positions -
      ((positions.get? key).map Position.quantity).getD 0 * ((positions.get? key).map Position.averageCostUsd).getD 0 +
        position.quantity * position.averageCostUsd := by
  unfold invested
  cases held : positions.get? key with
  | none => rw [Dict.total_insert_new _ held, Option.map_none, Option.getD_none, zero_mul, sub_zero]
  | some current => rw [Dict.total_insert _ held, Option.map_some, Option.map_some, Option.getD_some, Option.getD_some]

theorem checked_trade {id : ℕ} {realized : Option ℚ} (checked : (recordedTrade order id realized).checked = true) :
    0 < order.quantity ∧ (order.side ≠ "BUY" → order.side = "SELL") := by
  unfold Trade.checked at checked
  simp only [Bool.and_eq_true, decide_eq_true_eq, recordedTrade, List.mem_cons, List.not_mem_nil, or_false] at checked
  obtain ⟨⟨⟨⟨⟨⟨⟨⟨_, side⟩, quantity⟩, _⟩, _⟩, _⟩, _⟩, _⟩, _⟩ := checked
  exact ⟨of_decide_eq_true quantity, fun other => side.resolve_left other⟩

theorem quantities_step {positions : Dict (String × String) Position} {realized : Option ℚ} {more : List Residue}
    (balanced : Balanced startingCapital books residues)
    (own : storedQuantity positions order.key = storedQuantity books.positions order.key +
      (recordedTrade order books.trades.length realized).signed - residueQuantity more order.key)
    (others : ∀ key, key ≠ order.key → storedQuantity positions key = storedQuantity books.positions key)
    (mine : ∀ residue ∈ more, residue.key = order.key) (key : String × String) : storedQuantity positions key =
      traded (books.trades ++ [recordedTrade order books.trades.length realized]) key -
        residueQuantity (residues ++ more) key := by
  rw [traded_snoc, residueQuantity_append]
  by_cases same : order.key = key
  · subst same
    have tradeKey : (recordedTrade order books.trades.length realized).key = order.key := rfl
    rw [if_pos tradeKey, own, balanced.quantities]
    ring
  · have tradeKey : (recordedTrade order books.trades.length realized).key ≠ key := same
    have none : residueQuantity more key = 0 := by
      unfold residueQuantity
      rw [List.filter_eq_nil_iff.mpr fun residue member same' => same ((mine residue member).symm.trans
        (of_decide_eq_true same'))]
      rfl
    rw [if_neg tradeKey, none, others key (Ne.symm same), balanced.quantities]
    ring

theorem Balanced.bought {position : Position} (balanced : Balanced startingCapital books residues)
    (side : order.side = "BUY") (made : boughtPosition order (books.positions.get? order.key) = .ok position)
    (cost : 0 < position.averageCostUsd) (quantity : 0 < order.quantity) (solvent : 0 ≤ books.cash - (order.gross + order.fees)) :
    Balanced startingCapital (books.record (books.positions.insert order.key position)
      (books.cash - (order.gross + order.fees)) (recordedTrade order books.trades.length none)) (residues ++ []) := by
  obtain ⟨total, paid⟩ := boughtPosition_ok made
  have nonneg : 0 ≤ ((books.positions.get? order.key).map Position.quantity).getD 0 := by
    cases held : books.positions.get? order.key with
    | none => exact le_rfl
    | some current => exact (balanced.held _ current held).1.le
  have buys : (recordedTrade order books.trades.length none).side = "BUY" := side
  exact
    { balance := by
        have before := balanced.balance
        rw [List.append_nil]
        simp only [Books.record, invested_insert, realizedPnl_snoc, buys, String.reduceEq, if_false]
        rw [paid]
        linarith
      solvent
      held := by
        intro key other found
        simp only [Books.record, Dict.get?_insert] at found
        split at found
        · cases found
          exact ⟨by rw [total]; linarith, cost⟩
        · exact balanced.held key other found
      quantities := by
        refine quantities_step balanced ?_ (fun key apart => ?_) fun _ member => by cases member
        · rw [record_positions, storedQuantity_insert, if_pos rfl, total, Trade.signed, if_pos buys]
          simp [storedQuantity, residueQuantity, recordedTrade]
        · rw [record_positions, storedQuantity_insert, if_neg apart]
      small := by
        rw [List.append_nil]
        exact balanced.small }

theorem Balanced.trimmed {current : Position} (balanced : Balanced startingCapital books residues)
    (side : order.side = "SELL") (held : books.positions.get? order.key = some current)
    (left : dust < current.quantity - order.quantity) (solvent : 0 ≤ books.cash + (order.gross - order.fees)) :
    Balanced startingCapital (books.record (books.positions.insert order.key (soldPosition order current))
      (books.cash + (order.gross - order.fees)) (recordedTrade order books.trades.length
        (some (order.gross - order.fees - order.quantity * current.averageCostUsd)))) (residues ++ []) := by
  have sells : ∀ realized, (recordedTrade order books.trades.length realized).side = "SELL" := fun _ => side
  exact
    { balance := by
        have before := balanced.balance
        rw [List.append_nil]
        simp only [Books.record, invested_insert, realizedPnl_snoc, side, if_true, held, Option.map_some,
          Option.getD_some, soldPosition, recordedTrade]
        linarith
      solvent
      held := by
        intro key other found
        simp only [Books.record, Dict.get?_insert] at found
        split at found
        · cases found
          exact ⟨(by decide +kernel : (0 : ℚ) < dust).trans left, (balanced.held _ current held).2⟩
        · exact balanced.held key other found
      quantities := by
        refine quantities_step balanced ?_ (fun key apart => ?_) fun _ member => by cases member
        · rw [record_positions, storedQuantity_insert, if_pos rfl, Trade.signed, sells, if_neg (by decide)]
          simp [storedQuantity, residueQuantity, recordedTrade, soldPosition, held, sub_eq_add_neg]
        · rw [record_positions, storedQuantity_insert, if_neg apart]
      small := by
        rw [List.append_nil]
        exact balanced.small }

theorem Balanced.closed {current : Position} (balanced : Balanced startingCapital books residues)
    (side : order.side = "SELL") (held : books.positions.get? order.key = some current)
    (covered : order.quantity ≤ current.quantity + dust) (left : current.quantity - order.quantity ≤ dust)
    (solvent : 0 ≤ books.cash + (order.gross - order.fees)) :
    Balanced startingCapital (books.record (books.positions.erase order.key)
      (books.cash + (order.gross - order.fees)) (recordedTrade order books.trades.length
        (some (order.gross - order.fees - order.quantity * current.averageCostUsd))))
      (residues ++ [⟨order.key, current.quantity - order.quantity, current.averageCostUsd⟩]) := by
  have sells : ∀ realized, (recordedTrade order books.trades.length realized).side = "SELL" := fun _ => side
  exact
    { balance := by
        have before := balanced.balance
        have erased : invested (books.positions.erase order.key) =
            invested books.positions - current.quantity * current.averageCostUsd := Dict.total_erase _ held
        rw [residueValue_append]
        simp only [Books.record, erased, realizedPnl_snoc, side, if_true, Option.getD_some, recordedTrade, residueValue,
          List.map_cons, List.map_nil, List.sum_cons, List.sum_nil] at before ⊢
        linarith
      solvent
      held := by
        intro key other found
        simp only [Books.record, Dict.get?_erase] at found
        split at found
        · cases found
        · exact balanced.held key other found
      quantities := by
        refine quantities_step balanced ?_ (fun key apart => ?_) fun residue member => ?_
        · rw [record_positions, storedQuantity_erase, if_pos rfl, Trade.signed, sells, if_neg (by decide)]
          simp [storedQuantity, residueQuantity, recordedTrade, held]
        · rw [record_positions, storedQuantity_erase, if_neg apart]
        · rw [List.mem_singleton.mp member]
      small := by
        intro residue member
        rcases List.mem_append.mp member with earlier | new
        · exact balanced.small residue earlier
        · rw [List.mem_singleton.mp new]
          exact ⟨abs_le.mpr ⟨by linarith, left⟩, (balanced.held _ current held).2⟩ }

theorem Balanced.call (balanced : Balanced startingCapital books residues) (order : Order) :
    Balanced startingCapital (call order books).2 (residues ++ (dropped books order).toList) := by
  cases found : Paper.call order books with
  | mk answer final =>
  cases answer with
  | error refusal =>
    have same : final = books := Transaction.commit_error found
    have none : dropped books order = none := by
      unfold dropped
      rw [found]
    rw [none, same]
    exact (List.append_nil residues).symm ▸ balanced
  | ok executed =>
    obtain ⟨settles, solvent, realized, checked⟩ := executeTrade_ok (Transaction.commit_ok found)
    obtain ⟨quantity, sells⟩ := checked_trade checked
    unfold dropped
    rw [found]
    dsimp only
    cases settles with
    | bought side made cost =>
      have none : ∀ current : Option Position, (match current with
          | none => none
          | some current => if order.side ≠ "BUY" ∧ current.quantity - order.quantity ≤ dust then
              some (⟨order.key, current.quantity - order.quantity, current.averageCostUsd⟩ : Residue)
            else none) = none := by
        intro current
        cases current with
        | none => rfl
        | some current => exact if_neg fun both => both.1 side
      rw [none]
      refine balanced.bought side made ?_ quantity solvent
      simp only [Position.checked, Bool.and_eq_true, decide_eq_true_eq] at cost
      exact cost.1.1.1.1.2
    | trimmed side held left =>
      simp only [held]
      rw [if_neg fun both => absurd both.2 (not_le.mpr left)]
      exact balanced.trimmed (sells side) held left solvent
    | closed side held covered left =>
      simp only [held]
      rw [if_pos ⟨side, left⟩]
      exact balanced.closed (sells side) held covered left solvent

theorem Balanced.callAll (balanced : Balanced startingCapital books residues) (orders : List Order) :
    Balanced startingCapital (callAll books orders) (residues ++ allDropped books orders) := by
  induction orders generalizing books residues with
  | nil =>
    rw [allDropped, List.append_nil]
    exact balanced
  | cons order rest ih =>
    rw [allDropped, ← List.append_assoc]
    exact ih (balanced.call order)

theorem Balanced.seeded (mandate : Mandate) : Balanced mandate.startingCapital (seeded mandate) [] where
  balance := by simp [Paper.seeded, invested, Dict.total, realizedPnl, residueValue, Dict.empty]
  solvent := mandate.positive.le
  held := fun _ _ found => nomatch found
  quantities := fun key => by simp [Paper.seeded, storedQuantity, traded, residueQuantity]
  small := fun _ member => nomatch member

end Steps

/-- From a seeded experiment, in every state that calls reach, money is conserved up to the
dust of full exits, and a call that raises leaves the rows as they were. -/
theorem paper_conserves (mandate : Mandate) (orders : List Order) :
    Balanced mandate.startingCapital (callAll (seeded mandate) orders) (allDropped (seeded mandate) orders) ∧
      ∀ order refusal final, call order (callAll (seeded mandate) orders) = (.error refusal, final) →
        final = callAll (seeded mandate) orders := by
  refine ⟨?_, fun order refusal final raised => Transaction.commit_error raised⟩
  exact (Balanced.seeded mandate).callAll orders

section Sessions
variable {trades : List Trade} {trade : Trade} {session : Int → Int}

theorem realizedPnl_filter (chosen : Trade → Bool) : realizedPnl ((trades ++ [trade]).filter chosen) =
    realizedPnl (trades.filter chosen) + if chosen trade = true ∧ trade.side = "SELL" then trade.realized.getD 0 else 0 := by
  by_cases picked : chosen trade = true <;> simp [List.filter_append, picked]

theorem bySession_snoc : realizedPnlBySession session (trades ++ [trade]) =
    if trade.side = "SELL" ∧ trade.realized.isSome ∧ ¬ trade.corrected then (realizedPnlBySession session trades).insert
      (session trade.executedAt) (((realizedPnlBySession session trades).get? (session trade.executedAt)).getD 0 + trade.realized.getD 0)
    else realizedPnlBySession session trades := by
  unfold realizedPnlBySession
  rw [List.filter_append, List.foldl_append, List.filter_singleton]
  by_cases counts : trade.side = "SELL" ∧ trade.realized.isSome ∧ ¬ trade.corrected
  · rw [if_pos counts, decide_eq_true counts]
    rfl
  · rw [if_neg counts, decide_eq_false counts]
    rfl

theorem uncounted (counts : ¬ (trade.side = "SELL" ∧ trade.realized.isSome ∧ ¬ trade.corrected)) (uncorrected : ¬ trade.corrected)
    (sells : trade.side = "SELL") : trade.realized.getD 0 = 0 := by
  have missing := Option.not_isSome_iff_eq_none.mp fun there => counts ⟨sells, there, uncorrected⟩
  rw [missing]
  rfl

theorem bySession_get (day : Int) : ((realizedPnlBySession session trades).get? day).getD 0 =
    realizedPnl (trades.filter fun trade => ¬ trade.corrected ∧ session trade.executedAt = day) := by
  induction trades using List.reverseRecOn with
  | nil => rfl
  | append_singleton front last ih =>
    rw [bySession_snoc, realizedPnl_filter, ← ih]
    simp only [decide_eq_true_eq]
    by_cases counts : last.side = "SELL" ∧ last.realized.isSome ∧ ¬ last.corrected
    · rw [if_pos counts, Dict.get?_insert]
      by_cases own : day = session last.executedAt
      · rw [if_pos own, if_pos ⟨⟨counts.2.2, own.symm⟩, counts.1⟩, own]
        rfl
      · rw [if_neg own, if_neg fun both => own both.1.2.symm, add_zero]
    · rw [if_neg counts]
      split
      · rename_i both
        rw [uncounted counts both.1.1 both.2, add_zero]
      · rw [add_zero]

theorem bySession_total : (realizedPnlBySession session trades).total (fun _ pnl => pnl) =
    realizedPnl (trades.filter fun trade => ¬ trade.corrected) := by
  induction trades using List.reverseRecOn with
  | nil => rfl
  | append_singleton front last ih =>
    rw [bySession_snoc, realizedPnl_filter, ← ih]
    simp only [decide_eq_true_eq]
    by_cases counts : last.side = "SELL" ∧ last.realized.isSome ∧ ¬ last.corrected
    · rw [if_pos counts, if_pos ⟨counts.2.2, counts.1⟩]
      cases found : (realizedPnlBySession session front).get? (session last.executedAt) with
      | none => rw [Dict.total_insert_new _ found, Option.getD_none, zero_add]
      | some held =>
        rw [Dict.total_insert _ found, Option.getD_some]
        ring
    · rw [if_neg counts]
      split
      · rename_i both
        rw [uncounted counts both.1 both.2, add_zero]
      · rw [add_zero]

theorem realizedPnl_corrected (trades : List Trade) : realizedPnl trades =
    realizedPnl (trades.filter fun trade => ¬ trade.corrected) + realizedPnl (trades.filter fun trade => trade.corrected) := by
  induction trades using List.reverseRecOn with
  | nil => exact (add_zero _).symm
  | append_singleton front last ih =>
    rw [realizedPnl_snoc, realizedPnl_filter, realizedPnl_filter, ih]
    cases last.corrected <;> simp <;> ring

/-- What the panel shows as the result of each session is what the sales of that day realized, and the sessions together
explain the books: cash and positions are the starting capital, the results of the sessions, those of corrected sales, less the
dust that full exits drop. -/
theorem sessions_reconcile (mandate : Mandate) (orders : List Order) (session : Int → Int) :
    (∀ day, ((realizedPnlBySession session (callAll (seeded mandate) orders).trades).get? day).getD 0 =
      realizedPnl ((callAll (seeded mandate) orders).trades.filter fun trade => ¬ trade.corrected ∧ session trade.executedAt = day)) ∧
    (callAll (seeded mandate) orders).cash + invested (callAll (seeded mandate) orders).positions = mandate.startingCapital +
      (realizedPnlBySession session (callAll (seeded mandate) orders).trades).total (fun _ pnl => pnl) +
      realizedPnl ((callAll (seeded mandate) orders).trades.filter fun trade => trade.corrected) -
      residueValue (allDropped (seeded mandate) orders) := by
  refine ⟨bySession_get, ?_⟩
  have balance := ((Balanced.seeded mandate).callAll orders).balance
  rw [List.nil_append] at balance
  rw [balance, bySession_total, realizedPnl_corrected (callAll (seeded mandate) orders).trades]
  ring

end Sessions

end C3po.Paper
