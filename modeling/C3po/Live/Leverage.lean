import Mathlib.Algebra.Order.BigOperators.Group.List
import Mathlib.Tactic.LinearCombination
import C3po.Live.Runs

/-! Leverage.

A sale frees at least nothing: cash only falls at a purchase, by its whole size, and
the size is a share of the realized NAV however old the other positions' costs are.
So the book's cash stays non-negative over a run exactly when every purchase found
the open cost within what its size left of the NAV.
-/

set_option autoImplicit false

namespace C3po.Live
open C3po.Library

def EngineState.cash (state : EngineState) : ℚ := state.navRealized - state.openCost

/-- Positions under their own symbols, that cost and hold nothing negative. -/
structure EngineState.Funded (state : EngineState) : Prop where
  keyed : state.Keyed
  costs : ∀ symbol position, state.positions.get? symbol = some position →
    0 ≤ position.costUsd ∧ 0 ≤ position.shares ∧ (position.costUsd = 0 → position.shares = 0)

/-- The open cost before a purchase fits in what its size leaves of the realized NAV. -/
def Affordable (entry : Engine × Engine.Cross × Engine.Purchase) : Prop :=
  entry.1.state.openCost ≤
    entry.1.state.navRealized * (1 - sizeWeight entry.2.2.quote.spreadBps / rule.slots)

namespace Engine
variable {zone : Zone} {engine : Engine}

theorem mark_cash {position : Position} {bid : ℚ}
    (held : engine.state.positions.get? position.symbol = some position) (moment : Int) :
    (engine.mark (position.marked bid) moment).state.cash = engine.state.cash := by
  unfold EngineState.cash EngineState.openCost Engine.mark
  simp only
  rw [Dict.total_insert (fun _ position => position.costUsd)
    (show engine.state.positions.get? (position.marked bid).symbol = some position from held)]
  simp only [Position.marked]
  ring

theorem sell_cash {position : Position} {bid : ℚ}
    (held : engine.state.positions.get? position.symbol = some position)
    (funded : position.costUsd = 0 → position.shares = 0) (reason : ExitReason) (moment : Int) :
    (engine.sell position bid (position.netPercent bid) reason moment).state.cash =
      engine.state.cash + position.shares * bid * (1 - feeSide) := by
  unfold EngineState.cash EngineState.openCost Engine.sell
  simp only
  rw [Dict.total_erase (fun _ position => position.costUsd) held, Position.result_eq funded]
  ring

theorem buy_cash {cross : Cross} (free : engine.state.positions.get? cross.symbol = none)
    (purchase : Purchase) : (engine.buy cross purchase).state.cash =
      engine.state.cash - engine.state.navRealized / rule.slots * sizeWeight purchase.quote.spreadBps := by
  unfold EngineState.cash EngineState.openCost Engine.buy
  simp only
  rw [Dict.total_insert_new (fun _ position => position.costUsd) free]
  ring

theorem cash_steady (bound : ℚ) :
    Steady fun engine => engine.state.Funded ∧ bound ≤ engine.state.cash where
  keyed kept := kept.1.keyed
  frame frame kept := by
    refine ⟨⟨keyed_frame frame kept.1.keyed,
      fun symbol position held => kept.1.costs symbol position (frame.positions ▸ held)⟩, ?_⟩
    unfold EngineState.cash EngineState.openCost
    rw [frame.navRealized, frame.positions]
    exact kept.2
  mark {engine position bid} kept held _ moment := by
    refine ⟨⟨keyed_mark kept.1.keyed _ moment, fun symbol other found => ?_⟩, ?_⟩
    · rcases mark_held found with ⟨_, rfl⟩ | old
      · have own := kept.1.costs _ _ held
        exact own
      · exact kept.1.costs symbol other old
    · rw [mark_cash held]
      exact kept.2
  sell {engine position bid} kept held positive reason moment := by
    obtain ⟨_, shares, funded⟩ := kept.1.costs _ _ held
    refine ⟨⟨keyed_sell kept.1.keyed _ _ _ _ _, fun symbol other found =>
      kept.1.costs symbol other (sell_held found).2⟩, ?_⟩
    rw [sell_cash held funded]
    have paid : 0 ≤ position.shares * bid * (1 - feeSide) := by
      have fee : (0 : ℚ) ≤ 1 - feeSide := by norm_num [feeSide]
      exact mul_nonneg (mul_nonneg shares positive.le) fee
    exact le_add_of_le_of_nonneg kept.2 paid

theorem Funded.nav_nonneg {state : EngineState} (funded : state.Funded) (cash : 0 ≤ state.cash) :
    0 ≤ state.navRealized := by
  have cost : 0 ≤ state.openCost := by
    refine List.sum_nonneg fun cost member => ?_
    obtain ⟨entry, entryIn, rfl⟩ := List.mem_map.mp member
    exact (funded.costs entry.1 entry.2 (Dict.mem_entries.mp entryIn)).1
  unfold EngineState.cash at cash
  linarith

theorem buy_size_nonneg {state : EngineState} (nav : 0 ≤ state.navRealized) (spreadBps : ℚ) :
    0 ≤ state.navRealized / rule.slots * sizeWeight spreadBps := by
  have slots : (0 : ℚ) ≤ rule.slots := by norm_num [rule]
  exact mul_nonneg (div_nonneg nav slots) (sizeWeight_bounds spreadBps).1.le

theorem affordable_iff {cross : Cross} (free : engine.state.positions.get? cross.symbol = none)
    (purchase : Purchase) : Affordable (engine, cross, purchase) ↔ 0 ≤ (engine.buy cross purchase).state.cash := by
  rw [buy_cash free]
  unfold Affordable EngineState.cash
  simp only
  constructor
  · intro fits
    linear_combination fits
  · intro kept
    linear_combination kept

theorem buy_funded (funded : engine.state.Funded) (nav : 0 ≤ engine.state.navRealized) (cross : Cross)
    {purchase : Purchase} (positive : 0 < purchase.quote.ask) :
    (engine.buy cross purchase).state.Funded := by
  refine ⟨fun symbol other found => ?_, fun symbol other found => ?_⟩
  · simp only [Engine.buy, Dict.get?_insert] at found
    split at found
    · rename_i same
      cases found
      exact same.symm
    · exact funded.keyed symbol other found
  · simp only [Engine.buy, Dict.get?_insert] at found
    split at found
    · cases found
      have size := buy_size_nonneg nav purchase.quote.spreadBps
      have price : 0 < purchase.quote.ask * (1 + feeSide) :=
        mul_pos positive (by norm_num [feeSide])
      exact ⟨size, div_nonneg size price.le, fun none => by simp only at none ⊢; rw [none, zero_div]⟩
    · exact funded.costs symbol other found

section Entries
variable {now : Int} {asked : Option Wait} {read : String → Reading}

theorem enter_cash_le {crosses : List Cross} (free : engine.Free crosses)
    (nav : 0 ≤ engine.state.navRealized) :
    (enter zone now asked read crosses engine).state.cash ≤ engine.state.cash := by
  induction crosses generalizing engine with
  | nil => exact le_rfl
  | cons cross rest ih =>
    unfold enter
    split
    · exact ih free.tail nav
    · exact le_rfl
    · exact ih (free.tail.frame (shadowOpen_frame ..)) nav
    · rename_i purchase _
      refine (ih (free.buy purchase) nav).trans ?_
      rw [buy_cash (free.unheld cross List.mem_cons_self)]
      exact sub_le_self _ (buy_size_nonneg nav _)

theorem purchases_affordable {crosses : List Cross} (free : engine.Free crosses)
    (funded : engine.state.Funded) (cash : 0 ≤ engine.state.cash)
    (kept : 0 ≤ (enter zone now asked read crosses engine).state.cash) :
    ∀ entry ∈ purchases zone now asked read crosses engine, Affordable entry := by
  induction crosses generalizing engine with
  | nil => exact fun _ member => by cases member
  | cons cross rest ih =>
    unfold purchases
    unfold enter at kept
    split <;> rename_i found <;> simp only [found] at kept
    · exact ih free.tail funded cash kept
    · exact fun _ member => by cases member
    · exact ih (free.tail.frame (shadowOpen_frame ..)) ⟨funded.keyed, funded.costs⟩ cash kept
    · rename_i purchase
      have nav := Funded.nav_nonneg funded cash
      have unheld := free.unheld cross List.mem_cons_self
      obtain ⟨positive, ordered, _⟩ := verdict_buy found
      -- the entries after this one do not raise the cash again
      have after := kept.trans (enter_cash_le (free.buy purchase) nav)
      intro entry member
      rcases List.mem_cons.mp member with rfl | later
      · exact (affordable_iff unheld purchase).mpr after
      · exact ih (free.buy purchase) (buy_funded funded nav cross (positive.trans_le ordered)) after kept
          entry later

end Entries

theorem step_cash_iff (funded : engine.state.Funded) (cash : 0 ≤ engine.state.cash) (input : StepInput) :
    0 ≤ (engine.step zone input).state.cash ↔
      ∀ entry ∈ engine.stepPurchases zone input, Affordable entry := by
  obtain ⟨startFunded, startCash⟩ := @Steady.stepStart zone _ (cash_steady 0) input _ ⟨funded, cash⟩
  constructor
  · intro kept
    unfold Engine.step stepEntries at kept
    unfold stepPurchases
    simp only at kept ⊢
    split
    · rename_i open_
      simp only [open_, if_true] at kept
      obtain ⟨frame, free⟩ := @stepSignals_spec zone
        ((engine.stepExits zone input).stepShadows zone input) input
      have signalled := (cash_steady 0).frame frame ⟨startFunded, startCash⟩
      have waited := @Steady.stepWait zone _ (cash_steady 0) input
        (((engine.stepExits zone input).stepShadows zone input).stepSignals zone input).2 _ signalled
      have still := @Steady.stepWait zone _ (free_steady _) input
        (((engine.stepExits zone input).stepShadows zone input).stepSignals zone input).2 _ ⟨signalled.1.keyed, free⟩
      exact purchases_affordable still.2 waited.1 waited.2 kept
    · exact fun _ member => nomatch member
  · intro affordable
    refine ((cash_steady 0).step input (fun entry member kept unheld positive ordered => ?_)
      ⟨funded, cash⟩).2
    exact ⟨buy_funded kept.1 (Funded.nav_nonneg kept.1 kept.2) _ (positive.trans_le ordered),
      (affordable_iff unheld _).mp (affordable entry member)⟩

theorem step_funded (funded : engine.state.Funded) (cash : 0 ≤ engine.state.cash) {input : StepInput}
    (affordable : ∀ entry ∈ engine.stepPurchases zone input, Affordable entry) :
    (engine.step zone input).state.Funded := by
  refine ((cash_steady 0).step input (fun entry member kept unheld positive ordered => ?_)
    ⟨funded, cash⟩).1
  exact ⟨buy_funded kept.1 (Funded.nav_nonneg kept.1 kept.2) _ (positive.trans_le ordered),
    (affordable_iff unheld _).mp (affordable entry member)⟩

theorem cash_of_book {before after : Engine} (nav : after.state.navRealized = before.state.navRealized)
    (positions : after.state.positions = before.state.positions)
    (kept : before.state.Funded ∧ 0 ≤ before.state.cash) : after.state.Funded ∧ 0 ≤ after.state.cash := by
  refine ⟨⟨fun symbol position held => kept.1.keyed symbol position (positions ▸ held),
    fun symbol position held => kept.1.costs symbol position (positions ▸ held)⟩, ?_⟩
  unfold EngineState.cash EngineState.openCost
  rw [nav, positions]
  exact kept.2

theorem closeSession_cash (kept : engine.state.Funded ∧ 0 ≤ engine.state.cash) :
    (engine.closeSession zone).state.Funded ∧ 0 ≤ (engine.closeSession zone).state.cash := by
  have closed := closeSession_closed zone engine
  have found : ∀ symbol position, (engine.closeSession zone).state.positions.get? symbol = some position →
      ∃ older, engine.state.positions.get? symbol = some older ∧ position = older.older := by
    intro symbol position held
    rw [closed.positions, Dict.get?_mapValues, Option.map_eq_some_iff] at held
    obtain ⟨older, isOlder, rfl⟩ := held
    exact ⟨older, isOlder, rfl⟩
  refine ⟨⟨fun symbol position held => ?_, fun symbol position held => ?_⟩, ?_⟩
  · obtain ⟨older, isOlder, rfl⟩ := found symbol position held
    exact kept.1.keyed symbol older isOlder
  · obtain ⟨older, isOlder, rfl⟩ := found symbol position held
    exact kept.1.costs symbol older isOlder
  · unfold EngineState.cash EngineState.openCost
    rw [closed.navRealized, closed.positions, Dict.total_mapValues]
    exact kept.2

theorem act_cash (kept : engine.state.Funded ∧ 0 ≤ engine.state.cash) (act : Act) :
    (0 ≤ (engine.act zone act).state.cash ↔ ∀ entry ∈ engine.purchasesOf zone act, Affordable entry) ∧
      ((∀ entry ∈ engine.purchasesOf zone act, Affordable entry) → (engine.act zone act).state.Funded) := by
  have still : ∀ next : Engine, next.state.Funded ∧ 0 ≤ next.state.cash →
      (0 ≤ next.state.cash ↔ ∀ entry ∈ ([] : List (Engine × Cross × Purchase)), Affordable entry) ∧
        ((∀ entry ∈ ([] : List (Engine × Cross × Purchase)), Affordable entry) → next.state.Funded) :=
    fun next ok => ⟨⟨fun _ _ member => (List.not_mem_nil member).elim, fun _ => ok.2⟩, fun _ => ok.1⟩
  cases act with
  | start day names =>
    refine still (Engine.start engine.state day names) (cash_of_book ?_ ?_ kept)
    · unfold Engine.start
      simp only
      split <;> rfl
    · unfold Engine.start
      simp only
      split <;> rfl
  | candidates opening =>
    have selected := setCandidates_selected engine opening
    exact still _ (cash_of_book selected.navRealized selected.positions kept)
  | adopt tapes =>
    have selected := adoptOpening_selected zone engine tapes
    exact still _ (cash_of_book selected.navRealized selected.positions kept)
  | step input => exact ⟨step_cash_iff kept.1 kept.2 input, step_funded kept.1 kept.2⟩
  | fast pass => exact still _ ((cash_steady 0).fastExits pass kept)
  | close => exact still _ (closeSession_cash kept)

theorem run_cash_iff (kept : engine.state.Funded ∧ 0 ≤ engine.state.cash) (acts : List Act) :
    (∀ front, front <+: acts → 0 ≤ (engine.run zone front).state.cash) ↔
      ∀ front act, front ++ [act] <+: acts →
        ∀ entry ∈ (engine.run zone front).purchasesOf zone act, Affordable entry := by
  induction acts generalizing engine with
  | nil =>
    constructor
    · intro _ front act prefixed
      have none := List.prefix_nil.mp prefixed
      simp at none
    · intro _ front prefixed
      rw [List.prefix_nil.mp prefixed]
      exact kept.2
  | cons act rest ih =>
    obtain ⟨cash, funded⟩ := @act_cash zone _ kept act
    constructor
    · intro all
      have first : 0 ≤ (engine.act zone act).state.cash :=
        all [act] (List.prefix_cons_inj act |>.mpr (List.nil_prefix))
      have affordable := cash.mp first
      have later := (ih ⟨funded affordable, first⟩).mp fun front prefixed =>
        all (act :: front) ((List.prefix_cons_inj act).mpr prefixed)
      intro front other prefixed
      cases front with
      | nil =>
        obtain ⟨same, _⟩ := List.cons_prefix_cons.mp prefixed
        subst same
        exact affordable
      | cons head front =>
        obtain ⟨same, within⟩ := List.cons_prefix_cons.mp prefixed
        rw [same]
        exact later front other within
    · intro all
      have affordable := all [] act ((List.prefix_cons_inj act).mpr List.nil_prefix)
      have first := cash.mpr affordable
      have later := (ih ⟨funded affordable, first⟩).mpr fun front other prefixed =>
        all (act :: front) other ((List.prefix_cons_inj act).mpr prefixed)
      intro front prefixed
      cases front with
      | nil => exact kept.2
      | cons head front =>
        obtain ⟨same, within⟩ := List.cons_prefix_cons.mp prefixed
        rw [same]
        exact later front within

end Engine

theorem EngineState.Seeded.funded {state : EngineState} (seeded : state.Seeded) : state.Funded :=
  ⟨seeded.keyed, fun symbol position held => by
    obtain ⟨cost, shares, _⟩ := seeded.bought symbol position held
    exact ⟨cost.le, shares.le, fun free => absurd free cost.ne'⟩⟩

/-- From a seed without leverage, the published cash is non-negative in every state of a run
exactly when every purchase of the run found the open cost within what its size left of the NAV. -/
theorem no_leverage_iff (zone : Zone) {seed : EngineState} (seeded : seed.Seeded)
    (unlevered : seed.openCost ≤ seed.navRealized) (day : Int) (names : List Member) (acts : List Act) :
    (∀ front, front <+: acts → ∀ now,
      0 ≤ (((Engine.start seed day names).run zone front).state.book now).cashUsd) ↔
      ∀ front act, front ++ [act] <+: acts →
        ∀ entry ∈ ((Engine.start seed day names).run zone front).purchasesOf zone act, Affordable entry := by
  have kept : (Engine.start seed day names).state.Funded ∧ 0 ≤ (Engine.start seed day names).state.cash := by
    have seedKept : seed.Funded ∧ 0 ≤ seed.cash := ⟨seeded.funded, sub_nonneg.mpr unlevered⟩
    unfold Engine.start
    simp only
    split
    · exact seedKept
    · exact ⟨⟨seedKept.1.keyed, seedKept.1.costs⟩, seedKept.2⟩
  rw [← Engine.run_cash_iff kept acts]
  exact ⟨fun all front prefixed => all front prefixed 0, fun all front prefixed _ => all front prefixed⟩

/-- A stop frees less than a slot of the new NAV, and the next buy takes a whole slot. -/
theorem leverage_reentry : fullBook.Seeded ∧ fullBook.openCost ≤ fullBook.navRealized ∧
    ((((Engine.start fullBook friday [⟨"Z", "NYSE", 100⟩]).run eastern reentry).state.book
      (fridayAt 10 0 3)).cashUsd < 0) :=
  ⟨fullBook_seeded, by decide +kernel, by decide +kernel⟩

theorem no_leverage_iff_reentry :
    (∀ front, front <+: reentry → ∀ now, 0 ≤ (((Engine.start fullBook friday
      [⟨"Z", "NYSE", 100⟩]).run eastern front).state.book now).cashUsd) ↔
      ∀ front act, front ++ [act] <+: reentry → ∀ entry ∈ ((Engine.start fullBook friday
        [⟨"Z", "NYSE", 100⟩]).run eastern front).purchasesOf eastern act, Affordable entry :=
  no_leverage_iff eastern fullBook_seeded (by decide +kernel) friday [⟨"Z", "NYSE", 100⟩] reentry

end C3po.Live
