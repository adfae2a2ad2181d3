import C3po.Library.Lots
import C3po.Live.Runs

/-! The money of the book over the life of the service.

`Kept` ties a state to its seed through the fills of its whole history. Every exit and
every entry keeps it, a close and a new session move it to the next ledger, and a stop
goes back to a checkpoint that has it.
-/

set_option autoImplicit false

namespace C3po.Live
open C3po.Library

def Fill.lot (fill : Fill) : Lot String ℚ :=
  match fill.side with
  | .buy => .opened fill.symbol fill.quantity
  | .sell => .closed fill.symbol fill.quantity

/-- The result of every sale. -/
def soldPnl (fills : List Fill) : ℚ :=
  ((fills.filter fun fill => fill.side = .sell).map fun fill => fill.realizedPnlUsd.getD 0).sum

/-- Every purchase is removed by at most one sale, and whole. -/
structure SoldOnce (history : List Fill) : Prop where
  once : ∀ front first middle second back, history = front ++ first :: (middle ++ second :: back) →
    first.side = .sell → second.side = .sell → second.symbol = first.symbol →
      ∃ fill ∈ middle, fill.side = .buy ∧ fill.symbol = first.symbol
  whole : ∀ front bought middle sold back, history = front ++ bought :: (middle ++ sold :: back) →
    bought.side = .buy → sold.side = .sell → sold.symbol = bought.symbol →
      (∀ fill ∈ middle, fill.symbol ≠ bought.symbol) → sold.quantity = bought.quantity

def EngineState.held (state : EngineState) (symbol : String) : Option ℚ :=
  (state.positions.get? symbol).map Position.shares

section Held
variable {engine : Engine} {position : Position}

theorem held_mark (held : engine.state.positions.get? position.symbol = some position) (bid : ℚ)
    (moment : Int) : (engine.mark (position.marked bid) moment).state.held = engine.state.held := by
  funext symbol
  unfold EngineState.held
  simp only [Engine.mark, Dict.get?_insert]
  split
  · rename_i same
    rw [same, show (position.marked bid).symbol = position.symbol from rfl, held]
    rfl
  · rfl

theorem held_sell (held : engine.state.positions.get? position.symbol = some position) (bid net : ℚ)
    (reason : ExitReason) (moment : Int) :
    (Lot.closed position.symbol position.shares).apply engine.state.held =
      some (engine.sell position bid net reason moment).state.held := by
  have lot : engine.state.held position.symbol = some position.shares := by
    unfold EngineState.held
    rw [held]
    rfl
  simp only [Lot.apply, lot, if_true]
  congr 1
  funext symbol
  unfold EngineState.held
  simp only [Engine.sell, Dict.get?_erase, Function.update_apply]
  split <;> rfl

theorem held_buy {cross : Engine.Cross} (unheld : engine.state.positions.get? cross.symbol = none)
    (purchase : Engine.Purchase) :
    (Lot.opened cross.symbol (engine.state.navRealized / rule.slots *
      sizeWeight purchase.quote.spreadBps / (purchase.quote.ask * (1 + feeSide)))).apply engine.state.held =
      some (engine.buy cross purchase).state.held := by
  have free : engine.state.held cross.symbol = none := by
    unfold EngineState.held
    rw [unheld]
    rfl
  simp only [Lot.apply, free, if_true]
  congr 1
  funext symbol
  unfold EngineState.held
  simp only [Engine.buy, Dict.get?_insert, Function.update_apply]
  split <;> rfl

end Held

/-- A state and the fills it came from. -/
structure Kept (seed : EngineState) (ledger : Ledger) (state : EngineState) : Prop where
  keyed : state.Keyed
  valued : ∀ symbol position, state.positions.get? symbol = some position →
    (position.costUsd = 0 → position.shares = 0) ∧ ∃ mark, position.lastMark = some mark ∧ 0 < mark
  realized : state.navRealized = seed.navRealized + soldPnl (ledger.past ++ state.fills)
  replayed : Lot.replay seed.held ((ledger.past ++ state.fills).map Fill.lot) = some state.held
  opening : state.session ≠ none → state.navStart = some ledger.closing
  closing : state.session = none → ledger.closing = state.nav

section Histories

theorem Fill.lot_name (fill : Fill) : fill.lot.name = fill.symbol := by
  unfold Fill.lot
  cases fill.side <;> rfl

theorem soldOnce_of_replay {held final : String → Option ℚ} {history : List Fill}
    (replayed : Lot.replay held (history.map Fill.lot) = some final) : SoldOnce history := by
  constructor
  · rintro front first middle second back rfl firstSold secondSold same
    have firstLot : first.lot = .closed first.symbol first.quantity := by simp [Fill.lot, firstSold]
    have secondLot : second.lot = .closed first.symbol second.quantity := by simp [Fill.lot, secondSold, same]
    simp only [List.map_append, List.map_cons, firstLot, secondLot] at replayed
    obtain ⟨quantity, member⟩ := Lot.closed_once replayed
    obtain ⟨fill, fillIn, opened⟩ := List.mem_map.mp member
    refine ⟨fill, fillIn, ?_⟩
    cases side : fill.side with
    | buy =>
      simp only [Fill.lot, side, Lot.opened.injEq] at opened
      exact ⟨rfl, opened.1⟩
    | sell => simp [Fill.lot, side] at opened
  · rintro front bought middle sold back rfl isBought isSold same untouched
    have boughtLot : bought.lot = .opened bought.symbol bought.quantity := by simp [Fill.lot, isBought]
    have soldLot : sold.lot = .closed bought.symbol sold.quantity := by simp [Fill.lot, isSold, same]
    simp only [List.map_append, List.map_cons, boughtLot, soldLot] at replayed
    refine Lot.closed_whole replayed fun lot member => ?_
    obtain ⟨fill, fillIn, rfl⟩ := List.mem_map.mp member
    rw [Fill.lot_name]
    exact untouched fill fillIn

theorem replay_fill {held middle final : String → Option ℚ} {past fills : List Fill} {fill : Fill}
    (before : Lot.replay held ((past ++ fills).map Fill.lot) = some middle)
    (next : fill.lot.apply middle = some final) :
    Lot.replay held ((past ++ (fills ++ [fill])).map Fill.lot) = some final := by
  rw [← List.append_assoc, List.map_append]
  exact Lot.replay_snoc before next

theorem soldPnl_append (front back : List Fill) : soldPnl (front ++ back) = soldPnl front + soldPnl back := by
  unfold soldPnl
  rw [List.filter_append, List.map_append, List.sum_append]

end Histories

section Values

theorem EngineState.nav_eq (state : EngineState) :
    state.nav = state.navRealized + state.unrealized fun position => some position.priceShown := by
  unfold EngineState.nav EngineState.book EngineState.unrealized Dict.total
  simp only [List.map_map]
  congr 2
  refine List.map_congr_left fun entry _ => ?_
  simp only [Function.comp_apply, Position.shown, Option.map_some, Option.getD_some]
  ring

theorem Kept.opened_nav {seed state : EngineState} {ledger : Ledger} (kept : Kept seed ledger state) :
    state.navRealized + state.unrealized (fun position => position.lastMark.filter (· ≠ 0)) = state.nav := by
  rw [EngineState.nav_eq]
  unfold EngineState.unrealized Dict.total
  congr 2
  refine List.map_congr_left fun entry member => ?_
  obtain ⟨_, mark, marked, positive⟩ := kept.valued entry.1 entry.2 (Dict.mem_entries.mp member)
  have shown : entry.2.lastMark.filter (· ≠ 0) = some mark := by
    rw [marked]
    simp [positive.ne']
  have price : entry.2.priceShown = mark := by
    unfold Position.priceShown
    rw [shown]
    rfl
  simp only [shown, price]

end Values

section Sessions
variable {zone : Zone} {seed state : EngineState} {ledger : Ledger} {engine : Engine}

theorem Kept.frame {after : EngineState} (kept : Kept seed ledger state) (same : SameBook state after)
    (session : state.session ≠ none) : Kept seed ledger after := by
  refine ⟨fun symbol position held => kept.keyed symbol position (same.positions ▸ held),
    fun symbol position held => kept.valued symbol position (same.positions ▸ held), ?_, ?_,
    fun _ => ?_, fun closed => ?_⟩
  · rw [same.navRealized, same.fills]
    exact kept.realized
  · rw [same.fills, kept.replayed]
    unfold EngineState.held
    rw [same.positions]
  · rw [same.navStart]
    exact kept.opening session
  · rw [same.session] at closed
    exact absurd closed session

theorem Kept.mark (kept : Kept seed ledger engine.state) {position : Position} {bid : ℚ}
    (held : engine.state.positions.get? position.symbol = some position) (positive : 0 < bid) (moment : Int)
    (session : engine.state.session ≠ none) :
    Kept seed ledger (engine.mark (position.marked bid) moment).state := by
  refine ⟨Engine.keyed_mark kept.keyed _ moment, fun symbol other found => ?_, kept.realized, ?_,
    kept.opening, fun closed => absurd closed session⟩
  · rcases Engine.mark_held found with ⟨rfl, rfl⟩ | old
    · have own := (kept.valued position.symbol position held).1
      exact ⟨own, bid, rfl, positive⟩
    · exact kept.valued symbol other old
  · rw [held_mark held]
    exact kept.replayed

theorem Kept.sell (kept : Kept seed ledger engine.state) {position : Position}
    (held : engine.state.positions.get? position.symbol = some position) (bid net : ℚ) (reason : ExitReason)
    (moment : Int) (session : engine.state.session ≠ none) :
    Kept seed ledger (engine.sell position bid net reason moment).state := by
  refine ⟨Engine.keyed_sell kept.keyed _ _ _ _ _, fun symbol other found =>
    kept.valued symbol other (Engine.sell_held found).2, ?_, ?_, kept.opening,
    fun closed => absurd closed session⟩
  · simp only [Engine.sell, ← List.append_assoc, soldPnl_append _ [_]]
    rw [kept.realized]
    simp only [soldPnl, List.filter_cons, List.filter_nil, decide_true, if_true, List.map_cons, List.map_nil,
      Option.getD_some, List.sum_cons, List.sum_nil]
    ring
  · exact replay_fill kept.replayed (held_sell held bid net reason moment)

theorem Kept.buy (kept : Kept seed ledger engine.state) {cross : Engine.Cross} {purchase : Engine.Purchase}
    (unheld : engine.state.positions.get? cross.symbol = none) (positive : 0 < purchase.quote.bid)
    (session : engine.state.session ≠ none) : Kept seed ledger (engine.buy cross purchase).state := by
  refine ⟨Engine.keyed_buy kept.keyed _ _, fun symbol other found => ?_, ?_, ?_, kept.opening,
    fun closed => absurd closed session⟩
  · simp only [Engine.buy, Dict.get?_insert] at found
    split at found
    · cases found
      refine ⟨fun free => ?_, purchase.quote.bid, rfl, positive⟩
      simp only at free ⊢
      rw [free, zero_div]
    · exact kept.valued symbol other found
  · simp only [Engine.buy, ← List.append_assoc, soldPnl_append _ [_]]
    rw [kept.realized]
    simp [soldPnl]
  · exact replay_fill kept.replayed (held_buy unheld purchase)

theorem kept_steady (seed : EngineState) (ledger : Ledger) :
    Engine.Steady fun engine => Kept seed ledger engine.state ∧ engine.state.session ≠ none where
  keyed kept := kept.1.keyed
  frame frame kept := ⟨kept.1.frame frame.toSameBook kept.2, frame.session ▸ kept.2⟩
  mark kept held positive moment := ⟨kept.1.mark held positive moment kept.2, kept.2⟩
  sell kept held _ reason moment := ⟨kept.1.sell held _ _ reason moment kept.2, kept.2⟩

theorem Kept.act {act : Act} (during : act.During) (kept : Kept seed ledger engine.state)
    (session : engine.state.session ≠ none) :
    Kept seed ledger (engine.act zone act).state ∧ (engine.act zone act).state.session ≠ none := by
  have selected : ∀ {after : Engine}, Selected engine after →
      Kept seed ledger after.state ∧ after.state.session ≠ none := by
    intro after same
    have held : after.state.held = engine.state.held := by
      unfold EngineState.held
      rw [same.positions]
    refine ⟨⟨fun symbol position held => kept.keyed symbol position (same.positions ▸ held),
      fun symbol position held => kept.valued symbol position (same.positions ▸ held), ?_, ?_,
      fun _ => ?_, fun closed => ?_⟩, same.session ▸ session⟩
    · rw [same.navRealized, same.fills]
      exact kept.realized
    · rw [same.fills, held]
      exact kept.replayed
    · rw [same.navStart]
      exact kept.opening session
    · rw [same.session] at closed
      exact absurd closed session
  cases act with
  | start day names => exact during.elim
  | close => exact during.elim
  | candidates opening => exact selected (setCandidates_selected engine opening)
  | adopt tapes => exact selected (adoptOpening_selected zone engine tapes)
  | step input =>
    exact (kept_steady seed ledger).step input
      (fun entry _ now unheld positive _ => ⟨now.1.buy unheld positive now.2, now.2⟩) ⟨kept, session⟩
  | fast pass => exact (kept_steady seed ledger).fastExits pass ⟨kept, session⟩

theorem Kept.older {after : EngineState} (kept : Kept seed ledger state)
    (positions : after.positions = state.positions.mapValues Position.older)
    (navRealized : after.navRealized = state.navRealized) (fills : after.fills = state.fills)
    (closed : after.session = none) : Kept seed { ledger with closing := after.nav } after := by
  have found : ∀ symbol position, after.positions.get? symbol = some position →
      ∃ young, state.positions.get? symbol = some young ∧ position = young.older := by
    intro symbol position held
    rw [positions, Dict.get?_mapValues] at held
    obtain ⟨young, was, same⟩ := Option.map_eq_some_iff.mp held
    exact ⟨young, was, same.symm⟩
  refine ⟨keyed_older kept.keyed positions, fun symbol position held => ?_, ?_, ?_,
    fun open_ => absurd closed open_, fun _ => rfl⟩
  · obtain ⟨young, was, rfl⟩ := found symbol position held
    exact kept.valued symbol young was
  · rw [navRealized, fills]
    exact kept.realized
  · rw [fills, kept.replayed]
    congr 1
    funext symbol
    unfold EngineState.held
    rw [positions, Dict.get?_mapValues, Option.map_map]
    rfl

theorem Kept.closeSession (kept : Kept seed ledger engine.state) :
    Kept seed { ledger with closing := (engine.closeSession zone).state.nav } (engine.closeSession zone).state := by
  have closed := closeSession_closed zone engine
  exact kept.older closed.positions closed.navRealized closed.fills closed.session

theorem Kept.openSession (kept : Kept seed ledger state) (closed : state.session = none) (day : Int) :
    Kept seed { ledger with past := ledger.past ++ state.fills } (state.openSession day) := by
  refine ⟨kept.keyed, kept.valued, ?_, ?_, fun _ => ?_, fun never => by cases never⟩
  · simp only [EngineState.openSession, List.append_nil]
    exact kept.realized
  · simp only [EngineState.openSession, List.append_nil]
    exact kept.replayed
  · rw [kept.closing closed, ← kept.opened_nav]
    rfl

theorem Kept.config (kept : Kept seed ledger state) (config : String) :
    Kept seed ledger { state with config := config } := by
  have nav : ({ state with config := config } : EngineState).nav = state.nav := by
    rw [EngineState.nav_eq, EngineState.nav_eq]
    rfl
  exact ⟨kept.keyed, kept.valued, kept.realized, kept.replayed, kept.opening,
    fun closed => nav ▸ kept.closing closed⟩

end Sessions

section Lives
variable {zone : Zone} {seed : EngineState} {documents : Dict Int Document} {service : Service}

/-- What a checkpoint and the process that runs have of the seed's money. -/
structure Conserved (seed : EngineState) (service : Service) : Prop where
  recorded : Kept seed service.recorded (service.disk.load seed)
  running : ∀ engine ledger, service.running = some (engine, ledger) → Kept seed ledger engine.state

theorem Kept.saved {state : EngineState} {ledger : Ledger} (kept : Kept seed ledger state) :
    Kept seed ledger (loadState (saveState state)) := by
  rw [loadState_saveState kept.keyed]
  exact kept.config _

/-- The state that a part of a reconciliation leaves: the checkpoint it found, or its close. -/
theorem load_writes (service : Service) (day now : Int) (writes : ℕ)
    {disk : Disk} (after : disk = (((service.disk.reconciled zone seed day now).writes.take writes).foldl
      Disk.write service.disk)) :
    disk.saved = service.disk.saved ∨ ∃ prior, (service.disk.load seed).session = some prior ∧ prior ≠ day ∧
      disk.saved = some (saveState ((service.disk.load seed).closedOn zone prior)) := by
  subst after
  unfold Disk.reconciled
  rcases @reconcile_cases zone service.disk.documents (service.disk.load seed) day now with
    ⟨_, none_, _⟩ | ⟨prior, posts, _, apart, _, whole, _⟩
  · rw [none_, List.take_nil]
    exact .inl rfl
  · rw [whole]
    unfold savesOn
    split
    · rename_i unclosed
      cases writes with
      | zero => exact .inl rfl
      | succ writes =>
        refine .inr ⟨prior, unclosed, apart, ?_⟩
        rw [List.cons_append, List.nil_append, List.take_succ_cons, List.foldl_cons, ← List.map_take]
        exact load_posts ..
    · rw [List.nil_append, ← List.map_take]
      exact .inl (load_posts ..)

theorem Kept.closedBy {state after : EngineState} {ledger : Ledger} (kept : Kept seed ledger state)
    {prior : Int} (unclosed : state.session = some prior)
    (positions : after.positions = state.positions.mapValues Position.older)
    (navRealized : after.navRealized = state.navRealized) (fills : after.fills = state.fills)
    (closed : after.session = none) : Kept seed (Service.Ledger.closedBy ledger state after) after := by
  unfold Service.Ledger.closedBy
  rw [if_pos ⟨by simp [unclosed], closed⟩]
  exact kept.older positions navRealized fills closed

theorem closedBy_same (ledger : Ledger) (state : EngineState) :
    Service.Ledger.closedBy ledger state state = ledger :=
  if_neg fun both => both.1 both.2

theorem Kept.reconciled (kept : Kept seed service.recorded (service.disk.load seed)) (day now : Int) :
    Kept seed (Service.Ledger.closedBy service.recorded (service.disk.load seed)
        (service.disk.reconciled zone seed day now).state) (service.disk.reconciled zone seed day now).state ∧
      ((service.disk.reconciled zone seed day now).state.session = none ∨
        (service.disk.reconciled zone seed day now).state.session = some day) := by
  unfold Disk.reconciled
  rcases @reconcile_cases zone service.disk.documents (service.disk.load seed) day now with
    ⟨same, _, sessions⟩ | ⟨prior, _, previous, _, closed, _, _⟩
  · rw [same, closedBy_same]
    exact ⟨kept, sessions⟩
  · rw [closed]
    rcases prior_session previous with unclosed | ⟨none_, _⟩
    · obtain ⟨positions, navRealized, fills, _, session, _⟩ := @closedOn_open zone _ _ unclosed
      exact ⟨kept.closedBy unclosed positions navRealized fills session, .inl session⟩
    · rw [closedOn_closed (by simp [none_]), closedBy_same]
      exact ⟨kept, .inl none_⟩

theorem Conserved.stopped (conserved : Conserved seed service) (day now : Int) (writes : ℕ) :
    Conserved seed (service.stopped zone seed day now writes) := by
  refine ⟨?_, fun engine ledger never => nomatch never⟩
  have kept := conserved.recorded
  unfold Service.stopped
  simp only
  rcases @load_writes zone seed service day now writes _ rfl with same | ⟨prior, unclosed, _, saved⟩
  · have load : Disk.load ((((service.disk.reconciled zone seed day now).writes.take writes).foldl Disk.write
        service.disk)) seed = service.disk.load seed := by
      unfold Disk.load
      rw [same]
    rw [load, closedBy_same]
    exact kept
  · obtain ⟨positions, navRealized, fills, _, session, _⟩ := @closedOn_open zone _ _ unclosed
    have keyed : ((service.disk.load seed).closedOn zone prior).Keyed :=
      (kept.older positions navRealized fills session).keyed
    have load : Disk.load ((((service.disk.reconciled zone seed day now).writes.take writes).foldl Disk.write
        service.disk)) seed = { (service.disk.load seed).closedOn zone prior with
          config := labelOr ((service.disk.load seed).closedOn zone prior).config } := by
      unfold Disk.load
      rw [saved]
      exact loadState_saveState keyed
    rw [load]
    exact kept.closedBy unclosed positions navRealized fills session

theorem load_reconciled (service : Service) (day now : Int) :
    (((service.disk.reconciled zone seed day now).writes.foldl Disk.write service.disk).load seed =
        (service.disk.reconciled zone seed day now).state) ∨
      ((service.disk.reconciled zone seed day now).writes.foldl Disk.write service.disk).load seed =
        loadState (saveState (service.disk.reconciled zone seed day now).state) := by
  unfold Disk.reconciled
  rcases @reconcile_cases zone service.disk.documents (service.disk.load seed) day now with
    ⟨same, none_, _⟩ | ⟨prior, posts, _, _, closed, whole, _⟩
  · rw [none_, same]
    exact .inl rfl
  · rw [whole, closed]
    unfold savesOn Disk.load
    split
    · refine .inr ?_
      rw [List.cons_append, List.nil_append, List.foldl_cons, load_posts]
      rfl
    · rename_i open_
      refine .inl ?_
      rw [List.nil_append, load_posts, closedOn_closed open_]

theorem Conserved.booted (conserved : Conserved seed service) (day now : Int) (names : List Member) :
    Conserved seed (service.booted zone seed day now names) := by
  obtain ⟨kept, sessions⟩ := @Kept.reconciled zone seed service conserved.recorded day now
  constructor
  · rcases @load_reconciled zone seed service day now with load | load
    · exact load.symm ▸ kept
    · exact load.symm ▸ kept.saved
  · rintro engine ledger running
    unfold Service.booted at running
    simp only [Option.some.injEq, Prod.mk.injEq] at running
    obtain ⟨rfl, rfl⟩ := running
    unfold Engine.start
    simp only
    split
    · exact kept
    · rename_i apart
      exact kept.openSession (sessions.resolve_right apart) day

theorem published_same (service : Service) (engine : Engine) (now : Int) :
    (service.published zone engine now).disk.saved = service.disk.saved ∧
      (service.published zone engine now).recorded = service.recorded ∧
        (service.published zone engine now).running = service.running := by
  unfold Service.published
  split
  · exact ⟨rfl, rfl, rfl⟩
  · exact ⟨rfl, rfl, rfl⟩

theorem Conserved.saved (conserved : Conserved seed service) {engine : Engine} {ledger : Ledger}
    (running : service.running = some (engine, ledger)) : Conserved seed (service.saved engine ledger) :=
  ⟨(conserved.running engine ledger running).saved, conserved.running⟩

theorem Service.Reached.conserved (seeded : seed.Seeded) (fresh : seed.session = none ∧ seed.fills = [])
    (reached : Service.Reached zone seed documents service) : Conserved seed service := by
  induction reached with
  | installed =>
    refine ⟨⟨seeded.keyed, fun symbol position held => ?_, ?_, ?_, fun open_ => absurd fresh.1 open_,
      fun _ => rfl⟩, fun engine ledger never => nomatch never⟩
    · obtain ⟨cost, _, marked⟩ := seeded.bought symbol position held
      exact ⟨fun free => absurd free cost.ne', marked⟩
    · simp [Disk.load, fresh.2, soldPnl]
    · simp [Disk.load, fresh.2, Lot.replay]
  | stopped day now writes _ _ ih => exact ih.stopped day now writes
  | booted day now names _ _ ih => exact ih.booted day now names
  | @ran service engine ledger act _ running session during ih =>
    refine ⟨ih.recorded, fun next after same => ?_⟩
    cases same
    exact ((ih.running engine ledger running).act during session).1
  | @closed service engine ledger _ running session ih =>
    refine ⟨ih.recorded, fun next after same => ?_⟩
    cases same
    exact (ih.running engine ledger running).closeSession
  | saved _ running ih => exact ih.saved running
  | @committed service engine ledger now _ running ih =>
    have saved := ih.saved running
    obtain ⟨disk, recorded, same⟩ := @published_same zone (service.saved engine ledger) engine now
    refine ⟨?_, ?_⟩
    · unfold Disk.load
      rw [disk, recorded]
      exact saved.recorded
    · rw [same]
      exact saved.running

end Lives

/-- Over any life of the service its book conserves money: what is realized is the seed's and every
sale's result, every purchase is sold at most once and whole, the NAV is the cash and the
positions at their marks, and a session opened at the NAV of the close before it. -/
theorem book_conserved (zone : Zone) {seed : EngineState} (seeded : seed.Seeded)
    (fresh : seed.session = none ∧ seed.fills = []) {documents : Dict Int Document} {service : Service}
    (reached : Service.Reached zone seed documents service) {engine : Engine} {ledger : Ledger}
    (running : service.running = some (engine, ledger)) :
    engine.state.navRealized = seed.navRealized + soldPnl (ledger.past ++ engine.state.fills) ∧
      (SoldOnce (ledger.past ++ engine.state.fills) ∧
        Lot.replay seed.held ((ledger.past ++ engine.state.fills).map Fill.lot) = some engine.state.held) ∧
      (∀ now, (engine.state.book now).navUsd = (engine.state.book now).cashUsd +
        ((engine.state.book now).positions.map fun position =>
          position.quantity * position.lastPrice * (1 - feeSide)).sum) ∧
      (engine.state.session ≠ none → engine.state.navStart = some ledger.closing) := by
  have kept := (reached.conserved seeded fresh).running engine ledger running
  exact ⟨kept.realized, ⟨soldOnce_of_replay kept.replayed, kept.replayed⟩,
    EngineState.book_nav fun symbol position held => (kept.valued symbol position held).1, kept.opening⟩

/-- A fully invested book opens a session and sells a position by its stop. -/
theorem book_conserved_fullBook : ∃ service engine ledger,
    Service.Reached eastern fullBook Dict.empty service ∧ service.running = some (engine, ledger) ∧
      engine.state.navRealized = fullBook.navRealized + soldPnl (ledger.past ++ engine.state.fills) ∧
      (SoldOnce (ledger.past ++ engine.state.fills) ∧
        Lot.replay fullBook.held ((ledger.past ++ engine.state.fills).map Fill.lot) =
          some engine.state.held) ∧
      (∀ now, (engine.state.book now).navUsd = (engine.state.book now).cashUsd +
        ((engine.state.book now).positions.map fun position =>
          position.quantity * position.lastPrice * (1 - feeSide)).sum) ∧
      (engine.state.session ≠ none → engine.state.navStart = some ledger.closing) := by
  have due : Due fullBook friday := .inr fun prior previous => by
    cases previous
    decide
  have opened := Service.Reached.booted friday (fridayAt 9 0 0) [⟨"Z", "NYSE", 100⟩]
    (@Service.Reached.installed eastern fullBook Dict.empty) due
  have sold := Service.Reached.ran (.fast ⟨fridayAt 10 0 0, fun symbol =>
      { quote := quoteOnly "A" ⟨499 / 10, 4991 / 100, fridayAt 10 0 0⟩ symbol }⟩) opened rfl
    (by decide +kernel) trivial
  exact ⟨_, _, _, sold, rfl, book_conserved eastern fullBook_seeded ⟨rfl, rfl⟩ sold rfl⟩

end C3po.Live
