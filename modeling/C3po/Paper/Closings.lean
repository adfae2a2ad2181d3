import C3po.Paper.Ledgers

/-! The trades both stores accept are ledgers, so their summaries list their closed positions. -/

set_option autoImplicit false

namespace C3po.Paper
open C3po.Library

/-- What an accepted trade does to a store. -/
inductive Accepted (rows : Rows) (request : Request) (next : Rows) : Prop where
  | bought {holding : Holding} (side : request.order.side = "BUY")
      (positions : next.positions = rows.positions.insert request.order.key holding)
      (quantity : holding.quantity =
        ((rows.positions.get? request.order.key).map fun held => held.quantity).getD 0 + request.order.quantity)
      (trades : next.trades = rows.trades ++ [filled request rows.trades.length none])
  | sold {current : Holding} {realized : ℚ} (side : request.order.side ≠ "BUY")
      (held : rows.positions.get? request.order.key = some current) (covered : request.order.quantity ≤ current.quantity + dust)
      (left : (next.positions.get? request.order.key).map (fun holding => holding.quantity) =
        if current.quantity - request.order.quantity ≤ dust then none else some (current.quantity - request.order.quantity))
      (others : ∀ key, key ≠ request.order.key → next.positions.get? key = rows.positions.get? key)
      (trades : next.trades = rows.trades ++ [filled request rows.trades.length (some realized)])

section Stores
variable {rows next : Rows} {request : Request}

theorem boughtPosition_quantity {order : Order} {current : Option Holding} {position : Position}
    (made : boughtPosition order (current.map Holding.toPosition) = .ok position) :
    position.quantity = (current.map fun held => held.quantity).getD 0 + order.quantity := by
  unfold boughtPosition at made
  dsimp only at made
  split at made
  · cases made
  · cases made
    cases current <;> rfl

theorem memory_closeTrade {cash : ℚ} {realized : Option ℚ} {answer : Answer}
    (ok : Memory.closeTrade request cash realized rows = (.ok answer, next)) : next.positions = rows.positions ∧
      next.trades = rows.trades ++ [filled request rows.trades.length realized] := by
  unfold Memory.closeTrade at ok
  rw [Transaction.read_bind] at ok
  obtain ⟨_, _, written, rest⟩ := Transaction.bind_ok ok
  cases written
  obtain ⟨_, _, silent, rest⟩ := Transaction.bind_ok rest
  cases hooked_ok silent
  cases rest
  exact ⟨rfl, rfl⟩

theorem sql_accepted {answer : Answer} (ok : Sql.executeTrade request rows = (.ok answer, next)) :
    Accepted rows request next ∧ (request.order.side = "BUY" ∨ request.order.side = "SELL") ∧ 0 < request.order.quantity := by
  unfold Sql.executeTrade at ok
  dsimp only at ok
  rw [Transaction.read_bind] at ok
  obtain ⟨_, _, silent, rest⟩ := Transaction.bind_ok ok
  cases hooked_ok silent
  rw [Transaction.ite_apply] at rest
  have sided : ∀ realized, (filled request rows.trades.length realized).toTrade.checked = true →
      (request.order.side = "BUY" ∨ request.order.side = "SELL") ∧ 0 < request.order.quantity := by
    intro realized checks
    simp only [Trade.checked, filled, recordedTrade, Bool.and_eq_true] at checks
    refine ⟨?_, of_decide_eq_true checks.1.1.1.1.1.1.2⟩
    simpa using checks.1.1.1.1.1.1.1.2
  split at rest
  · rename_i side
    obtain ⟨_, _, affords, rest⟩ := Transaction.bind_ok rest
    obtain ⟨-, rfl⟩ := demand_ok affords
    obtain ⟨position, _, made, rest⟩ := Transaction.bind_ok rest
    obtain ⟨made, rfl⟩ := Transaction.check_ok made
    obtain ⟨_, _, put, rest⟩ := Transaction.bind_ok rest
    cases putHolding_ok put
    obtain ⟨positions, trades, checks⟩ := sql_closeTrade rest
    refine ⟨.bought side positions ?_ trades, sided none checks⟩
    rw [bought_checked]
    exact boughtPosition_quantity made
  · rename_i side
    cases held : rows.positions.get? request.order.key with
    | none =>
      rw [held] at rest
      cases rest
    | some current =>
      rw [held] at rest
      dsimp only at rest
      obtain ⟨_, _, covered, rest⟩ := Transaction.bind_ok rest
      obtain ⟨enough, rfl⟩ := demand_ok covered
      rw [Transaction.ite_apply] at rest
      split at rest
      · rename_i gone
        obtain ⟨_, _, moved, rest⟩ := Transaction.bind_ok rest
        unfold Sql.deleteHolding at moved
        rw [Transaction.read_bind] at moved
        cases moved
        obtain ⟨positions, trades, checks⟩ := sql_closeTrade rest
        refine ⟨.sold side held (of_decide_eq_true enough) ?_ ?_ trades, sided _ checks⟩
        · rw [positions, Dict.get?_erase, if_pos rfl, if_pos gone]
          rfl
        · intro key apart
          rw [positions, Dict.get?_erase, if_neg apart]
      · rename_i stays
        obtain ⟨_, _, put, rest⟩ := Transaction.bind_ok rest
        cases putHolding_ok put
        obtain ⟨positions, trades, checks⟩ := sql_closeTrade rest
        refine ⟨.sold side held (of_decide_eq_true enough) ?_ ?_ trades, sided _ checks⟩
        · rw [positions, Dict.get?_insert, if_pos rfl, if_neg stays]
          rfl
        · intro key apart
          rw [positions, Dict.get?_insert, if_neg apart]

theorem put_ok {key : String × String} {holding : Holding} (ok : Memory.put key holding rows = (.ok (), next)) :
    next = { rows with positions := rows.positions.insert key holding } := by
  cases ok
  rfl

theorem drop_ok {key : String × String} (ok : Memory.drop key rows = (.ok (), next)) :
    next = { rows with positions := rows.positions.erase key } := by
  cases ok
  rfl

theorem memory_accepted {answer : Answer} (ok : Memory.executeTrade request rows = (.ok answer, next)) :
    Accepted rows request next := by
  unfold Memory.executeTrade at ok
  dsimp only at ok
  obtain ⟨_, _, silent, rest⟩ := Transaction.bind_ok ok
  cases hooked_ok silent
  rw [Transaction.read_bind, Transaction.ite_apply] at rest
  split at rest
  · rename_i side
    obtain ⟨_, _, affords, buys⟩ := Transaction.bind_ok rest
    cases (demand_ok affords).2
    obtain ⟨position, _, checks, puts⟩ := Transaction.bind_ok buys
    obtain ⟨made, same⟩ := Transaction.check_ok checks
    cases same
    obtain ⟨_, _, put, closes⟩ := Transaction.bind_ok puts
    cases put_ok put
    obtain ⟨positions, trades⟩ := memory_closeTrade closes
    have quantity := boughtPosition_quantity made
    exact .bought side positions quantity trades
  · rename_i side
    cases held : rows.positions.get? request.order.key with
    | none =>
      rw [held] at rest
      cases rest
    | some current =>
      rw [held] at rest
      dsimp only at rest
      obtain ⟨_, _, covered, sells⟩ := Transaction.bind_ok rest
      obtain ⟨enough, same⟩ := demand_ok covered
      cases same
      rw [Transaction.ite_apply] at sells
      split at sells
      · rename_i gone
        obtain ⟨_, _, moved, closes⟩ := Transaction.bind_ok sells
        cases drop_ok moved
        obtain ⟨positions, trades⟩ := memory_closeTrade closes
        refine .sold side held (of_decide_eq_true enough) ?_ ?_ trades
        · rw [positions, Dict.get?_erase, if_pos rfl, if_pos gone]
          rfl
        · intro key apart
          rw [positions, Dict.get?_erase, if_neg apart]
      · rename_i stays
        obtain ⟨_, _, put, closes⟩ := Transaction.bind_ok sells
        cases put_ok put
        obtain ⟨positions, trades⟩ := memory_closeTrade closes
        refine .sold side held (of_decide_eq_true enough) ?_ ?_ trades
        · rw [positions, Dict.get?_insert, if_pos rfl, if_neg stays]
          rfl
        · intro key apart
          rw [positions, Dict.get?_insert, if_neg apart]

end Stores

/-- The trades a store accepts one after the other, each with what it holds of the symbol then;
nothing when it raises on one. -/
def Store.accept (store : Store) : List Request → Rows → Option (Rows × List Entry)
  | [], rows => some (rows, [])
  | request :: rest, rows =>
    match store.call (.trade request) rows with
    | (.error _, _) => none
    | (.ok _, next) =>
      next.trades.getLast?.bind fun fill =>
        (store.accept rest next).map fun run =>
          (run.1, ⟨fill, (next.positions.get? fill.key).map fun holding => holding.quantity⟩ :: run.2)

section Runs
variable {store : Store} {rows final : Rows} {requests : List Request} {past entries : List Entry}

/-- The trades of a store are a ledger of what it holds. -/
structure Mirrors (rows : Rows) (entries : List Entry) : Prop where
  trades : rows.trades = entries.map Entry.fill
  holdings : ∀ key, (rows.positions.get? key).map (fun holding => holding.quantity) = heldAfter key entries
  ledgered : Ledgered entries

/-- What a recorded trade has of its request. -/
def Fill.terms (fill : Fill) : Int × Bool × Bool × ℚ := (fill.executedAt, fill.corrected, fill.windDown, fill.quantity)

def Request.terms (request : Request) : Int × Bool × Bool × ℚ :=
  (request.order.clock, request.order.corrected, request.windDown, request.order.quantity)

theorem Mirrors.snoc (mirrors : Mirrors rows past) {next : Rows} {fill : Fill} (trades : next.trades = rows.trades ++ [fill])
    (others : ∀ key, key ≠ fill.key → (next.positions.get? key).map (fun holding => holding.quantity) =
      (rows.positions.get? key).map fun holding => holding.quantity)
    (booked : Booked ((rows.positions.get? fill.key).map fun holding => holding.quantity)
      ⟨fill, (next.positions.get? fill.key).map fun holding => holding.quantity⟩) :
    Mirrors next (past ++ [⟨fill, (next.positions.get? fill.key).map fun holding => holding.quantity⟩]) := by
  constructor
  · rw [trades, mirrors.trades, List.map_append]
    rfl
  · intro key
    rw [heldAfter_snoc]
    split
    · rename_i own
      rw [← own]
      rfl
    · rename_i apart
      rw [← mirrors.holdings key]
      exact others key (Ne.symm apart)
  · refine .snoc mirrors.ledgered ?_
    rw [mirrors.holdings] at booked
    exact booked

theorem Mirrors.accepts (mirrors : Mirrors rows past) {request : Request} {next : Rows} (accepted : Accepted rows request next)
    (sided : request.order.side = "BUY" ∨ request.order.side = "SELL") : ∃ fill, next.trades.getLast? = some fill ∧
      fill.terms = request.terms ∧
        Mirrors next (past ++ [⟨fill, (next.positions.get? fill.key).map fun holding => holding.quantity⟩]) := by
  cases accepted with
  | @bought holding side positions quantity trades =>
    refine ⟨filled request rows.trades.length none, ?_, rfl, mirrors.snoc trades ?_ ?_⟩
    · rw [trades, List.getLast?_concat]
    · intro key apart
      have apart : key ≠ request.order.key := apart
      rw [positions, Dict.get?_insert, if_neg apart]
    · refine .bought side ?_
      change (next.positions.get? request.order.key).map _ = _
      rw [positions, Dict.get?_insert, if_pos rfl]
      exact congrArg some quantity
  | @sold current realized side held covered left others trades =>
    refine ⟨filled request rows.trades.length (some realized), ?_, rfl, mirrors.snoc trades ?_ ?_⟩
    · rw [trades, List.getLast?_concat]
    · intro key apart
      rw [others key apart]
    · exact .sold (sided.resolve_left side) (congrArg (Option.map fun holding : Holding => holding.quantity) held) covered left

theorem call_accepted {request : Request} {answer : Answer} {next : Rows} (ran : store.call (.trade request) rows = (.ok answer, next))
    (sided : store = .dictionaries → request.order.side = "BUY" ∨ request.order.side = "SELL") :
    Accepted rows request next ∧ (request.order.side = "BUY" ∨ request.order.side = "SELL") ∧
      (store = .tables → 0 < request.order.quantity) := by
  cases store with
  | tables =>
    obtain ⟨accepted, side, positive⟩ := sql_accepted (Transaction.commit_ok ran)
    exact ⟨accepted, side, fun _ => positive⟩
  | dictionaries => exact ⟨memory_accepted ran, sided rfl, fun never => nomatch never⟩

theorem Mirrors.accept (mirrors : Mirrors rows past) (ran : store.accept requests rows = some (final, entries))
    (sided : store = .dictionaries → ∀ request ∈ requests, request.order.side = "BUY" ∨ request.order.side = "SELL") :
    Mirrors final (past ++ entries) ∧ (entries.map fun entry => entry.fill.terms) = requests.map Request.terms ∧
      (store = .tables → ∀ request ∈ requests, 0 < request.order.quantity) := by
  induction requests generalizing rows past entries with
  | nil =>
    cases ran
    exact ⟨(List.append_nil past).symm ▸ mirrors, rfl, fun _ _ here => nomatch here⟩
  | cons request rest ih =>
    unfold Store.accept at ran
    split at ran
    · cases ran
    · rename_i answer next called
      obtain ⟨accepted, side, positive⟩ := call_accepted called fun dictionaries => sided dictionaries request List.mem_cons_self
      obtain ⟨fill, last, terms, stays⟩ := mirrors.accepts accepted side
      rw [last] at ran
      obtain ⟨⟨end_, later⟩, goes, same⟩ := Option.map_eq_some_iff.mp ran
      cases same
      obtain ⟨mirrored, same, sound⟩ := ih stays goes fun dictionaries other here =>
        sided dictionaries other (List.mem_cons_of_mem _ here)
      refine ⟨?_, ?_, ?_⟩
      · rw [List.append_assoc] at mirrored
        exact mirrored
      · rw [List.map_cons, List.map_cons, same, terms]
      · intro tables other here
        obtain rfl | here := List.mem_cons.mp here
        · exact positive tables
        · exact sound tables other here

theorem Mirrors.fresh (mandate : Mandate) : Mirrors (freshRows mandate) [] := ⟨rfl, fun _ => rfl, .nil⟩

end Runs

section Claims
variable {store : Store} {session : Int → Int} {requests : List Request} {final : Rows} {entries : List Entry}

theorem terms_of_mem (same : (entries.map fun entry => entry.fill.terms) = requests.map Request.terms) {P : Int × Bool × Bool × ℚ → Prop} :
    (∀ entry ∈ entries, P entry.fill.terms) ↔ ∀ request ∈ requests, P request.terms := by
  have first : (∀ entry ∈ entries, P entry.fill.terms) ↔ ∀ terms ∈ entries.map (fun entry => entry.fill.terms), P terms :=
    List.forall_mem_map.symm
  have second : (∀ request ∈ requests, P request.terms) ↔ ∀ terms ∈ requests.map Request.terms, P terms := List.forall_mem_map.symm
  rw [first, second, same]

/-- Of the trades a store accepts at increasing instants, without corrections or wind-downs: every
day's summary is given and lists the positions closed that day, one each, exactly when no trade is
empty and no sale leaves a residue between what the store drops and what the replay tolerates. -/
theorem closed_positions_listed (store : Store) (monotone : Monotone session) (mandate : Mandate)
    (ran : store.accept requests (freshRows mandate) = some (final, entries))
    (sided : store = .dictionaries → ∀ request ∈ requests, request.order.side = "BUY" ∨ request.order.side = "SELL")
    (increasing : requests.Pairwise fun first second => first.order.clock < second.order.clock)
    (plain : ∀ request ∈ requests, request.order.corrected = false ∧ request.windDown = false) :
    Summarizes store session final entries ↔ (∀ request ∈ requests, 0 < request.order.quantity) ∧ NoResidue entries := by
  obtain ⟨mirrors, same, sound⟩ := (Mirrors.fresh mandate).accept ran sided
  rw [List.nil_append] at mirrors
  have legs : PlainLegs entries :=
    (terms_of_mem same (P := fun terms => terms.2.1 = false ∧ terms.2.2.1 = false)).mpr plain
  have quantities : Positive entries ↔ ∀ request ∈ requests, 0 < request.order.quantity :=
    terms_of_mem same (P := fun terms => 0 < terms.2.2.2)
  have ordered : entries.Pairwise fun first second => first.fill.executedAt < second.fill.executedAt := by
    have clocks : (entries.map fun entry => entry.fill.executedAt) = requests.map fun request => request.order.clock := by
      have times := congrArg (List.map Prod.fst) same
      rw [List.map_map, List.map_map] at times
      exact times
    have pairs : (requests.map fun request => request.order.clock).Pairwise (· < ·) := List.pairwise_map.mpr increasing
    rw [← clocks] at pairs
    exact List.pairwise_map.mp pairs
  constructor
  · intro summarizes
    have positive : Positive entries := by
      cases store with
      | tables => exact quantities.mpr (sound rfl)
      | dictionaries =>
        obtain ⟨summary, given, -⟩ := summarizes 0
        obtain ⟨replay, replayed, -⟩ := summary_replays ordered mirrors.trades given
        exact positive_of_replay mirrors.ledgered (fun _ here => here) replayed
    exact ⟨quantities.mp positive, clean_of_summarizes monotone mirrors.ledgered ordered mirrors.trades legs positive summarizes⟩
  · intro ⟨positive, clean⟩
    exact summarizes_of_clean monotone mirrors.ledgered ordered mirrors.trades legs (quantities.mpr positive) clean

/-- A trade of a share bought at a hundred, at an instant. -/
def dated (side : String) (quantity : ℚ) (clock : Int) : Request :=
  let request := sample side quantity 100 1 0 none
  { request with order := { request.order with clock } }

/-- The day of an instant at three hours behind universal time. -/
def saoPauloDay (instant : Int) : Int := (instant - 10800) / 86400

theorem saoPauloDay_monotone : Monotone saoPauloDay := by
  intro first second before
  exact Int.ediv_le_ediv (by decide) (by omega)

theorem closed_positions_listed_once : ∃ final entries,
    Store.tables.accept [dated "BUY" 10 0, dated "SELL" 4 60, dated "SELL" 6 120] (freshRows sampleMandate) = some (final, entries) ∧
      (Summarizes .tables saoPauloDay final entries ↔
        (∀ request ∈ [dated "BUY" 10 0, dated "SELL" 4 60, dated "SELL" 6 120], 0 < request.order.quantity) ∧ NoResidue entries) := by
  have accepted : (Store.tables.accept [dated "BUY" 10 0, dated "SELL" 4 60, dated "SELL" 6 120]
    (freshRows sampleMandate)).isSome = true := by decide +kernel
  obtain ⟨⟨final, entries⟩, ran⟩ := Option.isSome_iff_exists.mp accepted
  refine ⟨final, entries, ran, closed_positions_listed .tables saoPauloDay_monotone sampleMandate ran ?_ ?_ ?_⟩
  · exact fun never => nomatch never
  · decide +kernel
  · decide +kernel

/-- A sale that leaves half a millionth of a share: the store keeps it, the replay does not. -/
def residueTrades : List Request := [dated "BUY" 10 0, dated "SELL" (10 - 5 / 10 ^ 7) 60, dated "SELL" (5 / 10 ^ 7) 120]

theorem residue_refused :
    (Store.tables.accept residueTrades (freshRows sampleMandate)).map (fun run => Store.tables.episodeSummary saoPauloDay (-1) run.1) =
      some (.error "R2D2 SELL begins an episode from flat at 2") ∧
    (Store.tables.accept (residueTrades.take 2) (freshRows sampleMandate)).map (fun run =>
        ((Store.tables.episodeSummary saoPauloDay (-1) run.1).toOption.map EpisodeSummary.closedEpisodes,
          (run.1.positions.get? ("NASDAQ", "ACME")).map fun holding => holding.quantity)) =
      some (some 1, some (5 / 10 ^ 7)) := by
  constructor <;> decide +kernel

end Claims

end C3po.Paper
