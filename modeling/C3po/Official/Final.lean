import Mathlib.Data.List.Find
import C3po.Official.Changes

/-! What a chained generation serves is final, and a capture reads all of it.

The records of its cycles are final, so no later store changes a served row. A capture may
therefore read the rows over any number of steps of the others.
-/

set_option autoImplicit false

namespace C3po.Official
open C3po.Library
open C3po.Prices (normalise)

variable {Digest : Type} {setting : Setting Digest} {store next : Store}

/-- What a generation serves of a symbol: the row of its market, or the one of its targeted
cycle where B3 has none. -/
inductive Serves (store : Store) (head : Generation) : String → String → ServedRow → Prop where
  | market (market : Market) {symbol : String} {item : ServedRow}
      (found : (store.officialRows (some market.name) (some head)).get? symbol = some item) :
      Serves store head market.name symbol item
  | targeted {symbol : String} {item : ServedRow} (admitted : (head.targeted.get? symbol).isSome)
      (apart : (store.officialRows (some "B3") (some head)).get? symbol = none)
      (found : store.officialRow (some "B3") symbol (some head) = some item) :
      Serves store head "B3" symbol item

section Final
variable (sound : Sound setting store) {generation : Generation} (whole : Whole setting.calendars store generation)
  (later : (official setting).Later store next)
include sound whole later

theorem Whole.marketRows_final (market : Market) : next.marketRows generation market = store.marketRows generation market := by
  obtain ⟨cycle, _, stored, _⟩ := whole.markets market
  unfold Store.marketRows
  rw [stored, (later_grows later).snapshot stored, records_settled sound (whole.recorded.markets market) _ later]

theorem Whole.officialRows_final (request : Option String) :
    next.officialRows request (some generation) = store.officialRows request (some generation) := by
  have same : next.marketRows generation = store.marketRows generation :=
    funext fun market => whole.marketRows_final sound later market
  unfold Store.officialRows
  simp only [same]

theorem Whole.record_final (market : Market) (symbol : String) :
    next.predictionRecord (generation.cycles market) symbol generation.source =
      store.predictionRecord (generation.cycles market) symbol generation.source := by
  unfold Store.predictionRecord
  rw [records_settled sound (whole.recorded.markets market) _ later]

theorem Whole.universeRow_final (symbol : String) (asked : List Market) :
    next.universeRow generation symbol asked = store.universeRow generation symbol asked := by
  induction asked with
  | nil => rfl
  | cons market rest ih =>
    obtain ⟨cycle, _, stored, _⟩ := whole.markets market
    unfold Store.universeRow
    simp only [whole.record_final sound later, stored, (later_grows later).snapshot stored, ih]

theorem Whole.targetedRow_final (symbol : String) :
    next.targetedRow generation symbol = store.targetedRow generation symbol := by
  unfold Store.targetedRow
  cases held : generation.targeted.get? symbol with
  | none => rfl
  | some cycleId =>
    obtain ⟨cycle, _, stored, _⟩ := whole.targeted symbol cycleId held
    have known := whole.recorded.targeted (symbol, cycleId) (Dict.mem_entries.mpr held)
    unfold Store.predictionRecord
    simp only [Option.bind_some, stored, (later_grows later).snapshot stored, records_settled sound known _ later]

theorem Whole.officialRow_final (request : Option String) (symbol : String) :
    next.officialRow request symbol (some generation) = store.officialRow request symbol (some generation) := by
  unfold Store.officialRow
  simp only [whole.universeRow_final sound later, whole.targetedRow_final sound later]

theorem Whole.serves_final {market symbol : String} {item : ServedRow} :
    Serves next generation market symbol item ↔ Serves store generation market symbol item := by
  constructor
  · intro serves
    cases serves with
    | market market found => exact .market market (whole.officialRows_final sound later _ ▸ found)
    | targeted admitted apart found =>
      exact .targeted admitted (whole.officialRows_final sound later _ ▸ apart) (whole.officialRow_final sound later .. ▸ found)
  · intro serves
    cases serves with
    | market market found => exact .market market ((whole.officialRows_final sound later _).symm ▸ found)
    | targeted admitted apart found =>
      exact .targeted admitted ((whole.officialRows_final sound later _).symm ▸ apart)
        ((whole.officialRow_final sound later ..).symm ▸ found)

end Final

section Reads

def withMarketRows (store : Store) (head : Generation) (served : ServedRows) (market : Market) : ServedRows :=
  (store.officialRows (some market.name) (some head)).entries.foldl (fun served entry =>
    let key := (market.name, normalise entry.1)
    if served.contains key then served else served.insert key entry.2) served

def withTargetedRow (store : Store) (head : Generation) (served : ServedRows) (entry : String × ℕ) : ServedRows :=
  let key := ("B3", normalise entry.1)
  if served.contains key then served
  else match store.officialRow (some "B3") key.2 (some head) with
    | none => served
    | some item => served.insert key item

/-- The rows a capture reads when nothing moves meanwhile. -/
def Store.servedRows (store : Store) (head : Generation) : ServedRows :=
  (sortedEntries head.targeted).foldl (withTargetedRow store head) (markets.foldl (withMarketRows store head) .empty)

theorem evaluate_addTargetedRow (head : Generation) (served : ServedRows) (entry : String × ℕ) :
    (addTargetedRow head served entry).evaluate store = some (withTargetedRow store head served entry) := by
  unfold addTargetedRow withTargetedRow
  dsimp only
  split
  · rfl
  · change Program.evaluate (match store.officialRow (some "B3") (normalise entry.1) (some head) with
      | none => pure served
      | some item => pure (served.insert ("B3", normalise entry.1) item)) store = _
    split <;> rfl

variable (sound : Sound setting store) {head : Generation} (whole : Whole setting.calendars store head)
include sound whole

theorem settled_addTargetedRow (served : ServedRows) (entry : String × ℕ) :
    (official setting).Settled (addTargetedRow head served entry) store := by
  unfold addTargetedRow
  dsimp only
  split
  · exact Protocol.Settled.pure _
  · refine Protocol.Settled.bind (Protocol.Settled.read fun _ later => whole.officialRow_final sound later ..)
      fun item _ => ?_
    cases item <;> exact Protocol.Settled.pure _

theorem settled_addMarketRows (served : ServedRows) (market : Market) :
    (official setting).Settled (addMarketRows head served market) store :=
  Protocol.Settled.bind (Protocol.Settled.read fun _ later => whole.officialRows_final sound later _)
    fun _ _ => Protocol.Settled.pure _

theorem settled_servedRows : (official setting).Settled (servedRows head) store := by
  unfold servedRows
  refine Protocol.Settled.bind (Protocol.Settled.foldlM (fun _ => True) (fun served market _ _ =>
    ⟨settled_addMarketRows sound whole served market, fun _ _ => trivial⟩) trivial).1 fun served _ => ?_
  exact (Protocol.Settled.foldlM (fun _ => True) (fun served entry _ _ =>
    ⟨settled_addTargetedRow sound whole served entry, fun _ _ => trivial⟩) trivial).1

theorem evaluate_servedRows : (servedRows head).evaluate store = some (store.servedRows head) := by
  have first := Protocol.Settled.evaluate_foldlM (fun served market =>
    ⟨settled_addMarketRows sound whole served market, (rfl : _ = some (withMarketRows store head served market))⟩)
    markets .empty
  have settled : (official setting).Settled (markets.foldlM (addMarketRows head) .empty) store :=
    (Protocol.Settled.foldlM (fun _ => True) (fun served market _ _ =>
      ⟨settled_addMarketRows sound whole served market, fun _ _ => trivial⟩) trivial).1
  unfold servedRows Store.servedRows
  rw [Protocol.Settled.evaluate_then settled first]
  exact Protocol.Settled.evaluate_foldlM (fun served entry =>
    ⟨settled_addTargetedRow sound whole served entry, evaluate_addTargetedRow head served entry⟩) _ _

end Reads

section Rows

theorem get?_withMarketRows {head : Generation} {market : Market}
    (clean : ∀ symbol ∈ (store.officialRows (some market.name) (some head)).keys, normalise symbol = symbol)
    (served : ServedRows) (key : String × String) : (withMarketRows store head served market).get? key =
      (served.get? key).or (if key.1 = market.name then (store.officialRows (some market.name) (some head)).get? key.2
        else none) := by
  obtain ⟨name, symbol⟩ := key
  unfold withMarketRows
  generalize store.officialRows (some market.name) (some head) = rows at clean ⊢
  have first := Dict.get?_foldl_first (rows.entries.map fun entry => ((market.name, normalise entry.1), entry.2))
    served (name, symbol)
  rw [List.foldl_map] at first
  rw [first, List.find?_map]
  congr 1
  by_cases own : name = market.name
  · have alike : ∀ entry ∈ rows.entries, ((fun entry : (String × String) × ServedRow => decide (entry.1 = (name, symbol))) ∘
        fun entry : String × ServedRow => ((market.name, normalise entry.1), entry.2)) entry =
          decide (entry.1 = symbol) := by
      intro entry member
      have same := clean entry.1 (List.mem_map_of_mem member)
      simp [own, same]
    rw [List.find?_congr alike, if_pos own, ← Dict.find?_entries, Option.map_map]
    rfl
  · have none : rows.entries.find? ((fun entry : (String × String) × ServedRow => decide (entry.1 = (name, symbol))) ∘
        fun entry : String × ServedRow => ((market.name, normalise entry.1), entry.2)) = none := by
      rw [List.find?_eq_none]
      intro entry _
      simp [Ne.symm own]
    rw [none, if_neg own]
    rfl

theorem get?_withTargetedRows {head : Generation} (entries : List (String × ℕ))
    (clean : ∀ entry ∈ entries, normalise entry.1 = entry.1) (served : ServedRows) (key : String × String) :
    (entries.foldl (withTargetedRow store head) served).get? key = (served.get? key).or
      (if key.1 = "B3" ∧ key.2 ∈ entries.map Prod.fst then store.officialRow (some "B3") key.2 (some head) else none) := by
  induction entries generalizing served with
  | nil => simp
  | cons entry rest ih =>
    obtain ⟨name, symbol⟩ := key
    have step : (withTargetedRow store head served entry).get? (name, symbol) = (served.get? (name, symbol)).or
        (if name = "B3" ∧ symbol = entry.1 then store.officialRow (some "B3") symbol (some head) else none) := by
      unfold withTargetedRow
      simp only [clean entry List.mem_cons_self]
      by_cases own : name = "B3" ∧ symbol = entry.1
      · obtain ⟨rfl, rfl⟩ := own
        cases held : served.get? ("B3", entry.1) with
        | some item => simp [Dict.contains, held]
        | none => cases found : store.officialRow (some "B3") entry.1 (some head) <;> simp [Dict.contains, held]
      · have apart : (name, symbol) ≠ ("B3", entry.1) := fun same => own (Prod.mk.inj same)
        rw [if_neg own]
        split
        · simp
        · split <;> simp [apart]
    rw [List.foldl_cons, ih (fun other member => clean other (List.mem_cons_of_mem _ member)), step, Option.or_assoc]
    congr 1
    by_cases own : name = "B3" ∧ symbol = entry.1
    · have here : name = "B3" ∧ symbol ∈ (entry :: rest).map Prod.fst := ⟨own.1, List.mem_cons.mpr (.inl own.2)⟩
      rw [if_pos own]
      simp only [if_pos here]
      split <;> simp
    · rw [if_neg own, Option.none_or]
      congr 1
      simp only [List.map_cons, List.mem_cons]
      exact propext ⟨fun found => ⟨found.1, .inr found.2⟩, fun found => ⟨found.1,
        found.2.resolve_left fun same => own ⟨found.1, same⟩⟩⟩

variable {head : Generation}

theorem get?_markets
    (clean : ∀ market, ∀ symbol ∈ (store.officialRows (some (Market.name market)) (some head)).keys, normalise symbol = symbol)
    (name symbol : String) (item : ServedRow) :
    (markets.foldl (withMarketRows store head) .empty).get? (name, symbol) = some item ↔
      ∃ market : Market, name = market.name ∧ (store.officialRows (some market.name) (some head)).get? symbol = some item := by
  have b3 := get?_withMarketRows (clean .b3)
  have nasdaq := get?_withMarketRows (clean .nasdaq)
  have nyse := get?_withMarketRows (clean .nyse)
  simp only [Market.name] at b3 nasdaq nyse
  simp only [markets, List.foldl_cons, List.foldl_nil, b3, nasdaq, nyse, Dict.get?_empty, Option.none_or]
  constructor
  · intro found
    rcases Option.or_eq_some_iff.mp found with earlier | ⟨_, last⟩
    · rcases Option.or_eq_some_iff.mp earlier with first | ⟨_, second⟩
      · obtain ⟨own, row⟩ := Option.ite_none_right_eq_some.mp first
        exact ⟨.b3, own, row⟩
      · obtain ⟨own, row⟩ := Option.ite_none_right_eq_some.mp second
        exact ⟨.nasdaq, own, row⟩
    · obtain ⟨own, row⟩ := Option.ite_none_right_eq_some.mp last
      exact ⟨.nyse, own, row⟩
  · rintro ⟨market, rfl, found⟩
    cases market <;> simpa [Market.name] using found

theorem Whole.officialRows_clean (sound : Sound setting store) (whole : Whole setting.calendars store head)
    (request : Option String) : ∀ symbol ∈ (store.officialRows request (some head)).keys, normalise symbol = symbol := by
  intro symbol member
  obtain ⟨item, found⟩ := Option.isSome_iff_exists.mp (Dict.mem_keys.mp member)
  unfold Store.officialRows at found
  simp only [Dict.get?_foldl_first, Dict.get?_empty, Option.none_or] at found
  obtain ⟨entry, entryFound, _⟩ := Option.map_eq_some_iff.mp found
  obtain ⟨market, _, there⟩ := List.mem_flatMap.mp (List.mem_of_find?_eq_some entryFound)
  have own : entry.1 = symbol := by simpa using List.find?_some entryFound
  obtain ⟨cycle, _, stored, _⟩ := whole.markets market
  unfold Store.marketRows at there
  rw [stored] at there
  obtain ⟨record, recordIn, made⟩ := List.mem_filterMap.mp there
  obtain ⟨_, _, shown⟩ := Option.bind_eq_some_iff.mp made
  obtain ⟨_, _, rfl⟩ := Option.map_eq_some_iff.mp shown
  rw [← own]
  exact sound.clean (List.mem_map_of_mem recordIn)

theorem Whole.servedRows_iff (sound : Sound setting store) (whole : Whole setting.calendars store head)
    {market symbol : String} {item : ServedRow} :
    (store.servedRows head).get? (market, symbol) = some item ↔ Serves store head market symbol item := by
  have clean : ∀ entry ∈ sortedEntries head.targeted, normalise entry.1 = entry.1 := by
    intro entry member
    obtain ⟨_, _, _, _, _, _, _, recorded⟩ := whole.targeted entry.1 entry.2
      (Dict.mem_entries.mp (mem_stableSort.mp member))
    exact sound.clean recorded
  have admitted : symbol ∈ (sortedEntries head.targeted).map Prod.fst ↔ (head.targeted.get? symbol).isSome := by
    rw [← Dict.mem_keys]
    exact ((stableSort_perm Prod.fst head.targeted.entries).map Prod.fst).mem_iff
  have rows := get?_markets fun market => whole.officialRows_clean sound (some (Market.name market))
  unfold Store.servedRows
  rw [get?_withTargetedRows _ clean]
  simp only [admitted]
  constructor
  · intro found
    rcases Option.or_eq_some_iff.mp found with first | ⟨none, second⟩
    · obtain ⟨own, rfl, row⟩ := (rows market symbol item).mp first
      exact .market own row
    · obtain ⟨⟨rfl, known⟩, row⟩ := Option.ite_none_right_eq_some.mp second
      refine .targeted known ?_ row
      -- a row of the market would have come first
      cases held : (store.officialRows (some "B3") (some head)).get? symbol with
      | none => rfl
      | some other => exact absurd ((rows "B3" symbol other).mpr ⟨.b3, rfl, held⟩) (by simp [none])
  · intro serves
    cases serves with
    | market market row => exact Option.or_eq_some_iff.mpr (.inl ((rows _ symbol item).mpr ⟨market, rfl, row⟩))
    | targeted known apart row =>
      refine Option.or_eq_some_iff.mpr (.inr ⟨?_, by rw [if_pos ⟨rfl, known⟩]; exact row⟩)
      cases held : (Official.markets.foldl (withMarketRows store head) .empty).get? ("B3", symbol) with
      | none => rfl
      | some other =>
        obtain ⟨own, named, there⟩ := (rows "B3" symbol other).mp held
        rw [← named, apart] at there
        cases there

end Rows

end C3po.Official
