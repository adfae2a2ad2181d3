import C3po.Official.Writers

/-! What one step can do to the store, and what every step keeps.

A step publishes a cycle, records one, or chains a generation on the last: an automatic
one, composed from it, or an order. The store stays sound: ids are places, the
generations are one chain in time, records are those of their cycles, and no generation
has a hole.
-/

set_option autoImplicit false

namespace C3po.Official
open C3po.Library
open C3po.Prices (normalise)

variable {Digest : Type}

/-- What the writers run in: the calendars, the receipts, what the environment may answer a
call, which cycles the producers publish, and whether a direct admission only follows the
records of its cycle, as it does behind the persistence hook. -/
structure Setting (Digest : Type) where
  calendars : Calendars
  receipts : Receipts Digest
  allowed : List (Event Store Reading) → Reading → Prop
  producible : Cycle → Prop
  recordedFirst : Prop

/-- The wall clock of a process never runs backwards within a call. -/
def Setting.Steady (setting : Setting Digest) : Prop :=
  ∀ log earlier later, setting.allowed log later → .answered earlier ∈ log → earlier.clock ≤ later.clock

namespace Store
variable (store : Store)

def tip : Option Generation := store.generations.getLast?

def instantOf (cycleId : ℕ) : Option Int :=
  (store.analysisSnapshotById cycleId).bind fun cycle => cycle.clocks.map fun clocks => clocks.1

end Store

structure Grows (store next : Store) : Prop where
  snapshots : store.snapshots <+: next.snapshots
  predictions : store.predictions <+: next.predictions
  generations : store.generations <+: next.generations

/-- Every row is usable for the source and has its record. -/
structure Complete (store : Store) (source : Source) (cycle : Cycle) : Prop where
  rows : cycle.cycleRows ≠ []
  usable : ∀ row ∈ cycle.cycleRows, usable row source = true
  recorded : ∀ row ∈ cycle.cycleRows, normalise row.symbol ∈ store.recordedSymbols cycle.id source

section Facts
variable (calendars : Calendars) (store : Store)

/-- A complete universe cycle of the market, and the session of its prediction. -/
def Selectable (source : Source) (cycleId : ℕ) (market : Market) (session : Option Int) : Prop :=
  ∃ cycle clocks, store.analysisSnapshotById cycleId = some cycle ∧ cycle.analysisType = .universe ∧
    cycle.market = some market ∧ cycle.clocks = some clocks ∧
    session = calendars.sessions market clocks.1 ∧ session.isSome ∧ Complete store source cycle

/-- A complete targeted cycle with the record of the symbol. -/
def Admissible (source : Source) (symbol : String) (cycleId : ℕ) : Prop :=
  ∃ cycle clocks, store.analysisSnapshotById cycleId = some cycle ∧ cycle.analysisType = .targeted ∧
    cycle.clocks = some clocks ∧ (calendars.sessions .b3 clocks.1).isSome ∧ Complete store source cycle ∧
    symbol ∈ store.recordedSymbols cycleId source

def AfterOrder (cycleId : ℕ) : Prop :=
  ∀ order, store.latestExplicitSelection = some order →
    ∃ instant, store.instantOf cycleId = some instant ∧ order.activatedAt < instant

def Newer (held cycleId : ℕ) : Prop :=
  ∃ before after, store.instantOf held = some before ∧ store.instantOf cycleId = some after ∧ before < after

structure Whole (generation : Generation) : Prop where
  markets : ∀ market, Selectable calendars store generation.source (generation.cycles market) market
    (generation.sessionDates market)
  targeted : ∀ symbol cycleId, generation.targeted.get? symbol = some cycleId →
    Admissible calendars store generation.source symbol cycleId
  tidy : sortedTargeted generation.targeted = generation.targeted

end Facts

/-- The targeted cycles a receipt names as admitted by its generation. -/
def Receipt.admissions (receipt : Receipt) : Dict String ℕ :=
  match receipt.targetedAdmission with
  | some (symbol, cycleId) => receipt.targetedRecovered.insert symbol cycleId
  | none => receipt.targetedRecovered

/-- Everything the receipt does not name as changed is the predecessor's own. -/
structure Composed (head : Option Generation) (generation : Generation) : Prop where
  source : generation.source = selectedSource head
  changed : generation.receipt.changedMarkets = markets.filter fun market =>
    head.map (fun head => head.cycles market) ≠ some (generation.cycles market)
  targeted : ∀ symbol, generation.targeted.get? symbol =
    (generation.receipt.admissions.get? symbol).or ((currentTargeted head).get? symbol)

/-- When a freeze ends: never later than its bound. -/
def Generation.freezeEnd (generation : Generation) : Option Int :=
  if generation.receipt.explicit then
    generation.receipt.freeze.map fun freeze => min freeze (generation.activatedAt + freezeMax)
  else none

structure Automatic (setting : Setting Digest) (store : Store) (generation : Generation) : Prop where
  id : generation.id = store.generations.length
  previous : generation.previous = store.tip.map Generation.id
  unmarked : generation.receipt.explicit = false
  composed : Composed store.tip generation
  clock : ∀ head, store.tip = some head → head.activatedAt < generation.activatedAt
  thawed : setting.Steady → ∀ head ends, store.tip = some head → head.freezeEnd = some ends →
    ends ≤ generation.activatedAt
  chosen : ∀ market,
    (∃ head, store.tip = some head ∧ generation.cycles market = head.cycles market ∧
      generation.sessionDates market = head.sessionDates market) ∨
    (Selectable setting.calendars store generation.source (generation.cycles market) market
        (generation.sessionDates market) ∧
      ∀ head, store.tip = some head → generation.cycles market ≠ head.cycles market →
        AfterOrder store (generation.cycles market))
  admitted : ∀ symbol cycleId, generation.receipt.admissions.get? symbol = some cycleId →
    Admissible setting.calendars store generation.source symbol cycleId ∧ AfterOrder store cycleId ∧
      (setting.recordedFirst → ∀ held, (currentTargeted store.tip).get? symbol = some held →
        Newer store held cycleId)
  tidy : sortedTargeted generation.targeted = generation.targeted

/-- A generation that takes over the composition of another. -/
structure SameComposition (head generation : Generation) : Prop where
  cycles : generation.cycles = head.cycles
  targeted : generation.targeted = head.targeted
  source : generation.source = head.source
  sourceVersion : generation.sourceVersion = head.sourceVersion
  sessionDates : generation.sessionDates = head.sessionDates

/-- The receipt an order to the internal source cites is the accepted one, and hashes the
report on the generation it chains on over this very composition. -/
def Accepted (receipts : Receipts Digest) (store : Store) (head generation : Generation) : Prop :=
  ∃ report, (beforeAfterReport receipts head
      ⟨generation.cycles, generation.targeted, generation.sourceVersion⟩).evaluate store = some report ∧
    reportSha256 receipts report = receipts.accepted

/-- An order of the mesa, chained on the tip of the store. -/
structure Ordered (setting : Setting Digest) (store : Store) (generation : Generation) : Prop where
  id : generation.id = store.generations.length
  previous : generation.previous = store.tip.map Generation.id
  marked : generation.receipt.explicit = true
  clock : ∀ head, store.tip = some head → head.activatedAt ≤ generation.activatedAt
  content : (∃ head, store.tip = some head ∧ SameComposition head generation) ∨
    (Whole setting.calendars store generation ∧
      (generation.source = .internal → ∃ head, store.tip = some head ∧
        Accepted setting.receipts store head generation))

def Store.chain (store : Store) (generation : Generation) : Store :=
  { store with generations := store.generations ++ [generation] }

/-- What one step can do. -/
inductive Move (setting : Setting Digest) : Store → Store → Prop where
  | published (store : Store) (cycle : Cycle) (produced : setting.producible cycle) :
      Move setting store (store.saveSnapshot cycle)
  | recorded (store : Store) {cycle : Cycle} {market : Market} {clocks : Int × Int × Option String}
      {session : Int} (stored : store.analysisSnapshotById cycle.id = some cycle)
      (ofMarket : cycle.market = some market) (clocked : cycle.clocks = some clocks)
      (known : setting.calendars.sessions market clocks.1 = some session) :
      Move setting store (store.insertPredictions (cyclePredictions cycle market clocks session))
  | automatic (store : Store) {generation : Generation} (fits : Automatic setting store generation) :
      Move setting store (store.chain generation)
  | ordered (store : Store) {generation : Generation} (fits : Ordered setting store generation) :
      Move setting store (store.chain generation)

/-- Where a record comes from, with every other record of its cycle. -/
def Recorded (calendars : Calendars) (store : Store) (record : Prediction) : Prop :=
  ∃ cycle market clocks session, store.analysisSnapshotById record.cycleId = some cycle ∧
    cycle.market = some market ∧ cycle.clocks = some clocks ∧
    calendars.sessions market clocks.1 = some session ∧
    record ∈ cyclePredictions cycle market clocks session ∧
    ∀ other ∈ cyclePredictions cycle market clocks session, other.key ∈ store.predictions.map Prediction.key

def Placed (place : ℕ) (generation : Generation) : Prop :=
  generation.id = place ∧ generation.previous = if place = 0 then none else some (place - 1)

structure Sound (setting : Setting Digest) (store : Store) : Prop where
  ids : ∀ (place : ℕ) (cycle : Cycle), store.snapshots[place]? = some cycle → cycle.id = place
  produced : ∀ cycle ∈ store.snapshots, ∃ original, setting.producible original ∧
    cycle = { original with id := cycle.id }
  keys : (store.predictions.map Prediction.key).Nodup
  recorded : ∀ record ∈ store.predictions, Recorded setting.calendars store record
  placed : ∀ (place : ℕ) (generation : Generation), store.generations[place]? = some generation → Placed place generation
  ordered : store.generations.Pairwise fun first second => first.activatedAt ≤ second.activatedAt
  whole : ∀ generation ∈ store.generations, Whole setting.calendars store generation

section Growth
variable {store next : Store}

theorem Grows.refl (store : Store) : Grows store store :=
  ⟨List.prefix_rfl, List.prefix_rfl, List.prefix_rfl⟩

theorem Grows.trans {first second third : Store} (before : Grows first second) (after : Grows second third) :
    Grows first third :=
  ⟨before.snapshots.trans after.snapshots, before.predictions.trans after.predictions,
    before.generations.trans after.generations⟩

theorem insertPredictions_keeps (records : List Prediction) (store : Store) :
    (store.insertPredictions records).snapshots = store.snapshots ∧
      (store.insertPredictions records).generations = store.generations := by
  unfold Store.insertPredictions
  refine foldl_keeps (fun next : Store => next.snapshots = store.snapshots ∧ next.generations = store.generations)
    records (fun record _ next same => ?_) ⟨rfl, rfl⟩
  unfold Store.insertPrediction
  split
  · exact same
  · exact same

theorem insertPredictions_grown (records : List Prediction) (store : Store) :
    store.predictions <+: (store.insertPredictions records).predictions := by
  unfold Store.insertPredictions
  refine foldl_keeps (fun next : Store => store.predictions <+: next.predictions)
    records (fun record _ next grown => ?_) List.prefix_rfl
  unfold Store.insertPrediction
  split
  · exact grown
  · exact grown.trans (List.prefix_append _ _)

theorem Move.grows {setting : Setting Digest} (move : Move setting store next) : Grows store next := by
  cases move with
  | published _ cycle => exact ⟨List.prefix_append _ _, List.prefix_rfl, List.prefix_rfl⟩
  | recorded =>
    obtain ⟨snapshots, generations⟩ := insertPredictions_keeps (cyclePredictions _ _ _ _) store
    exact ⟨snapshots ▸ List.prefix_rfl, insertPredictions_grown _ _, generations ▸ List.prefix_rfl⟩
  | automatic => exact ⟨List.prefix_rfl, List.prefix_rfl, List.prefix_append _ _⟩
  | ordered => exact ⟨List.prefix_rfl, List.prefix_rfl, List.prefix_append _ _⟩

section Monotone
variable (grows : Grows store next)
include grows

theorem Grows.snapshot {cycleId : ℕ} {cycle : Cycle} (found : store.analysisSnapshotById cycleId = some cycle) :
    next.analysisSnapshotById cycleId = some cycle :=
  grows.snapshots.find?_eq_some found

theorem Grows.instant {cycleId : ℕ} {instant : Int} (found : store.instantOf cycleId = some instant) :
    next.instantOf cycleId = some instant := by
  unfold Store.instantOf at found ⊢
  obtain ⟨cycle, stored, clocked⟩ := Option.bind_eq_some_iff.mp found
  rw [grows.snapshot stored]
  exact clocked

theorem Grows.cycleRecords (cycleId : ℕ) (source : Source) :
    store.predictionsForCycle cycleId source <+: next.predictionsForCycle cycleId source :=
  grows.predictions.filter _

theorem Grows.recordedSymbols {cycleId : ℕ} {source : Source} {symbol : String}
    (recorded : symbol ∈ store.recordedSymbols cycleId source) :
    symbol ∈ next.recordedSymbols cycleId source :=
  ((grows.cycleRecords cycleId source).map _).subset recorded

theorem Grows.record {cycleId : ℕ} {symbol : String} {source : Source} {record : Prediction}
    (found : store.predictionRecord cycleId symbol source = some record) :
    next.predictionRecord cycleId symbol source = some record :=
  (grows.cycleRecords cycleId source).find?_eq_some found

theorem Grows.complete {source : Source} {cycle : Cycle} (complete : Complete store source cycle) :
    Complete next source cycle :=
  ⟨complete.rows, complete.usable, fun row member => grows.recordedSymbols (complete.recorded row member)⟩

theorem Grows.selectable {calendars : Calendars} {source : Source} {cycleId : ℕ} {market : Market}
    {session : Option Int} (selectable : Selectable calendars store source cycleId market session) :
    Selectable calendars next source cycleId market session := by
  obtain ⟨cycle, clocks, stored, kind, ofMarket, clocked, same, known, complete⟩ := selectable
  exact ⟨cycle, clocks, grows.snapshot stored, kind, ofMarket, clocked, same, known, grows.complete complete⟩

theorem Grows.admissible {calendars : Calendars} {source : Source} {symbol : String} {cycleId : ℕ}
    (admissible : Admissible calendars store source symbol cycleId) :
    Admissible calendars next source symbol cycleId := by
  obtain ⟨cycle, clocks, stored, kind, clocked, known, complete, recorded⟩ := admissible
  exact ⟨cycle, clocks, grows.snapshot stored, kind, clocked, known, grows.complete complete,
    grows.recordedSymbols recorded⟩

theorem Grows.whole {calendars : Calendars} {generation : Generation}
    (whole : Whole calendars store generation) : Whole calendars next generation :=
  { markets := fun market => grows.selectable (whole.markets market)
    targeted := fun symbol cycleId found => grows.admissible (whole.targeted symbol cycleId found)
    tidy := whole.tidy }

theorem Grows.origin {calendars : Calendars} {record : Prediction}
    (recorded : Recorded calendars store record) : Recorded calendars next record := by
  obtain ⟨cycle, market, clocks, session, stored, ofMarket, clocked, known, member, others⟩ := recorded
  exact ⟨cycle, market, clocks, session, grows.snapshot stored, ofMarket, clocked, known, member,
    fun other otherIn => (grows.predictions.map _).subset (others other otherIn)⟩

theorem Grows.newer {held cycleId : ℕ} (newer : Newer store held cycleId) : Newer next held cycleId := by
  obtain ⟨before, after, first, second, order⟩ := newer
  exact ⟨before, after, grows.instant first, grows.instant second, order⟩

end Monotone
end Growth

end C3po.Official

/-! The store stays sound under every step. -/

namespace C3po.Official
open C3po.Library
open C3po.Prices (normalise)

variable {Digest : Type} {setting : Setting Digest} {store : Store}

section Records

theorem mem_insertPredictions {records : List Prediction} {record : Prediction}
    (member : record ∈ (store.insertPredictions records).predictions) :
    record ∈ store.predictions ∨ record ∈ records := by
  revert member
  unfold Store.insertPredictions
  refine foldl_keeps (fun next : Store => record ∈ next.predictions → record ∈ store.predictions ∨ record ∈ records)
    records (fun inserted insertedIn next known => ?_) Or.inl
  unfold Store.insertPrediction
  split
  · exact known
  · intro member
    rcases List.mem_append.mp member with earlier | new
    · exact known earlier
    · rw [List.mem_singleton.mp new]
      exact .inr insertedIn

theorem insertPrediction_key (store : Store) (record : Prediction) :
    record.key ∈ (store.insertPrediction record).predictions.map Prediction.key := by
  unfold Store.insertPrediction
  split
  · rename_i stored
    obtain ⟨other, otherIn, same⟩ := List.any_eq_true.mp stored
    exact List.mem_map.mpr ⟨other, otherIn, of_decide_eq_true same⟩
  · exact List.mem_map.mpr ⟨record, List.mem_append_right _ (List.mem_singleton.mpr rfl), rfl⟩

theorem insertPredictions_key {records : List Prediction} {record : Prediction} (member : record ∈ records) :
    record.key ∈ (store.insertPredictions records).predictions.map Prediction.key := by
  obtain ⟨front, back, rfl⟩ := List.append_of_mem member
  have here := insertPrediction_key (store.insertPredictions front) record
  unfold Store.insertPredictions at here ⊢
  rw [List.foldl_append, List.foldl_cons]
  exact ((insertPredictions_grown back _).map Prediction.key).subset here

theorem insertPredictions_nodup (records : List Prediction)
    (distinct : (store.predictions.map Prediction.key).Nodup) :
    ((store.insertPredictions records).predictions.map Prediction.key).Nodup := by
  unfold Store.insertPredictions
  refine foldl_keeps (fun next : Store => (next.predictions.map Prediction.key).Nodup)
    records (fun record _ next distinct => ?_) distinct
  unfold Store.insertPrediction
  split
  · exact distinct
  · rename_i absent
    rw [List.map_append, List.nodup_append]
    refine ⟨distinct, List.nodup_singleton _, fun key stored other new same => absent ?_⟩
    obtain ⟨held, heldIn, rfl⟩ := List.mem_map.mp stored
    rw [List.any_eq_true]
    refine ⟨held, heldIn, decide_eq_true ?_⟩
    rw [same, List.mem_singleton.mp new]

theorem predictionFromRow_some {cycle : Cycle} {market : Market} {clocks : Int × Int × Option String}
    {session : Int} {source : Source} {row : Row} {record : Prediction}
    (made : predictionFromRow cycle market clocks session source row = some record) :
    record.cycleId = cycle.id ∧ record.source = source ∧ record.symbol = normalise row.symbol ∧
      record.predictionInstant = clocks.1 ∧ record.market = market ∧ record.scope = cycle.scope ∧
      record.sourceVersion = cycle.sourceVersion ∧ record.sessionDate = session := by
  unfold predictionFromRow at made
  split at made
  · cases made
  · obtain ⟨numbers, _, rfl⟩ := Option.map_eq_some_iff.mp made
    exact ⟨rfl, rfl, rfl, rfl, rfl, rfl, rfl, rfl⟩

theorem mem_cyclePredictions {cycle : Cycle} {market : Market} {clocks : Int × Int × Option String}
    {session : Int} {record : Prediction} :
    record ∈ cyclePredictions cycle market clocks session ↔
      ∃ source, ∃ row ∈ cycle.cycleRows, predictionFromRow cycle market clocks session source row = some record := by
  unfold cyclePredictions
  rw [List.mem_flatMap]
  constructor
  · rintro ⟨source, _, made⟩
    obtain ⟨row, rowIn, same⟩ := List.mem_filterMap.mp made
    exact ⟨source, row, rowIn, same⟩
  · rintro ⟨source, row, rowIn, same⟩
    refine ⟨source, ?_, List.mem_filterMap.mpr ⟨row, rowIn, same⟩⟩
    cases source <;> decide

end Records

section Kept

theorem forall_getElem?_snoc {A : Type} {items : List A} {last : A} {holds : ℕ → A → Prop}
    (all : ∀ place item, items[place]? = some item → holds place item) (new : holds items.length last) :
    ∀ place item, (items ++ [last])[place]? = some item → holds place item := by
  intro place item found
  rcases lt_trichotomy place items.length with before | rfl | after
  · rw [List.getElem?_append_left before] at found
    exact all place item found
  · rw [List.getElem?_concat_length] at found
    cases found
    exact new
  · rw [List.getElem?_eq_none (by rw [List.length_append]; exact after)] at found
    cases found

theorem Sound.published {cycle : Cycle} (sound : Sound setting store) (produced : setting.producible cycle) :
    Sound setting (store.saveSnapshot cycle) := by
  have move : Move setting store (store.saveSnapshot cycle) := .published store cycle produced
  have grows := move.grows
  exact
    { ids := forall_getElem?_snoc sound.ids rfl
      produced := by
        intro other member
        rcases List.mem_append.mp member with earlier | new
        · exact sound.produced other earlier
        · rw [List.mem_singleton.mp new]
          exact ⟨cycle, produced, rfl⟩
      keys := sound.keys
      recorded := fun record member => grows.origin (sound.recorded record member)
      placed := sound.placed
      ordered := sound.ordered
      whole := fun generation member => grows.whole (sound.whole generation member) }

theorem Sound.recordedCycle {cycle : Cycle} {market : Market} {clocks : Int × Int × Option String} {session : Int}
    (sound : Sound setting store) (stored : store.analysisSnapshotById cycle.id = some cycle)
    (ofMarket : cycle.market = some market) (clocked : cycle.clocks = some clocks)
    (known : setting.calendars.sessions market clocks.1 = some session) :
    Sound setting (store.insertPredictions (cyclePredictions cycle market clocks session)) := by
  have move : Move setting store _ := .recorded store stored ofMarket clocked known
  have grows := move.grows
  obtain ⟨snapshots, generations⟩ := insertPredictions_keeps (cyclePredictions cycle market clocks session) store
  exact
    { ids := snapshots ▸ sound.ids
      produced := snapshots ▸ sound.produced
      keys := insertPredictions_nodup _ sound.keys
      recorded := by
        intro record member
        rcases mem_insertPredictions member with earlier | new
        · exact grows.origin (sound.recorded record earlier)
        · obtain ⟨source, row, _, made⟩ := mem_cyclePredictions.mp new
          refine ⟨cycle, market, clocks, session, ?_, ofMarket, clocked, known, new,
            fun other otherIn => insertPredictions_key otherIn⟩
          rw [(predictionFromRow_some made).1]
          exact grows.snapshot stored
      placed := generations ▸ sound.placed
      ordered := generations ▸ sound.ordered
      whole := by
        intro generation member
        rw [generations] at member
        exact grows.whole (sound.whole generation member) }

theorem tip_of_length {generation : Generation} (found : store.tip = some generation) :
    store.generations[store.generations.length - 1]? = some generation := by
  rw [← List.getLast?_eq_getElem?]
  exact found

theorem tip_mem {generation : Generation} (found : store.tip = some generation) :
    generation ∈ store.generations := List.mem_of_getLast? found

theorem tip_none (none : store.tip = none) : store.generations = [] := List.getLast?_eq_none_iff.mp none

theorem placed_next {generation : Generation} (sound : Sound setting store)
    (id : generation.id = store.generations.length) (previous : generation.previous = store.tip.map Generation.id) :
    Placed store.generations.length generation := by
  refine ⟨id, ?_⟩
  rw [previous]
  cases found : store.tip with
  | none => simp [tip_none found]
  | some head =>
    have nonempty := List.length_pos_of_mem (tip_mem found)
    have place := (sound.placed _ _ (tip_of_length found)).1
    rw [if_neg nonempty.ne', Option.map_some, place]

theorem Sound.tip_latest {head : Generation} (sound : Sound setting store) (found : store.tip = some head) :
    ∀ generation ∈ store.generations, generation.activatedAt ≤ head.activatedAt := by
  obtain ⟨front, whole⟩ := List.getLast?_eq_some_iff.mp found
  intro generation member
  have ordered := sound.ordered
  rw [whole, List.pairwise_append] at ordered
  rw [whole] at member
  rcases List.mem_append.mp member with earlier | last
  · exact ordered.2.2 generation earlier head (List.mem_singleton.mpr rfl)
  · rw [List.mem_singleton.mp last]

theorem ordered_next {generation : Generation} (sound : Sound setting store)
    (clock : ∀ head, store.tip = some head → head.activatedAt ≤ generation.activatedAt) :
    (store.generations ++ [generation]).Pairwise fun first second => first.activatedAt ≤ second.activatedAt := by
  rw [List.pairwise_append]
  refine ⟨sound.ordered, List.pairwise_singleton _ _, fun earlier member last lastIn => ?_⟩
  rw [List.mem_singleton.mp lastIn]
  cases found : store.tip with
  | none => rw [tip_none found] at member; cases member
  | some head => exact (sound.tip_latest found earlier member).trans (clock head found)

theorem Sound.chained {generation : Generation} (sound : Sound setting store)
    (id : generation.id = store.generations.length) (previous : generation.previous = store.tip.map Generation.id)
    (clock : ∀ head, store.tip = some head → head.activatedAt ≤ generation.activatedAt)
    (whole : Whole setting.calendars store generation) : Sound setting (store.chain generation) := by
  have grows : Grows store (store.chain generation) :=
    ⟨List.prefix_rfl, List.prefix_rfl, List.prefix_append _ _⟩
  exact
    { ids := sound.ids
      produced := sound.produced
      keys := sound.keys
      recorded := fun record member => grows.origin (sound.recorded record member)
      placed := forall_getElem?_snoc sound.placed (placed_next sound id previous)
      ordered := ordered_next sound clock
      whole := by
        intro other member
        rcases List.mem_append.mp member with earlier | new
        · exact grows.whole (sound.whole other earlier)
        · rw [List.mem_singleton.mp new]
          exact grows.whole whole }

theorem SameComposition.whole {calendars : Calendars} {head generation : Generation}
    (same : SameComposition head generation) (whole : Whole calendars store head) :
    Whole calendars store generation :=
  { markets := fun market => by
      rw [same.source, same.cycles, same.sessionDates]
      exact whole.markets market
    targeted := fun symbol cycleId found => by
      rw [same.targeted] at found
      rw [same.source]
      exact whole.targeted symbol cycleId found
    tidy := by
      rw [same.targeted]
      exact whole.tidy }

theorem Automatic.whole {generation : Generation} (fits : Automatic setting store generation)
    (sound : Sound setting store) : Whole setting.calendars store generation where
  markets := by
    intro market
    rcases fits.chosen market with ⟨head, found, cycles, sessions⟩ | ⟨selectable, _⟩
    · have source : generation.source = head.source := by rw [fits.composed.source, found]; rfl
      rw [source, cycles, sessions]
      exact (sound.whole head (tip_mem found)).markets market
    · exact selectable
  targeted := by
    intro symbol cycleId held
    rw [fits.composed.targeted] at held
    rcases Option.or_eq_some_iff.mp held with admitted | ⟨_, carried⟩
    · exact (fits.admitted symbol cycleId admitted).1
    · cases found : store.tip with
      | none => rw [found] at carried; cases carried
      | some head =>
        rw [found] at carried
        have source : generation.source = head.source := by rw [fits.composed.source, found]; rfl
        rw [source]
        exact (sound.whole head (tip_mem found)).targeted symbol cycleId carried
  tidy := fits.tidy

theorem Ordered.whole {generation : Generation} (fits : Ordered setting store generation)
    (sound : Sound setting store) : Whole setting.calendars store generation := by
  rcases fits.content with ⟨head, found, same⟩ | ⟨whole, _⟩
  · exact same.whole (sound.whole head (tip_mem found))
  · exact whole

theorem Sound.kept {next : Store} (sound : Sound setting store) (move : Move setting store next) :
    Sound setting next := by
  cases move with
  | published cycle produced => exact sound.published produced
  | recorded stored ofMarket clocked known => exact sound.recordedCycle stored ofMarket clocked known
  | automatic fits =>
    exact sound.chained fits.id fits.previous (fun head found => (fits.clock head found).le) (fits.whole sound)
  | ordered fits => exact sound.chained fits.id fits.previous fits.clock (fits.whole sound)

end Kept

theorem sound_empty (setting : Setting Digest) : Sound setting Store.empty where
  ids := fun _ _ found => by cases found
  produced := fun _ member => nomatch member
  keys := List.nodup_nil
  recorded := fun _ member => nomatch member
  placed := fun _ _ found => by cases found
  ordered := List.Pairwise.nil
  whole := fun _ member => nomatch member

/-- The rules of the official selection. -/
def official (setting : Setting Digest) : Protocol Store Reading where
  keeps := Sound setting
  moves := Move setting
  allowed := setting.allowed
  kept := fun sound move => sound.kept move

theorem later_grows {next : Store} (later : (official setting).Later store next) : Grows store next := by
  induction later with
  | refl => exact Grows.refl store
  | tail _ move ih => exact ih.trans move.grows

section Reads
variable (sound : Sound setting store)
include sound

theorem Sound.head : store.latestSelection = store.tip := by
  cases found : store.tip with
  | none =>
    unfold Store.latestSelection
    rw [tip_none found]
    rfl
  | some head =>
    obtain ⟨front, whole⟩ := List.getLast?_eq_some_iff.mp found
    unfold Store.latestSelection
    have above := sound.tip_latest found
    rw [whole] at above ⊢
    exact newest_snoc fun generation member => above generation (List.mem_append_left _ member)

theorem Sound.clean {cycleId : ℕ} {source : Source} {symbol : String}
    (recorded : symbol ∈ store.recordedSymbols cycleId source) : normalise symbol = symbol := by
  obtain ⟨record, member, rfl⟩ := List.mem_map.mp recorded
  obtain ⟨cycle, market, clocks, session, _, _, _, _, made, _⟩ := sound.recorded record (List.mem_filter.mp member).1
  obtain ⟨_, row, _, same⟩ := mem_cyclePredictions.mp made
  rw [(predictionFromRow_some same).2.2.1, normalise_normalise]

theorem Sound.record_instant {record : Prediction} (member : record ∈ store.predictions) :
    store.instantOf record.cycleId = some record.predictionInstant := by
  obtain ⟨cycle, market, clocks, session, stored, _, clocked, _, made, _⟩ := sound.recorded record member
  obtain ⟨_, row, _, same⟩ := mem_cyclePredictions.mp made
  unfold Store.instantOf
  rw [stored, Option.bind_some, clocked, (predictionFromRow_some same).2.2.2.1]
  rfl

theorem Sound.records_final {next : Store} {record : Prediction} (soundNext : Sound setting next)
    (grows : Grows store next) (member : record ∈ store.predictions) (source : Source) :
    next.predictionsForCycle record.cycleId source = store.predictionsForCycle record.cycleId source := by
  obtain ⟨cycle, market, clocks, session, stored, ofMarket, clocked, known, _, others⟩ := sound.recorded record member
  obtain ⟨more, whole⟩ := grows.predictions
  have keys := soundNext.keys
  rw [← whole, List.map_append, List.nodup_append] at keys
  unfold Store.predictionsForCycle
  rw [← whole, List.filter_append]
  have none : (more.filter fun other => decide (other.cycleId = record.cycleId ∧ other.source = source)) = [] := by
    rw [List.filter_eq_nil_iff]
    intro other otherIn ofCycle
    have same := (of_decide_eq_true ofCycle).1
    have there : other ∈ next.predictions := whole ▸ List.mem_append_right _ otherIn
    obtain ⟨cycle', market', clocks', session', stored', ofMarket', clocked', known', made, _⟩ :=
      soundNext.recorded other there
    -- the other record is one of those the cycle was recorded with
    rw [same, grows.snapshot stored, Option.some_inj] at stored'
    subst stored'
    cases ofMarket.symm.trans ofMarket'
    cases clocked.symm.trans clocked'
    cases known.symm.trans known'
    exact keys.2.2 _ (others other made) _ (List.mem_map_of_mem otherIn) rfl
  rw [none, List.append_nil]

end Reads
end C3po.Official
