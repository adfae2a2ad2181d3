import C3po.Official.Orders

/-! Every interleaving of the calls of the official selection, from an empty store.

A call is verified alone; in a pool of them the store only moves by the rules. Hence each
generation of a reached store was chained by one step of the rules, and what that step was
is kept in the history.
-/

set_option autoImplicit false

namespace C3po.Official
open C3po.Library
open C3po.Prices (normalise)

variable {Digest : Type} {setting : Setting Digest}

/-- A call of a producer, of the nightly pass or of the mesa. Behind the persistence hook a
targeted cycle is admitted only through its publication or its replay. -/
inductive Call (setting : Setting Digest) where
  | publish (cycle : Cycle) (produced : setting.producible cycle)
  | replay (cycleId : ℕ)
  | activate
  | direct (symbol : String) (cycleId : ℕ) (unhooked : ¬ setting.recordedFirst)
  | bootstrap
  | select (order : Order Digest)
  | freeze (now until' : Int) (reason : String)

variable [DecidableEq Digest]

def Call.body : Call setting → Process (Option Generation)
  | .publish cycle _ => saveAnalysisSnapshot setting.calendars cycle
  | .replay cycleId => replaySnapshot setting.calendars cycleId
  | .activate => activateGenerationIfChanged setting.calendars
  | .direct symbol cycleId _ => admitTargetedCycle setting.calendars symbol cycleId
  | .bootstrap => bootstrapOfficialSelection setting.calendars
  | .select order => do
      let answer ← selectGeneration setting.calendars setting.receipts order
      pure answer.toOption
  | .freeze now until' reason => do
      let answer ← freezeSelection setting.calendars now until' reason
      pure answer.toOption

theorem Call.accounted {store : Store} (call : Call setting) (sound : Sound setting store) :
    (official setting).Holds call.body [] store fun answer log _ => Accounted [] answer log := by
  have automatic : ∀ {program : Process (Option Generation)},
      (official setting).Holds program [] store (fun result log _ => AutoOutcome [] result log) →
      (official setting).Holds program [] store fun answer log _ => Accounted [] answer log := fun holds =>
    Protocol.Holds.mono holds fun _ _ _ _ outcome => outcome.accounted
  have ordered : ∀ {program : Process (Except Refusal Generation)},
      (official setting).Holds program [] store (fun result log _ => Outcome [] result log) →
      (official setting).Holds (do let answer ← program; pure answer.toOption) [] store
        fun answer log _ => Accounted [] answer log := by
    intro program holds
    refine Protocol.Holds.bind (Protocol.Holds.mono holds fun result log next _ outcome => ?_)
    cases result with
    | ok generation => exact fun _ _ => .inr ⟨generation, rfl, outcome⟩
    | error refusal => exact fun _ _ => .inl outcome
  cases call with
  | publish cycle produced => exact automatic (saveAnalysisSnapshot_spec sound produced)
  | replay cycleId => exact automatic (replaySnapshot_spec sound)
  | activate => exact automatic (activateGenerationIfChanged_spec sound)
  | direct symbol cycleId unhooked => exact automatic (admitTargetedCycle_spec sound fun hooked => absurd hooked unhooked)
  | bootstrap => exact bootstrapOfficialSelection_spec sound
  | select order => exact ordered (selectGeneration_spec sound)
  | freeze now until' reason => exact ordered (freezeSelection_spec sound)

abbrev Calls (setting : Setting Digest) := Pool (Call setting) Store Reading (Option Generation)

/-- Some calls run on. -/
def Continues (setting : Setting Digest) : Calls setting → Calls setting → Prop :=
  Pool.Run Call.body setting.allowed

/-- Every process of the pool is on its way to what its call does. -/
def Verified (pool : Calls setting) : Prop :=
  ∀ process ∈ pool.running, (official setting).Holds process.program process.log pool.store
    fun answer log _ => Accounted [] answer log

theorem calls_verified {pool next : Calls setting} (run : Continues setting pool next)
    (sound : Sound setting pool.store) (verified : Verified pool) :
    (official setting).Later pool.store next.store ∧ Verified next := by
  have each : ∀ (call : Call setting) store, (official setting).keeps store →
      (official setting).Holds call.body [] store fun answer log _ => Accounted [] answer log :=
    fun call _ sound => call.accounted sound
  exact Pool.run_verified each run sound verified

/-- A state that calls on an empty store reach. -/
structure Reached (setting : Setting Digest) where
  pool : Calls setting
  run : Continues setting ⟨Store.empty, []⟩ pool

namespace Reached
variable (reached : Reached setting)

def store : Store := reached.pool.store

theorem verified : (official setting).Later Store.empty reached.store ∧ Verified reached.pool :=
  calls_verified reached.run (sound_empty setting) fun _ member => nomatch member

theorem later : (official setting).Later Store.empty reached.store := reached.verified.1

theorem sound : Sound setting reached.store := reached.later.keeps (sound_empty setting)

theorem continues {next : Calls setting} (run : Continues setting reached.pool next) :
    (official setting).Later reached.store next.store :=
  (calls_verified run reached.sound reached.verified.2).1

theorem accounted {call : Call setting} {answer : Option Generation} {log : List (Event Store Reading)}
    (finished : ⟨call, .done answer, log⟩ ∈ reached.pool.running) : Accounted [] answer log :=
  reached.verified.2 _ finished reached.store (Protocol.Later.refl reached.store)

/-- From no call to one that is finished, run alone. -/
def execute (call : Call setting) (answer : Reading)
    (possible : ∀ log, (∀ other, .answered other ∈ log → other = answer) → setting.allowed log answer) :
    Reached setting where
  pool :=
    { store := (call.body.execute answer [] reached.store).2.2
      running := reached.pool.running ++
        [⟨call, .done (call.body.execute answer [] reached.store).1, (call.body.execute answer [] reached.store).2.1⟩] }
  run := (reached.run.tail (.start reached.pool call)).trans
    (Program.run_execute possible call.body fun _ member => nomatch member)

end Reached

def Reached.empty (setting : Setting Digest) : Reached setting := ⟨⟨Store.empty, []⟩, Relation.ReflTransGen.refl⟩

section History
omit [DecidableEq Digest]
variable {store : Store}

/-- The generation at a place was chained by a step of the rules on an earlier store, whose
chain was the one before that place. -/
structure Chained (setting : Setting Digest) (before store : Store) (place : ℕ) (generation : Generation) : Prop where
  sound : Sound setting before
  since : (official setting).Later before store
  chain : before.generations = store.generations.take place
  fits : Automatic setting before generation ∨ Ordered setting before generation

theorem Chained.step {before next : Store} {place : ℕ} {generation : Generation}
    (chained : Chained setting before store place generation) (move : Move setting store next)
    (bound : place ≤ store.generations.length) : Chained setting before next place generation := by
  obtain ⟨more, whole⟩ := move.grows.generations
  refine { chained with since := chained.since.trans (Relation.ReflTransGen.single move), chain := ?_ }
  rw [chained.chain, ← whole, List.take_append_of_le_length bound]

theorem Move.chains {next : Store} (move : Move setting store next) :
    next.generations = store.generations ∨ ∃ generation, next.generations = store.generations ++ [generation] ∧
      (Automatic setting store generation ∨ Ordered setting store generation) := by
  cases move with
  | published => exact .inl rfl
  | recorded => exact .inl (insertPredictions_keeps _ _).2
  | automatic fits => exact .inr ⟨_, rfl, .inl fits⟩
  | ordered fits => exact .inr ⟨_, rfl, .inr fits⟩

theorem history (later : (official setting).Later Store.empty store) {place : ℕ} {generation : Generation}
    (found : store.generations[place]? = some generation) : ∃ before, Chained setting before store place generation := by
  induction later with
  | refl => cases found
  | tail reached move ih =>
    rename_i middle next
    have sound : Sound setting middle := Protocol.Later.keeps reached (sound_empty setting)
    have earlier : middle.generations[place]? = some generation →
        ∃ before, Chained setting before next place generation := fun foundEarlier => by
      obtain ⟨before, chained⟩ := ih foundEarlier
      exact ⟨before, chained.step move (List.getElem?_eq_some_iff.mp foundEarlier).1.le⟩
    rcases move.chains with same | ⟨new, same, fits⟩
    · exact earlier (same ▸ found)
    · rw [same] at found
      rcases lt_trichotomy place middle.generations.length with before | rfl | after
      · exact earlier (List.getElem?_append_left before ▸ found)
      · rw [List.getElem?_concat_length] at found
        cases found
        refine ⟨middle, sound, Relation.ReflTransGen.single move, ?_, fits⟩
        rw [same, List.take_append_of_le_length le_rfl, List.take_length]
      · rw [List.getElem?_eq_none (by rw [List.length_append]; exact after)] at found
        cases found

theorem Chained.tip {before : Store} {place : ℕ} {head generation : Generation}
    (chained : Chained setting before store (place + 1) generation)
    (found : store.generations[place]? = some head) : before.tip = some head := by
  unfold Store.tip
  rw [chained.chain, List.take_add_one, found]
  simp

end History

section Sample

/-- A hash of canonical JSON that is the JSON itself. -/
inductive Fingerprint where
  | unset
  | of (payload : Payload Fingerprint)

noncomputable instance : DecidableEq Fingerprint := Classical.decEq _

def sampleRow (symbol : String) : Row :=
  { symbol, price := some 10, ourTp := some 12, buyIn := some 9, internalTp := some 11, internalBuyIn := some 8
    score := none, status := none, expectedTotalReturnPercent := none, tpValidationStatus := none
    internalScore := some 60, internalStatus := some "watch", internalExpectedTotalReturnPercent := some 15
    internalTpValidationStatus := none, upsidePercent := none, priceVsBuyInPercent := none
    publicConsensusTp := none, consensusWeightPercent := none, valuationConfidence := none }

def sampleCycle (analysisType : AnalysisType) (entityKey symbol : String) (publishedAt : Int) : Cycle :=
  { id := 0, analysisType, entityKey, publishedAt, rerunOf := none, declaredInstant := none
    methodologyVersion := some "v1", methodologyVersionId := "", universeSize := none
    rows := [sampleRow symbol], row := some (sampleRow symbol) }

/-- Calendars that always answer, clocks that do not run backwards within a call, cycles of
plain symbols, and admissions behind the persistence hook. -/
def sampleSetting : Setting Fingerprint where
  calendars := ⟨fun _ instant => some instant, fun instant => instant + freezeMax⟩
  receipts := ⟨.of, fun _ _ same => by injection same, .unset⟩
  allowed := fun log later => ∀ earlier, .answered earlier ∈ log → earlier.clock ≤ later.clock
  producible := fun cycle => ∀ row ∈ cycle.cycleRows, Store.lookupKey row.symbol = normalise row.symbol
  recordedFirst := True

/-- A call run alone at an hour of the wall clock. -/
noncomputable def Reached.sample (reached : Reached sampleSetting) (call : Call sampleSetting) (clock : Int) :
    Reached sampleSetting :=
  reached.execute call ⟨clock, true⟩ fun log alike earlier member => by rw [alike earlier member]

/-- A plain cycle published and recorded. -/
noncomputable def Reached.samplePublish (reached : Reached sampleSetting) (analysisType : AnalysisType)
    (entityKey symbol : String) (publishedAt : Int) (plain : Store.lookupKey symbol = normalise symbol := by decide) :
    Reached sampleSetting :=
  reached.sample (.publish (sampleCycle analysisType entityKey symbol publishedAt) (by
    intro row member
    have own : row = sampleRow symbol := by
      cases analysisType <;> exact List.mem_singleton.mp member
    rw [own]
    exact plain)) (publishedAt + 1)

/-- Three markets and one targeted security are published, one after the other. -/
noncomputable def sampleReached : Reached sampleSetting :=
  ((((Reached.empty sampleSetting).samplePublish .universe "B3_UNIVERSE" "PETR4" 10).samplePublish .universe
    "NASDAQ_UNIVERSE" "AAPL" 20).samplePublish .universe "NYSE_UNIVERSE" "KO" 30).samplePublish .targeted
      "ABEV3" "ABEV3" 40

end Sample

end C3po.Official

/-! The official selection is one linear chain in time, and its history never changes. -/

namespace C3po.Official
open C3po.Library

variable {Digest : Type} {setting : Setting Digest} {store : Store}

/-- A value that tells the places apart is told once. -/
theorem nodup_of_places {A B : Type} {items : List A} {value : A → B}
    (apart : ∀ (first second : ℕ) (one other : A), items[first]? = some one → items[second]? = some other →
      value one = value other → first = second) : (items.map value).Nodup := by
  rw [List.nodup_iff_getElem?_ne_getElem?]
  intro first second before bound same
  rw [List.length_map] at bound
  rw [List.getElem?_map, List.getElem?_map, List.getElem?_eq_getElem (before.trans bound),
    List.getElem?_eq_getElem bound, Option.map_some, Option.map_some, Option.some_inj] at same
  have alike := apart first second _ _ (List.getElem?_eq_getElem (before.trans bound)) (List.getElem?_eq_getElem bound) same
  omega

section Places
variable (sound : Sound setting store)
include sound

theorem Sound.id_of_place {place : ℕ} {generation : Generation} (found : store.generations[place]? = some generation) :
    generation.id = place := (sound.placed place generation found).1

theorem Sound.previous_of_place {place : ℕ} {generation : Generation}
    (found : store.generations[place]? = some generation) :
    generation.previous = if place = 0 then none else some (place - 1) := (sound.placed place generation found).2

theorem Sound.ids_nodup : (store.generations.map Generation.id).Nodup :=
  nodup_of_places fun first second one other atFirst atSecond same => by
    rw [sound.id_of_place atFirst, sound.id_of_place atSecond] at same
    exact same

theorem Sound.previous_nodup : (store.generations.map Generation.previous).Nodup :=
  nodup_of_places fun first second one other atFirst atSecond same => by
    rw [sound.previous_of_place atFirst, sound.previous_of_place atSecond] at same
    split_ifs at same with firstRoot secondRoot secondRoot
    · omega
    · rw [Option.some_inj] at same
      omega

theorem Sound.neighbours {head next : Generation} (headIn : head ∈ store.generations) (nextIn : next ∈ store.generations)
    (linked : next.previous = some head.id) :
    ∃ place : ℕ, store.generations[place]? = some head ∧ store.generations[place + 1]? = some next := by
  obtain ⟨first, atFirst⟩ := List.mem_iff_getElem?.mp headIn
  obtain ⟨second, atSecond⟩ := List.mem_iff_getElem?.mp nextIn
  rw [sound.previous_of_place atSecond, sound.id_of_place atFirst] at linked
  split_ifs at linked with root
  rw [Option.some_inj] at linked
  have place : second = first + 1 := by omega
  exact ⟨first, atFirst, place ▸ atSecond⟩

theorem Sound.successor_none {generation : Generation} (member : generation ∈ store.generations) :
    store.successor generation.id = none ↔ store.tip = some generation := by
  obtain ⟨place, found⟩ := List.mem_iff_getElem?.mp member
  have id := sound.id_of_place found
  have bound := (List.getElem?_eq_some_iff.mp found).1
  unfold Store.successor Store.tip
  rw [List.find?_eq_none, List.getLast?_eq_getElem?, id]
  constructor
  · intro none
    by_contra apart
    have inside : place + 1 < store.generations.length := by
      by_contra outside
      have last : store.generations.length - 1 = place := by omega
      exact apart (last ▸ found)
    have next := List.getElem?_eq_getElem inside
    refine none _ (List.mem_of_getElem? next) (decide_eq_true ?_)
    rw [sound.previous_of_place next]
    rfl
  · intro last other otherIn same
    obtain ⟨second, atSecond⟩ := List.mem_iff_getElem?.mp otherIn
    have linked := of_decide_eq_true same
    rw [sound.previous_of_place atSecond] at linked
    have inside := (List.getElem?_eq_some_iff.mp atSecond).1
    have lastId := sound.id_of_place last
    split_ifs at linked with root
    rw [Option.some_inj] at linked
    omega

end Places

theorem selectionAt_stable {next : Store} {head : Generation} {instant : Int} (sound : Sound setting next)
    (grows : Grows store next) (tip : store.tip = some head) (before : instant < head.activatedAt) :
    next.selectionAt instant = store.selectionAt instant := by
  obtain ⟨more, whole⟩ := grows.generations
  have later : ∀ generation ∈ more, head.activatedAt ≤ generation.activatedAt := by
    have ordered := sound.ordered
    rw [← whole, List.pairwise_append] at ordered
    exact fun generation member => ordered.2.2 head (tip_mem tip) generation member
  have none : (more.filter fun generation => decide (generation.activatedAt ≤ instant)) = [] := by
    rw [List.filter_eq_nil_iff]
    intro generation member early
    have early := of_decide_eq_true early
    exact absurd (before.trans_le (later generation member)) (not_lt.mpr early)
  unfold Store.selectionAt
  rw [← whole, List.filter_append, none, List.append_nil]

section Links
variable {before : Store} {place : ℕ} {generation : Generation}

theorem Chained.previous (chained : Chained setting before store place generation) :
    generation.previous = before.tip.map Generation.id := by
  rcases chained.fits with automatic | ordered
  · exact automatic.previous
  · exact ordered.previous

theorem Chained.tip_mem {head : Generation} (chained : Chained setting before store place generation)
    (found : before.tip = some head) : head ∈ store.generations := by
  have member := Official.tip_mem found
  rw [chained.chain] at member
  exact List.mem_of_mem_take member

theorem Chained.automatic (chained : Chained setting before store place generation)
    (unmarked : generation.receipt.explicit = false) : Automatic setting before generation := by
  rcases chained.fits with automatic | ordered
  · exact automatic
  · rw [ordered.marked] at unmarked
    cases unmarked

theorem Chained.ordered (chained : Chained setting before store place generation)
    (marked : generation.receipt.explicit = true) : Ordered setting before generation := by
  rcases chained.fits with automatic | ordered
  · rw [automatic.unmarked] at marked
    cases marked
  · exact ordered

end Links

variable [DecidableEq Digest]

/-- What every interleaving keeps of the selection: one root and one successor each, clocks
that never go back and pass the predecessor's at an automatic generation, the head at the
tip, automatic compositions over the generation they chain on, writes that are refused or
answered, and instants before the head that see the same forever. -/
structure LinearHistory (reached : Reached setting) : Prop where
  ids : (reached.store.generations.map Generation.id).Nodup
  previous : (reached.store.generations.map Generation.previous).Nodup
  linked : ∀ generation ∈ reached.store.generations, ∀ id, generation.previous = some id →
    ∃ head ∈ reached.store.generations, head.id = id
  clocks : ∀ head ∈ reached.store.generations, ∀ next ∈ reached.store.generations, next.previous = some head.id →
    head.activatedAt ≤ next.activatedAt ∧ (next.receipt.explicit = false → head.activatedAt < next.activatedAt)
  head : ∀ generation ∈ reached.store.generations,
    reached.store.latestSelection = some generation ↔ reached.store.successor generation.id = none
  served : reached.store.generations ≠ [] → reached.store.latestSelection.isSome
  composed : ∀ generation ∈ reached.store.generations, generation.receipt.explicit = false →
    ∃ head : Option Generation, head.map Generation.id = generation.previous ∧
      (∀ known, head = some known → known ∈ reached.store.generations) ∧ Composed head generation
  refused : ∀ call log, ⟨call, .done none, log⟩ ∈ reached.pool.running → Silent log
  answered : ∀ call generation log, ⟨call, .done (some generation), log⟩ ∈ reached.pool.running →
    Silent log ∨ Inserted generation [] log
  past : ∀ next : Calls setting, Continues setting reached.pool next → ∀ head, reached.store.latestSelection = some head →
    ∀ instant, instant < head.activatedAt → next.store.selectionAt instant = reached.store.selectionAt instant

theorem quiet_silent {log : List (Event Store Reading)} (quiet : Quiet [] log) : Silent log := by
  obtain ⟨more, rfl, silent⟩ := quiet
  exact silent

/-- The official selection is one linear chain in time. -/
theorem selection_linear (reached : Reached setting) : LinearHistory reached where
  ids := reached.sound.ids_nodup
  previous := reached.sound.previous_nodup
  linked := by
    intro generation member id linked
    obtain ⟨place, found⟩ := List.mem_iff_getElem?.mp member
    obtain ⟨before, chained⟩ := history reached.later found
    rw [chained.previous] at linked
    obtain ⟨head, tip, rfl⟩ := Option.map_eq_some_iff.mp linked
    exact ⟨head, chained.tip_mem tip, rfl⟩
  clocks := by
    intro head headIn next nextIn linked
    obtain ⟨place, _, found⟩ := reached.sound.neighbours headIn nextIn linked
    obtain ⟨before, chained⟩ := history reached.later found
    have tip := chained.tip ‹_›
    refine ⟨?_, fun unmarked => (chained.automatic unmarked).clock head tip⟩
    rcases chained.fits with automatic | ordered
    · exact (automatic.clock head tip).le
    · exact ordered.clock head tip
  head := by
    intro generation member
    rw [reached.sound.head, reached.sound.successor_none member]
  served := by
    intro some
    rw [reached.sound.head]
    unfold Store.tip
    rw [List.getLast?_isSome]
    exact some
  composed := by
    intro generation member unmarked
    obtain ⟨place, found⟩ := List.mem_iff_getElem?.mp member
    obtain ⟨before, chained⟩ := history reached.later found
    exact ⟨before.tip, chained.previous.symm, fun known tip => chained.tip_mem tip, (chained.automatic unmarked).composed⟩
  refused := by
    intro call log finished
    rcases reached.accounted finished with quiet | ⟨generation, same, _⟩
    · exact quiet_silent quiet
    · cases same
  answered := by
    intro call generation log finished
    rcases reached.accounted finished with quiet | ⟨generation, same, inserted⟩
    · exact .inl (quiet_silent quiet)
    · cases same
      exact .inr inserted
  past := by
    intro next run head found instant before
    have later := reached.continues run
    rw [reached.sound.head] at found
    exact selectionAt_stable (later.keeps reached.sound) (later_grows later) found before

end C3po.Official

/-! An order of the mesa stands until the next one.

The automatic writers only move a market or a symbol to what was predicted after the
order, and wait for the end of its freeze.
-/

namespace C3po.Official
open C3po.Library

variable {Digest : Type} {setting : Setting Digest} {store : Store}

def PredictedAfter (store : Store) (instant : Int) (cycleId : ℕ) : Prop :=
  ∃ predicted, store.instantOf cycleId = some predicted ∧ instant < predicted

/-- A generation under an order: its source, and of every market and symbol what the order
holds or what was predicted after it. -/
structure Under (store : Store) (order generation : Generation) : Prop where
  source : generation.source = order.source
  cycles : ∀ market, generation.cycles market = order.cycles market ∨
    PredictedAfter store order.activatedAt (generation.cycles market)
  targeted : ∀ symbol cycleId, generation.targeted.get? symbol = some cycleId →
    order.targeted.get? symbol = some cycleId ∨ PredictedAfter store order.activatedAt cycleId
  kept : ∀ symbol, (order.targeted.get? symbol).isSome → (generation.targeted.get? symbol).isSome

theorem Under.refl (store : Store) (order : Generation) : Under store order order :=
  ⟨rfl, fun _ => .inl rfl, fun _ _ held => .inl held, fun _ held => held⟩

section Latest
variable {place : ℕ} {order : Generation}

theorem Sound.latestExplicit (sound : Sound setting store) (found : store.generations[place]? = some order)
    (marked : order.receipt.explicit = true)
    (rest : ∀ (later : ℕ) (other : Generation), place < later → store.generations[later]? = some other →
      other.receipt.explicit = false) : store.latestExplicitSelection = some order := by
  have whole : store.generations = store.generations.take place ++ order :: store.generations.drop (place + 1) := by
    obtain ⟨bound, here⟩ := List.getElem?_eq_some_iff.mp found
    rw [← here, List.cons_getElem_drop_succ, List.take_append_drop]
  have after : (store.generations.drop (place + 1)).filter (fun other => other.receipt.explicit) = [] := by
    rw [List.filter_eq_nil_iff]
    intro other member
    obtain ⟨offset, there⟩ := List.mem_iff_getElem?.mp member
    rw [List.getElem?_drop] at there
    rw [rest _ other (by omega) there]
    decide
  have before : ∀ generation ∈ store.generations.take place, generation.activatedAt ≤ order.activatedAt := by
    have ordered := sound.ordered
    rw [whole, List.pairwise_append] at ordered
    exact fun generation member => ordered.2.2 generation member order List.mem_cons_self
  unfold Store.latestExplicitSelection
  rw [whole, List.filter_append, List.filter_cons_of_pos (by rw [marked]), after]
  exact newest_snoc fun generation member => before generation (List.mem_filter.mp member).1

end Latest

theorem Under.step {before : Store} {order head generation : Generation} (under : Under store order head)
    (fits : Automatic setting before generation) (tip : before.tip = some head) (grows : Grows before store)
    (inForce : before.latestExplicitSelection = some order) : Under store order generation where
  source := by
    rw [fits.composed.source, tip]
    exact under.source
  cycles := by
    intro market
    rcases fits.chosen market with ⟨other, found, same, _⟩ | ⟨_, after⟩
    · cases tip.symm.trans found
      rw [same]
      exact under.cycles market
    · by_cases same : generation.cycles market = head.cycles market
      · rw [same]
        exact under.cycles market
      · obtain ⟨predicted, found, later⟩ := after head tip same order inForce
        exact .inr ⟨predicted, grows.instant found, later⟩
  targeted := by
    intro symbol cycleId held
    rw [fits.composed.targeted, tip] at held
    rcases Option.or_eq_some_iff.mp held with admitted | ⟨_, carried⟩
    · obtain ⟨predicted, found, later⟩ := (fits.admitted symbol cycleId admitted).2.1 order inForce
      exact .inr ⟨predicted, grows.instant found, later⟩
    · exact under.targeted symbol cycleId carried
  kept := by
    intro symbol held
    rw [fits.composed.targeted, tip, Option.isSome_or, Bool.or_eq_true]
    exact .inr (under.kept symbol held)

theorem under_order (later : (official setting).Later Store.empty store) {place steps : ℕ} {order generation : Generation}
    (found : store.generations[place]? = some order) (marked : order.receipt.explicit = true)
    (there : store.generations[place + steps]? = some generation)
    (rest : ∀ (between : ℕ) (other : Generation), place < between → between ≤ place + steps →
      store.generations[between]? = some other → other.receipt.explicit = false) :
    Under store order generation := by
  induction steps generalizing generation with
  | zero =>
    cases found.symm.trans there
    exact Under.refl store order
  | succ steps ih =>
    have inside : place + steps < store.generations.length := by
      have bound := (List.getElem?_eq_some_iff.mp there).1
      omega
    have atHead := List.getElem?_eq_getElem inside
    have under := ih atHead fun between other after before => rest between other after (by omega)
    obtain ⟨before, chained⟩ : ∃ before, Chained setting before store (place + steps + 1) generation := history later there
    have fits := chained.automatic (rest _ generation (by omega) le_rfl there)
    refine under.step fits (chained.tip atHead) (later_grows chained.since) ?_
    have earlier : ∀ (position : ℕ) (other : Generation), before.generations[position]? = some other →
        position < place + steps + 1 ∧ store.generations[position]? = some other := by
      intro position other seen
      rw [chained.chain, List.getElem?_take] at seen
      split_ifs at seen with bound
      exact ⟨bound, seen⟩
    have foundBefore : before.generations[place]? = some order := by
      rw [chained.chain, List.getElem?_take, if_pos (by omega)]
      exact found
    refine chained.sound.latestExplicit foundBefore marked fun position other after seen => ?_
    obtain ⟨bound, seen⟩ := earlier position other seen
    exact rest position other after (by omega) seen

variable [DecidableEq Digest]

/-- What an order of the mesa decides, in every interleaving: the freeze where the wall clock
of a process does not run backwards within a call. -/
structure OrdersStand (reached : Reached setting) : Prop where
  under : ∀ (place steps : ℕ) (order generation : Generation), reached.store.generations[place]? = some order →
    order.receipt.explicit = true → reached.store.generations[place + steps]? = some generation →
    (∀ (between : ℕ) (other : Generation), place < between → between ≤ place + steps →
      reached.store.generations[between]? = some other → other.receipt.explicit = false) →
    Under reached.store order generation
  thawed : setting.Steady → ∀ head ∈ reached.store.generations, ∀ next ∈ reached.store.generations, next.previous = some head.id →
    next.receipt.explicit = false → ∀ ends, head.freezeEnd = some ends → ends ≤ next.activatedAt

/-- Orders stand until the next one. -/
theorem orders_stand (reached : Reached setting) : OrdersStand reached where
  under := fun place steps order generation found marked there rest =>
    under_order reached.later found marked there rest
  thawed := by
    intro steady head headIn next nextIn linked unmarked ends frozen
    obtain ⟨place, atHead, found⟩ := reached.sound.neighbours headIn nextIn linked
    obtain ⟨before, chained⟩ := history reached.later found
    exact (chained.automatic unmarked).thawed steady head ends (chained.tip atHead) frozen

end C3po.Official

/-! The source changes by an order only, and to the internal one only under the accepted
receipt: the hash of the report on the predecessor over the very composition chained.
-/

namespace C3po.Official
open C3po.Library

variable {Digest : Type} {setting : Setting Digest} {store : Store}

/-- A generation that takes the internal source from a predecessor on the blend. -/
structure Switch (store : Store) (head next : Generation) : Prop where
  headIn : head ∈ store.generations
  nextIn : next ∈ store.generations
  linked : next.previous = some head.id
  before : head.source = .blend
  after : next.source = .internal

section Origins
variable {head next : Generation}

theorem Chained.source {before : Store} {place : ℕ} (chained : Chained setting before store place next)
    (tip : before.tip = some head) (apart : next.source ≠ head.source) : next.receipt.explicit = true := by
  rcases chained.fits with automatic | ordered
  · refine absurd ?_ apart
    rw [automatic.composed.source, tip]
    rfl
  · exact ordered.marked

theorem Chained.accepted {before : Store} {place : ℕ} (chained : Chained setting before store place next)
    (tip : before.tip = some head) (blend : head.source = .blend) (internal : next.source = .internal) :
    Accepted setting.receipts store head next := by
  have marked := chained.source tip (by rw [blend, internal]; decide)
  have whole := chained.sound.whole head (Official.tip_mem tip)
  rcases (chained.ordered marked).content with ⟨other, found, same⟩ | ⟨own, receipt⟩
  · cases tip.symm.trans found
    rw [same.source, blend] at internal
    cases internal
  · obtain ⟨other, found, accepted⟩ := receipt internal
    cases tip.symm.trans found
    exact AcceptedFor.later chained.sound whole.recorded own.recorded chained.since accepted

theorem Switch.accepted (later : (official setting).Later Store.empty store) (switch : Switch store head next) :
    Accepted setting.receipts store head next := by
  have sound : Sound setting store := later.keeps (sound_empty setting)
  obtain ⟨place, atHead, found⟩ := sound.neighbours switch.headIn switch.nextIn switch.linked
  obtain ⟨before, chained⟩ := history later found
  exact chained.accepted (chained.tip atHead) switch.before switch.after

end Origins

section Binding
variable {receipts : Receipts Digest} {head next : Generation}

theorem report_names {proposal : Proposal} {report : Aggregate Digest}
    (evaluated : (beforeAfterReport receipts head proposal).evaluate store = some report) :
    ∃ comparisons, report = aggregateOf receipts head proposal comparisons := by
  unfold beforeAfterReport at evaluated
  generalize markets.foldlM (addMarket head proposal) [] = reads at evaluated
  induction reads generalizing store with
  | done comparisons =>
    cases evaluated
    exact ⟨comparisons, rfl⟩
  | act effect rest ih => exact ih store evaluated
  | ask rest _ => cases evaluated

theorem accepted_binds {other : Store} {head' next' : Generation} (accepted : Accepted receipts store head next)
    (accepted' : Accepted receipts other head' next') : head.id = head'.id ∧ next.cycles = next'.cycles ∧
      sortedTargeted next.targeted = sortedTargeted next'.targeted ∧ next.sourceVersion = next'.sourceVersion := by
  obtain ⟨report, evaluated, hash⟩ := accepted
  obtain ⟨report', evaluated', hash'⟩ := accepted'
  obtain ⟨comparisons, rfl⟩ := report_names evaluated
  obtain ⟨comparisons', rfl⟩ := report_names evaluated'
  have same := receipts.injective (hash.trans hash'.symm)
  simp only [Payload.aggregate.injEq, aggregateOf, Aggregate.mk.injEq] at same
  obtain ⟨ids, _, _, _, cycles, _, targeted, version, _⟩ := same
  refine ⟨ids, ?_, ?_, version⟩
  · funext market
    simp only [markets, List.map_cons, List.map_nil, List.cons.injEq, Prod.mk.injEq, true_and, and_true] at cycles
    cases market with
    | b3 => exact cycles.1
    | nasdaq => exact cycles.2.1
    | nyse => exact cycles.2.2
  · have entries := receipts.injective targeted
    simp only [Payload.targeted.injEq] at entries
    exact dict_ext entries

end Binding

variable [DecidableEq Digest]

/-- What the receipts decide, in every interleaving. -/
structure SwitchesBound (reached : Reached setting) : Prop where
  explicit : ∀ head ∈ reached.store.generations, ∀ next ∈ reached.store.generations, next.previous = some head.id →
    next.source ≠ head.source → next.receipt.explicit = true
  accepted : ∀ head next, Switch reached.store head next → ∃ report,
    (beforeAfterReport setting.receipts head ⟨next.cycles, next.targeted, next.sourceVersion⟩).evaluate reached.store =
      some report ∧ reportSha256 setting.receipts report = setting.receipts.accepted
  root : ∀ generation ∈ reached.store.generations, generation.previous = none → generation.source = .blend
  once : ∀ head next head' next', Switch reached.store head next → Switch reached.store head' next' →
    head = head' ∧ next = next'
  composition : ∀ other : Reached setting, ∀ head next head' next', Switch reached.store head next →
    Switch other.store head' next' → next.cycles = next'.cycles ∧ next.targeted = next'.targeted ∧
      next.sourceVersion = next'.sourceVersion

/-- The source changes by orders only, and a switch is the one its receipt is about. -/
theorem switches_bound (reached : Reached setting) : SwitchesBound reached where
  explicit := by
    intro head headIn next nextIn linked apart
    obtain ⟨place, atHead, found⟩ := reached.sound.neighbours headIn nextIn linked
    obtain ⟨before, chained⟩ := history reached.later found
    exact chained.source (chained.tip atHead) apart
  accepted := fun head next switch => switch.accepted reached.later
  root := by
    intro generation member root
    obtain ⟨place, found⟩ := List.mem_iff_getElem?.mp member
    obtain ⟨before, chained⟩ := history reached.later found
    rw [chained.previous, Option.map_eq_none_iff] at root
    rcases chained.fits with automatic | ordered
    · rw [automatic.composed.source, root]
      rfl
    · rcases ordered.content with ⟨head, tip, _⟩ | ⟨_, receipt⟩
      · rw [root] at tip
        cases tip
      · cases own : generation.source with
        | blend => rfl
        | internal =>
          obtain ⟨head, tip, _⟩ := receipt own
          rw [root] at tip
          cases tip
  once := by
    intro head next head' next' switch switch'
    have bound := accepted_binds (switch.accepted reached.later) (switch'.accepted reached.later)
    obtain ⟨place, atHead, atNext⟩ := reached.sound.neighbours switch.headIn switch.nextIn switch.linked
    obtain ⟨place', atHead', atNext'⟩ := reached.sound.neighbours switch'.headIn switch'.nextIn switch'.linked
    have same : place = place' := by
      rw [← reached.sound.id_of_place atHead, bound.1, reached.sound.id_of_place atHead']
    subst same
    exact ⟨Option.some_inj.mp (atHead.symm.trans atHead'), Option.some_inj.mp (atNext.symm.trans atNext')⟩
  composition := by
    intro other head next head' next' switch switch'
    have bound := accepted_binds (switch.accepted reached.later) (switch'.accepted other.later)
    have tidy := (reached.sound.whole next switch.nextIn).tidy
    have tidy' := (other.sound.whole next' switch'.nextIn).tidy
    rw [tidy, tidy'] at bound
    exact bound.2

end C3po.Official
