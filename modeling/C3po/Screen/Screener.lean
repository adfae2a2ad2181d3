import C3po.Official.Final

/-! The B3 screener as it serves: candidates and matrix of the official selection.

Each process has one screener, whose attributes are read and written one at a time. The
locks of the source only rule interleavings out; here none is ruled out. Persisted
candidates are shared, and the store of the selection is that of its writers.
-/

set_option autoImplicit false

namespace C3po.Screen
open C3po.Library
open C3po.Official (AnalysisType Calendars Cycle Generation Prediction Reading Row ServedRow Setting Store
  displayRow positive saveAnalysisSnapshot servedRow universeKey)

/-- A served number of a symbol, rounded for display. -/
structure Item where
  symbol : String
  ourTp : Option ℚ
  buyIn : Option ℚ
  deriving DecidableEq

structure Response where
  officialGenerationId : Option ℕ
  items : List Item
  generatedAt : Int
  deriving DecidableEq

/-- A persisted candidate screen: whether it is of this methodology, and the response it
holds if it validates. -/
structure Candidate where
  publishedAt : Int
  current : Bool
  outputs : Option Response

structure Screener where
  cached : Option Response
  rows : List Row
  basisAt : Option Int
  matrixCached : Option Response
  matrixCacheExpiresAt : Option Int
  persistedCheckedAt : Option Int

structure World where
  store : Store
  candidates : List Candidate
  screeners : ℕ → Screener

/-- What a process is told from outside: its clock and calendar, the rows a build values,
the replacements a refresh finds, and live quotes, each maybe without a price. -/
structure Answer where
  reading : Reading
  rows : List Row
  replacement : Row → Option Row
  replacing : Bool
  quotes : String → Option (Option ℚ)

/-- What the screener is deployed with, and the columns of a served row that place it. -/
structure Config where
  databaseUrl : Bool
  methodologyVersion : String
  methodologyId : String
  round2 : ℚ → ℚ
  issuer : ServedRow → String
  adtv : ServedRow → ℚ
  powerZone : List ServedRow → ServedRow → Bool
  provisional : ServedRow → Bool

abbrev Script (A : Type) := Program World Answer A

def matrixQuoteCache : Int := 45000000
def persistedStatePoll : Int := 15000000

def World.setScreener (world : World) (process : ℕ) (screener : Screener) : World :=
  { world with screeners := Function.update world.screeners process screener }

/-- A process starts with nothing. -/
def Screener.fresh : Screener := ⟨none, [], none, none, none, none⟩

def World.initial : World := ⟨.empty, [], fun _ => .fresh⟩

section Rows

def shownRows (generation : Generation) (cycle : Cycle) (records : List Prediction) : List (String × ServedRow) :=
  records.filterMap fun record =>
    (displayRow cycle record.symbol).bind fun row =>
      (servedRow row record generation (generation.cycles .b3) .universe .b3).map fun served => (record.symbol, served)

def firstRows (entries : List (String × ServedRow)) : List ServedRow :=
  (entries.foldl (fun result entry => if result.contains entry.1 then result else result.insert entry.1 entry.2)
    Dict.empty).entries.map Prod.snd

variable (config : Config)

def deduped (rows : List ServedRow) : List ServedRow := firstRows (rows.map fun row => (config.issuer row, row))

def item (row : ServedRow) : Item := ⟨row.row.symbol, row.ourTp.map config.round2, row.buyIn.map config.round2⟩

def descending {K : Type} [LinearOrder K] (key : ServedRow → K) (rows : List ServedRow) : List ServedRow :=
  stableSort (fun row => OrderDual.toDual (key row)) rows

def upsideScore (row : ServedRow) : ℚ ×ₗ ℚ := toLex (row.row.upsidePercent.getD 0, row.row.score.getD 0)

/-- The ten candidates. -/
def rank (rows : List ServedRow) : List Item :=
  let matching := rows.filter fun row => row.row.status = some "full_match" && config.powerZone rows row
  ((descending upsideScore (deduped config (descending upsideScore matching))).take 10).map (item config)

def validated (row : ServedRow) : Bool := row.row.tpValidationStatus = some (some "validated")

def eligible (row : ServedRow) : Bool :=
  (positive row.ourTp).isSome && (positive row.buyIn).isSome && (validated row || config.provisional row)

def placedPrice (quotes : String → Option (Option ℚ)) (row : ServedRow) : Option ℚ :=
  positive ((quotes row.row.symbol).getD row.row.price)

def tpUpside (quotes : String → Option (Option ℚ)) (row : ServedRow) : ℚ :=
  (row.ourTp.getD 0 / (placedPrice quotes row).getD 1 - 1) * 100

def matrixItems (quotes : String → Option (Option ℚ)) (rows : List ServedRow) : List Item :=
  let rows := deduped config (descending (fun row => toLex (validated row, config.adtv row)) (rows.filter (eligible config)))
  (descending (tpUpside quotes) (rows.filter fun row => (placedPrice quotes row).isSome)).map (item config)

end Rows

/-- Whether a response may be served for the generation a request resolved. -/
def servesGeneration (generation : Option Generation) (response : Response) : Bool :=
  match generation with
  | none => response.officialGenerationId = none && response.items.isEmpty
  | some generation => response.officialGenerationId = some generation.id

def universeCycle (config : Config) (publishedAt : Int) (rows : List Row) : Cycle where
  id := 0
  analysisType := .universe
  entityKey := universeKey .b3
  publishedAt := publishedAt
  rerunOf := none
  declaredInstant := none
  methodologyVersion := some config.methodologyVersion
  methodologyVersionId := config.methodologyId
  universeSize := some rows.length
  rows := rows
  row := none

section Scripts
variable (config : Config) (calendars : Calendars) (process : ℕ)

def clock : Script Int := do
  let answer ← Program.answer
  pure answer.reading.clock

def look {A : Type} (field : Screener → A) : Script A := Program.read fun world => field (world.screeners process)

def assign (change : Screener → Screener) : Script Unit :=
  Program.write (fun world => world.setScreener process (change (world.screeners process))) fun _ => ()

def currentGeneration : Script (Option Generation) := Program.read fun world => world.store.latestSelection

/-- Nothing is there, or what is read again is older. -/
def outdated {A : Type} (field : Screener → Option A) (clock : A → Int) (publishedAt : Int) : Script Bool := do
  match ← look process field with
  | none => pure true
  | some _ => do
      let again ← look process field
      pure (again.all fun held => clock held < publishedAt)

def takeOutputs (outputs : Option Response) (newer : Bool) : Script Unit :=
  match outputs, newer with
  | some response, true => assign process fun screener => { screener with cached := some response }
  | _, _ => pure ()

def hydrateCandidates : Script Unit := do
  let candidate ← Program.read fun world : World => latest Candidate.publishedAt world.candidates
  match candidate.filter Candidate.current with
  | none => pure ()
  | some candidate => do
      let newer ← outdated process Screener.cached Response.generatedAt candidate.publishedAt
      takeOutputs process candidate.outputs newer

def takeBasis (basis : Cycle) (newer : Bool) : Script Unit :=
  if newer then do
    assign process fun screener => { screener with rows := basis.rows }
    assign process fun screener => { screener with basisAt := some basis.publishedAt }
    assign process fun screener => { screener with matrixCached := none }
    assign process fun screener => { screener with matrixCacheExpiresAt := none }
  else pure ()

def hydrateUniverse : Script Unit := do
  let basis ← Program.read fun world : World => world.store.latestAnalysisSnapshot .universe (universeKey .b3)
  match basis.filter fun basis => basis.methodologyVersion = some config.methodologyVersion with
  | none => pure ()
  | some basis => do
      let newer ← outdated process Screener.basisAt id basis.publishedAt
      takeBasis process basis newer

/-- `_hydrate_persisted_state`. -/
def hydrate (force : Bool) : Script Unit :=
  if config.databaseUrl then do
    let now ← clock
    let checked ← look process Screener.persistedCheckedAt
    if !force && checked.any fun checked => now - checked < persistedStatePoll then pure ()
    else do
      assign process fun screener => { screener with persistedCheckedAt := some now }
      hydrateCandidates process
      hydrateUniverse config process
  else pure ()

/-- `official_rows` of B3 for a generation that was resolved. -/
def officialRows (generation : Option Generation) : Script (List ServedRow) :=
  match generation with
  | none => pure []
  | some generation => do
      match ← Program.read fun world : World => world.store.analysisSnapshotById (generation.cycles .b3) with
      | none => pure []
      | some cycle => do
          let records ← Program.read fun world : World =>
            world.store.predictionsForCycle (generation.cycles .b3) generation.source
          pure (firstRows (shownRows generation cycle records))

def candidateResponse (generatedAt : Int) (generation : Option Generation) : Script Response := do
  let rows ← officialRows generation
  pure ⟨generation.map Generation.id, rank config rows, generatedAt⟩

def buildMatrix (generatedAt : Int) (generation : Option Generation) : Script Response := do
  let rows ← officialRows generation
  let answer ← Program.answer
  pure ⟨generation.map Generation.id, matrixItems config answer.quotes rows, generatedAt⟩

/-- `screen(refresh=False)`. -/
def screen : Script Response := do
  hydrate config process false
  let generation ← currentGeneration
  let cached ← look process Screener.cached
  match cached.filter (servesGeneration generation) with
  | some cached => pure cached
  | none => do
      hydrate config process true
      let cached ← look process Screener.cached
      match cached.filter (servesGeneration generation) with
      | some cached => pure cached
      | none => do
          let now ← clock
          let response ← candidateResponse config now generation
          assign process fun screener => { screener with cached := some response }
          pure response

/-- A process without rows serves the candidates first. -/
def screenCold (rows : List Row) : Script Unit :=
  if rows = [] then do
    let _ ← screen config process
    pure ()
  else pure ()

def matrix : Script Response := do
  hydrate config process false
  let rows ← look process Screener.rows
  screenCold config process rows
  let generation ← currentGeneration
  let now ← clock
  let cached ← look process Screener.matrixCached
  let expiresAt ← look process Screener.matrixCacheExpiresAt
  match cached.filter fun cached => (expiresAt.any fun expiresAt => now < expiresAt) && servesGeneration generation cached with
  | some cached => pure cached
  | none => do
      let response ← buildMatrix config now generation
      assign process fun screener => { screener with matrixCached := some response }
      assign process fun screener => { screener with matrixCacheExpiresAt := some (now + matrixQuoteCache) }
      pure response

/-- The rows are published as a cycle, which may activate a generation. -/
def persistUniverse : Script Unit := do
  let publishedAt ← clock
  assign process fun screener => { screener with basisAt := some publishedAt }
  let rows ← look process Screener.rows
  let _ ← (saveAnalysisSnapshot calendars (universeCycle config publishedAt rows)).zoom World.store
    (fun store world => { world with store }) Answer.reading
  pure ()

def persistCandidates (response : Response) : Script Unit :=
  Program.write (fun world => { world with candidates := world.candidates ++ [⟨response.generatedAt, true, some response⟩] })
    fun _ => ()

/-- The rows are the process's own from now on. -/
def replaceRows (rows : List Row) (generatedAt : Int) : Script Unit := do
  assign process fun screener => { screener with rows := rows }
  assign process fun screener => { screener with basisAt := some generatedAt }
  assign process fun screener => { screener with matrixCached := none }
  assign process fun screener => { screener with matrixCacheExpiresAt := none }

/-- `screen(refresh=True)`: the nightly build. -/
def build : Script Response := do
  let generatedAt ← clock
  let answer ← Program.answer
  replaceRows process answer.rows generatedAt
  persistUniverse config calendars process
  let generation ← currentGeneration
  let response ← candidateResponse config generatedAt generation
  persistCandidates response
  assign process fun screener => { screener with cached := some response }
  pure response

def buildCold (rows : List Row) : Script Unit :=
  if rows = [] then do
    let _ ← build config calendars process
    pure ()
  else pure ()

/-- `refresh_symbols`: some rows are replaced and all of them published. -/
def refreshSymbols : Script Unit := do
  hydrate config process true
  let rows ← look process Screener.rows
  buildCold config calendars process rows
  let answer ← Program.answer
  if answer.replacing then do
    let rows ← look process Screener.rows
    let generatedAt ← clock
    replaceRows process (rows.map fun row => (answer.replacement row).getD row) generatedAt
    persistUniverse config calendars process
    let generation ← currentGeneration
    let response ← candidateResponse config generatedAt generation
    assign process fun screener => { screener with cached := some response }
    persistCandidates response
  else pure ()

end Scripts

inductive Request where
  | screen (process : ℕ)
  | matrix (process : ℕ)

def Request.script (config : Config) : Request → Script Response
  | .screen process => C3po.Screen.screen config process
  | .matrix process => C3po.Screen.matrix config process

variable {Digest : Type}

/-- A call of a client, of a producer, or of the selection. -/
inductive Call (setting : Setting Digest) where
  | request (request : Request)
  | requests (first second : Request)
  | build (process : ℕ)
  | refreshSymbols (process : ℕ)
  | hydrate (process : ℕ) (force : Bool)
  | official (call : Official.Call setting)

inductive Outcome where
  | response (response : Response)
  | responses (first second : Response)
  | quiet

def Call.body [DecidableEq Digest] {setting : Setting Digest} (config : Config) : Call setting → Script Outcome
  | .request asked => do
      let response ← asked.script config
      pure (.response response)
  | .requests first second => do
      let one ← first.script config
      let other ← second.script config
      pure (.responses one other)
  | .build process => do
      let _ ← C3po.Screen.build config setting.calendars process
      pure .quiet
  | .refreshSymbols process => do
      C3po.Screen.refreshSymbols config setting.calendars process
      pure .quiet
  | .hydrate process force => do
      C3po.Screen.hydrate config process force
      pure .quiet
  | .official call => do
      let _ ← call.body.zoom World.store (fun store world => { world with store }) Answer.reading
      pure .quiet

end C3po.Screen

/-! Every response held anywhere is faithful: unstamped and empty, or stamped with a stored
generation and made of its records.

A step of the selection keeps that, because the records of a generation are final; a step
of a screener keeps it, because what it writes is faithful.
-/

namespace C3po.Screen
open C3po.Library
open C3po.Official (Cycle Generation Prediction Reading ServedRow Setting Sound Store Whole cyclePredictions displayRow later_grows
  mem_cyclePredictions official predictionFromRow_some predictionRecord_spec records_settled servedRow)
open C3po.Prices (normalise)

variable {Digest : Type} {setting : Setting Digest} {config : Config}

/-- The item is what the record of its symbol serves, rounded. -/
def Carries (config : Config) (store : Store) (generation : Generation) (item : Item) : Prop :=
  ∃ record, store.predictionRecord (generation.cycles .b3) (normalise item.symbol) generation.source = some record ∧
    item.ourTp = some (config.round2 record.tp) ∧ item.buyIn = some (config.round2 record.buyIn)

structure Of (config : Config) (store : Store) (generation : Option Generation) (response : Response) : Prop where
  stamp : response.officialGenerationId = generation.map Generation.id
  empty : generation = none → response.items = []
  carried : ∀ own, generation = some own → ∀ item ∈ response.items, Carries config store own item

structure Faithful (config : Config) (store : Store) (response : Response) : Prop where
  empty : response.officialGenerationId = none → response.items = []
  carried : ∀ id, response.officialGenerationId = some id →
    ∃ generation ∈ store.generations, generation.id = id ∧ ∀ item ∈ response.items, Carries config store generation item

section Stores
variable {store next : Store} {generation : Generation} {response : Response}

theorem record_unique (sound : Sound setting store) {record other : Prediction} (first : record ∈ store.predictions)
    (second : other ∈ store.predictions) (cycle : record.cycleId = other.cycleId) (source : record.source = other.source)
    (symbol : record.symbol = other.symbol) : record = other := by
  obtain ⟨own, market, clocks, session, stored, ofMarket, _, _, made, _⟩ := sound.recorded record first
  obtain ⟨own', market', clocks', session', stored', ofMarket', _, _, made', _⟩ := sound.recorded other second
  rw [cycle, stored', Option.some_inj] at stored
  subst stored
  rw [ofMarket', Option.some_inj] at ofMarket
  subst ofMarket
  obtain ⟨_, _, _, same⟩ := mem_cyclePredictions.mp made
  obtain ⟨_, _, _, same'⟩ := mem_cyclePredictions.mp made'
  obtain ⟨_, _, _, _, market, _, version, _⟩ := predictionFromRow_some same
  obtain ⟨_, _, _, _, market', _, version', _⟩ := predictionFromRow_some same'
  refine List.inj_on_of_nodup_map sound.keys first second ?_
  simp only [Prediction.key, source, symbol, cycle, market, market', version, version']

theorem record_found (sound : Sound setting store) {cycleId : ℕ} {source : Official.Source} {record : Prediction}
    (member : record ∈ store.predictionsForCycle cycleId source) : store.predictionRecord cycleId record.symbol source = some record := by
  obtain ⟨other, found⟩ := Option.isSome_iff_exists.mp (List.find?_isSome (p := fun other : Prediction => decide (other.symbol = record.symbol)).mpr
    ⟨record, member, decide_eq_true rfl⟩)
  obtain ⟨otherIn, ofCycle, ofSource, ofSymbol⟩ := predictionRecord_spec found
  obtain ⟨recordIn, matched⟩ := List.mem_filter.mp member
  obtain ⟨cycle, ofSource'⟩ := of_decide_eq_true matched
  have same := record_unique sound otherIn recordIn (ofCycle.trans cycle.symm) (ofSource.trans ofSource'.symm) ofSymbol
  rw [← same]
  exact same ▸ found

theorem servedRow_numbers {row : Official.Row} {record : Prediction} {cycleId : ℕ} {scope : Official.Scope} {market : Official.Market}
    {served : ServedRow} (made : servedRow row record generation cycleId scope market = some served) :
    served.row.symbol = row.symbol ∧ served.ourTp = some record.tp ∧ served.buyIn = some record.buyIn := by
  obtain ⟨display, shown, rfl⟩ := Option.map_eq_some_iff.mp made
  refine ⟨?_, rfl, rfl⟩
  have priced : (row.withPrice record).symbol = row.symbol := by
    unfold Official.Row.withPrice
    split <;> rfl
  show display.symbol = row.symbol
  rw [← priced]
  cases source : record.source with
  | blend =>
    simp only [source, Option.some.injEq] at shown
    rw [← shown]
    split <;> rfl
  | internal =>
    simp only [source] at shown
    obtain ⟨view, _, rfl⟩ := Option.map_eq_some_iff.mp shown
    simp only [Official.Row.withView]
    split <;> rfl

theorem carries_shown (sound : Sound setting store) {cycle : Cycle} {entry : String × ServedRow}
    (shown : entry ∈ shownRows generation cycle (store.predictionsForCycle (generation.cycles .b3) generation.source)) :
    Carries config store generation (item config entry.2) := by
  obtain ⟨record, member, made⟩ := List.mem_filterMap.mp shown
  obtain ⟨row, displayed, kept⟩ := Option.bind_eq_some_iff.mp made
  obtain ⟨served, told, rfl⟩ := Option.map_eq_some_iff.mp kept
  have symbol : normalise row.symbol = record.symbol := of_decide_eq_true (List.find?_some displayed :)
  obtain ⟨same, tp, buyIn⟩ := servedRow_numbers told
  refine ⟨record, ?_, ?_, ?_⟩
  · show store.predictionRecord _ (normalise served.row.symbol) _ = _
    rw [same, symbol]
    exact record_found sound member
  · show served.ourTp.map config.round2 = _
    rw [tp, Option.map_some]
  · show served.buyIn.map config.round2 = _
    rw [buyIn, Option.map_some]

theorem mem_firstRows {entries : List (String × ServedRow)} {row : ServedRow} (member : row ∈ firstRows entries) :
    ∃ entry ∈ entries, entry.2 = row := by
  obtain ⟨entry, held, rfl⟩ := List.mem_map.mp member
  have found := Dict.mem_entries.mp held
  rw [Dict.get?_foldl_first, Dict.get?_empty, Option.none_or] at found
  obtain ⟨other, first, same⟩ := Option.map_eq_some_iff.mp found
  exact ⟨other, List.mem_of_find?_eq_some first, same⟩

theorem mem_deduped {rows : List ServedRow} {row : ServedRow} (member : row ∈ deduped config rows) : row ∈ rows := by
  obtain ⟨entry, held, rfl⟩ := mem_firstRows member
  obtain ⟨own, among, rfl⟩ := List.mem_map.mp held
  exact among

theorem mem_descending {K : Type} [LinearOrder K] {key : ServedRow → K} {rows : List ServedRow} {row : ServedRow} :
    row ∈ descending key rows ↔ row ∈ rows := mem_stableSort

theorem mem_rank {rows : List ServedRow} {item : Item} (member : item ∈ rank config rows) :
    ∃ row ∈ rows, C3po.Screen.item config row = item := by
  obtain ⟨row, chosen, rfl⟩ := List.mem_map.mp member
  have sorted := mem_deduped (mem_descending.mp (List.mem_of_mem_take chosen))
  exact ⟨row, (List.mem_filter.mp (mem_descending.mp sorted)).1, rfl⟩

theorem mem_matrixItems {quotes : String → Option (Option ℚ)} {rows : List ServedRow} {item : Item}
    (member : item ∈ matrixItems config quotes rows) : ∃ row ∈ rows, C3po.Screen.item config row = item := by
  obtain ⟨row, chosen, rfl⟩ := List.mem_map.mp member
  have eligible := mem_deduped (List.mem_filter.mp (mem_descending.mp chosen)).1
  exact ⟨row, (List.mem_filter.mp (mem_descending.mp eligible)).1, rfl⟩

theorem Carries.later (sound : Sound setting store) (whole : Whole setting.calendars store generation)
    (later : (official setting).Later store next) {item : Item} (carries : Carries config store generation item) :
    Carries config next generation item := by
  obtain ⟨record, found, numbers⟩ := carries
  exact ⟨record, by rw [whole.record_final sound later, found], numbers⟩

theorem Faithful.later (sound : Sound setting store) (later : (official setting).Later store next)
    (faithful : Faithful config store response) : Faithful config next response := by
  refine ⟨faithful.empty, fun id stamp => ?_⟩
  obtain ⟨generation, member, same, carried⟩ := faithful.carried id stamp
  exact ⟨generation, (later_grows later).generations.subset member, same, fun item among =>
    (carried item among).later sound (sound.whole generation member) later⟩

theorem Of.faithful {own : Option Generation} (made : Of config store own response)
    (stored : ∀ generation, own = some generation → generation ∈ store.generations) : Faithful config store response := by
  refine ⟨fun unstamped => made.empty ?_, fun id stamp => ?_⟩
  · rw [made.stamp, Option.map_eq_none_iff] at unstamped
    exact unstamped
  · rw [made.stamp] at stamp
    obtain ⟨generation, same, ofId⟩ := Option.map_eq_some_iff.mp stamp
    exact ⟨generation, stored generation same, ofId, made.carried generation same⟩

theorem Faithful.made (sound : Sound setting store) (faithful : Faithful config store response) {own : Option Generation}
    (stored : ∀ generation, own = some generation → generation ∈ store.generations)
    (serves : servesGeneration own response = true) : Of config store own response := by
  cases own with
  | none =>
    simp only [servesGeneration, Bool.and_eq_true, decide_eq_true_eq, List.isEmpty_iff] at serves
    exact ⟨serves.1, fun _ => serves.2, fun _ none => nomatch none⟩
  | some generation =>
    simp only [servesGeneration, decide_eq_true_eq] at serves
    refine ⟨serves, (fun none => nomatch none), fun other same => ?_⟩
    cases same
    obtain ⟨held, member, ofId, carried⟩ := faithful.carried generation.id serves
    have same := List.inj_on_of_nodup_map sound.ids_nodup member (stored generation rfl) ofId
    rw [← same]
    exact carried

end Stores

structure Kept (setting : Setting Digest) (config : Config) (world : World) : Prop where
  sound : Sound setting world.store
  cached : ∀ process response, (world.screeners process).cached = some response → Faithful config world.store response
  matrixCached : ∀ process response, (world.screeners process).matrixCached = some response → Faithful config world.store response
  candidates : ∀ candidate ∈ world.candidates, ∀ response, candidate.outputs = some response → Faithful config world.store response

/-- The rules of the screeners: the selection moves by its own, and responses stay faithful. -/
def serving (setting : Setting Digest) (config : Config) : Protocol World Answer where
  keeps := Kept setting config
  moves world next := (official setting).Later world.store next.store ∧ (Kept setting config world → Kept setting config next)
  allowed log answer := setting.allowed (log.map (Event.zoom World.store Answer.reading)) answer.reading
  kept kept move := move.2 kept

theorem serving_part (setting : Setting Digest) (config : Config) :
    Protocol.Part (official setting) (serving setting config) World.store (fun store world => { world with store }) Answer.reading where
  get_put _ _ := rfl
  later later := by
    induction later with
    | refl => exact Protocol.Later.refl _
    | tail _ move ih => exact ih.trans move.1
  moved {world store} later := by
    refine Relation.ReflTransGen.single ⟨later, fun kept => ⟨later.keeps kept.sound, ?_, ?_, ?_⟩⟩
    · exact fun process response held => (kept.cached process response held).later kept.sound later
    · exact fun process response held => (kept.matrixCached process response held).later kept.sound later
    · exact fun candidate member response held => (kept.candidates candidate member response held).later kept.sound later
  allowed allowed := allowed

end C3po.Screen
