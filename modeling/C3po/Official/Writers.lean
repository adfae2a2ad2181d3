import C3po.Official.Serving

/-! The writers of the official selection, each read and each insert a step of its own.

The automatic writers are the activation pass, the direct admission and the bootstrap;
the mesa orders a selection or a freeze. A writer that is refused stores nothing: an
order names the refusal, an automatic writer recomposes or gives up. The lock of the
switch is flipped in the source.
-/

set_option autoImplicit false

namespace C3po.Official
open C3po.Library
open C3po.Prices (normalise)

inductive Refusal where
  | noReceipt
  | futureClock
  | missingMarkets (missing : List Market)
  | collision (symbol : String)
  | nothingInForce
  | notUniverseCycle (market : Market)
  | invalidCycle (market : Market)
  | notTargetedCycle (symbol : String)
  | invalidTargeted (symbol : String)
  | foreignReceipt
  | receiptNotAccepted
  | freezeNotAfter
  | freezeTooFar
  | headMoved
  | staleClock
  | conflict
  deriving DecidableEq, Repr

def second : Int := 1000000

def freezeMax : Int := 16 * 3600 * second
def explicitClockTolerance : Int := 60 * second
def recompositionAttempts : ℕ := 5
def chainWalkLimit : ℕ := 64

/-- A call for each market in turn, up to the first that is refused. -/
def forMarkets {E A : Type} (choose : Market → Process (Except E A)) : Process (Except E (Market → A)) := do
  match ← choose .b3 with
  | .error refusal => pure (.error refusal)
  | .ok b3 =>
      match ← choose .nasdaq with
      | .error refusal => pure (.error refusal)
      | .ok nasdaq =>
          match ← choose .nyse with
          | .error refusal => pure (.error refusal)
          | .ok nyse => pure (.ok fun market => match market with
              | .b3 => b3
              | .nasdaq => nasdaq
              | .nyse => nyse)

/-- A call for each item in turn, up to the first that is refused. -/
def forEach {E A : Type} (call : A → Process (Except E Unit)) : List A → Process (Except E Unit)
  | [] => pure (.ok ())
  | item :: rest => do
      match ← call item with
      | .error refusal => pure (.error refusal)
      | .ok () => forEach call rest

def readClock : Process Int := do
  let reading ← Program.answer
  pure reading.clock

section Targeted

/-- A map under clean symbols; the first of two cycles under one symbol stays. -/
def firstTargeted (entries : List (String × ℕ)) : Dict String ℕ :=
  entries.foldl (fun clean entry =>
    if clean.contains (normalise entry.1) then clean else clean.insert (normalise entry.1) entry.2) .empty

def normalizeEntry (clean : Dict String ℕ) (entry : String × ℕ) : Except Refusal (Dict String ℕ) :=
  match clean.get? (normalise entry.1) with
  | some held => if held = entry.2 then .ok clean else .error (.collision (normalise entry.1))
  | none => .ok (clean.insert (normalise entry.1) entry.2)

/-- A map under clean symbols; two cycles under one symbol are an ambiguous order. -/
def normalizedTargeted (entries : List (String × ℕ)) : Except Refusal (Dict String ℕ) :=
  entries.foldlM normalizeEntry .empty

theorem sortedEntries_nodup (targeted : Dict String ℕ) :
    ((sortedEntries targeted).map Prod.fst).Nodup :=
  ((stableSort_perm Prod.fst targeted.entries).map Prod.fst).nodup_iff.mpr targeted.distinct

def sortedTargeted (targeted : Dict String ℕ) : Dict String ℕ :=
  ⟨sortedEntries targeted, sortedEntries_nodup targeted⟩

end Targeted

/-- The generation a writer wants to chain on the one it read. -/
structure Draft where
  expectedPrevious : Option ℕ
  cycles : Market → ℕ
  targeted : Dict String ℕ
  source : Source
  sourceVersion : String
  sessionDates : Market → Option Int
  receipt : Receipt

/-- The activation clock: an order behind the head is stale, an automatic writer behind it
is moved past it. -/
def activationClock (head : Option Generation) (now : Option Int) (clock : Int) : Except Refusal Int :=
  match head with
  | none => .ok clock
  | some head =>
      match now with
      | some _ => if clock < head.activatedAt then .error .staleClock else .ok clock
      | none => .ok (if clock ≤ head.activatedAt then head.activatedAt + 1 else clock)

/-- The row to insert. Only an order keeps the marker of an order. -/
def assemble (draft : Draft) (head : Option Generation) (activatedAt : Int) (strict : Bool) :
    Except Refusal Generation :=
  let row (targeted : Dict String ℕ) : Generation :=
    { id := 0
      source := draft.source
      sourceVersion := draft.sourceVersion
      cycles := draft.cycles
      targeted := sortedTargeted targeted
      sessionDates := draft.sessionDates
      activatedAt
      previous := head.map Generation.id
      receipt := if strict then draft.receipt else { draft.receipt with explicit := false } }
  if strict then (normalizedTargeted draft.targeted.entries).map row
  else .ok (row (firstTargeted draft.targeted.entries))

/-- The last generation reached from one through its successors, none when it has none. -/
def chainTip : ℕ → ℕ → Option Generation → Process (Option Generation)
  | 0, _, _ => pure none
  | steps + 1, cursor, tip => do
      match ← Program.read fun store : Store => store.successor cursor with
      | none => pure tip
      | some next => chainTip steps next.id (some next)

/-- One insert: refused when its predecessor has a successor. -/
def insertSelection (generation : Generation) : Process (Option Generation) :=
  Program.write (fun store : Store => store.insertSelection generation)
    fun store => if store.conflict generation then none else some (store.stored generation)

/-- A refused insert, looked at again: a head that moved is a race; an unmoved head has a
successor dated behind it, and the row is chained on the tip. -/
def repaired (generation : Generation) (expectedPrevious : Option ℕ) (strict : Bool) :
    Process (Except Refusal Generation) := do
  let reread ← Program.read Store.latestSelection
  match reread with
  | none => pure (.error .conflict)
  | some head =>
      if some head.id ≠ expectedPrevious then pure (.error .conflict)
      else do
        match ← chainTip chainWalkLimit head.id none with
        | none => pure (.error .conflict)
        | some tip =>
            let floor := if strict then tip.activatedAt else max tip.activatedAt head.activatedAt
            let chained : Generation := { generation with
              activatedAt := if generation.activatedAt ≤ floor then floor + 1 else generation.activatedAt
              previous := some tip.id
              receipt := { generation.receipt with repairedChain := some (head.id, tip.id) } }
            match ← insertSelection chained with
            | none => pure (.error .conflict)
            | some stored => pure (.ok stored)

/-- One insert chained on the generation the caller read. An order carries its clock; an
automatic writer reads the wall clock here, right before the insert. -/
def newGeneration (draft : Draft) (now : Option Int) : Process (Except Refusal Generation) := do
  let current ← Program.read Store.latestSelection
  if current.map Generation.id ≠ draft.expectedPrevious then pure (.error .headMoved)
  else do
    let clock ← match now with
      | some instant => pure instant
      | none => readClock
    match activationClock current now clock with
    | .error refusal => pure (.error refusal)
    | .ok activatedAt =>
        match assemble draft current activatedAt now.isSome with
        | .error refusal => pure (.error refusal)
        | .ok generation => do
            match ← insertSelection generation with
            | some stored => pure (.ok stored)
            | none => repaired generation (current.map Generation.id) now.isSome

/-- The freeze a generation carries that still holds at an instant, and its end. -/
def selectionFreeze (generation : Option Generation) (now : Int) : Option (ℕ × Int) := do
  let head ← generation
  let freeze ← head.receipt.freeze
  let ends := min freeze (head.activatedAt + freezeMax)
  if head.receipt.explicit ∧ now < ends then pure (head.id, ends) else none

def selectedSource (generation : Option Generation) : Source :=
  match generation with
  | none => .blend
  | some head => head.source

section Calls
variable (calendars : Calendars)

/-- The session of a cycle's prediction, when the calendar answers. -/
def sessionOf (cycle : Cycle) : Process (Option Int) :=
  match cycle.market, cycle.clocks with
  | some market, some clocks => do
      let reading ← Program.answer
      pure (if reading.calendar then calendars.sessions market clocks.1 else none)
  | _, _ => pure none

/-- One transaction of inserts. How many were new. -/
def insertPredictions (records : List Prediction) : Process ℕ :=
  Program.write (fun store : Store => store.insertPredictions records)
    fun store => (store.insertPredictions records).predictions.length - store.predictions.length

/-- The records of a cycle, inserted once. How many were new. -/
def recordCyclePredictions (cycle : Cycle) : Process ℕ :=
  match cycle.market, cycle.clocks with
  | some market, some clocks => do
      match ← sessionOf calendars cycle with
      | none => pure 0
      | some session =>
          let records := cyclePredictions cycle market clocks session
          if records.isEmpty then pure 0
          else insertPredictions records
  | _, _ => pure 0

/-- The latest universe cycle of a market, validated; a cycle with no record is recorded
first. -/
def selectableCycle (source : Source) (market : Market) :
    Process (Except Unit (Option (Validation × String))) := do
  match ← Program.read fun store : Store => store.latestAnalysisSnapshot .universe (universeKey market) with
  | none => pure (.ok none)
  | some cycle => do
      let found ← Program.read fun store : Store => store.recordedSymbols cycle.id source
      let recordable := cycle.cycleRows.any fun row => usable row source
      let recorded ← if found.isEmpty && recordable then do
          let added ← recordCyclePredictions calendars cycle
          if 0 < added then Program.read fun store : Store => store.recordedSymbols cycle.id source
          else pure found
        else pure found
      let session ← sessionOf calendars cycle
      pure (.ok (some (cycleValidation cycle recorded source session, cycle.sourceVersion)))

/-- The validation of a targeted cycle for a symbol, when it may be admitted. -/
def admissibleTargeted (symbol : String) (cycleId : ℕ) (source : Source) : Process (Option Validation) := do
  match ← Program.read fun store : Store => store.analysisSnapshotById cycleId with
  | none => pure none
  | some cycle =>
      if cycle.analysisType ≠ .targeted then pure none
      else do
        let recorded ← Program.read fun store : Store => store.recordedSymbols cycleId source
        let session ← sessionOf calendars cycle
        let validation := cycleValidation cycle recorded source session
        if validation.valid = false ∨ symbol ∉ recorded then pure none else pure (some validation)

/-- Whether a cycle was predicted at or before an order; one whose clocks cannot be read
was. -/
def predictedAtOrBefore (cycleId : ℕ) (order : Generation) : Process Bool := do
  let snapshot ← Program.read fun store : Store => store.analysisSnapshotById cycleId
  match snapshot.bind Cycle.clocks with
  | none => pure true
  | some clocks => pure (clocks.1 ≤ order.activatedAt)

def readRecord (cycleId : Option ℕ) (symbol : String) (source : Source) : Process (Option Prediction) :=
  match cycleId with
  | none => pure none
  | some held => Program.read fun store : Store => store.predictionRecord held symbol source

/-- The targeted map while the recovery goes through the symbols. -/
structure Recovery where
  targeted : Dict String ℕ
  recovered : Dict String ℕ
  refused : Dict String ℕ

/-- One symbol of the recovery: its newest record, if it is newer than the one held and
newer than the order. -/
def recoverSymbol (served : List String) (order : Option Generation) (source : Source) (found : Recovery)
    (entry : String × Prediction) : Process Recovery :=
  let clean := normalise entry.1
  let record := entry.2
  if clean ∈ served ∨ found.targeted.get? clean = some record.cycleId then pure found
  else if order.any fun order => record.predictionInstant ≤ order.activatedAt then pure found
  else do
    let admitted ← readRecord (found.targeted.get? clean) clean source
    if admitted.any fun admitted => record.predictionInstant ≤ admitted.predictionInstant then pure found
    else do
      match ← admissibleTargeted calendars clean record.cycleId source with
      | none => pure { found with refused := found.refused.insert clean record.cycleId }
      | some _ => pure { found with
          targeted := found.targeted.insert clean record.cycleId
          recovered := found.recovered.insert clean record.cycleId }

def recoveredTargeted (carried : Dict String ℕ) (universeCycle : ℕ) (order : Option Generation)
    (source : Source) : Process Recovery := do
  let served ← Program.read fun store : Store => store.recordedSymbols universeCycle source
  let newest ← Program.read fun store : Store => store.latestTargetedPredictions source
  newest.foldlM (recoverSymbol calendars served order source) ⟨carried, .empty, .empty⟩

/-- What the next generation takes for a market. -/
structure MarketChoice where
  cycle : ℕ
  version : String
  session : Option Int
  carried : Bool
  held : Bool

/-- Whether the candidate was predicted at or before the order in force. -/
def heldByOrder (inForce : Option ℕ) (order : Option Generation) (validation : Validation) : Bool :=
  match inForce, order, validation.predictionInstant with
  | some cycleId, some order, some instant =>
      validation.valid && validation.cycleId ≠ cycleId && decide (instant ≤ order.activatedAt)
  | _, _, _ => false

/-- The candidate of a market if it is valid and new, else the cycle in force. -/
def chooseMarket (current order : Option Generation)
    (candidates : Market → Option (Validation × String)) (market : Market) :
    Process (Except Unit MarketChoice) :=
  let inForce := current.map fun head => head.cycles market
  let held := (candidates market).any fun item => heldByOrder inForce order item.1
  match (candidates market).filter fun item => item.1.valid && !held with
  | some (validation, version) => pure (.ok ⟨validation.cycleId, version, validation.sessionDate, false, held⟩)
  | none =>
      match current with
      | none => pure (.error ())
      | some head => do
          let snapshot ← Program.read fun store : Store => store.analysisSnapshotById (head.cycles market)
          pure (.ok ⟨head.cycles market, (snapshot.map Cycle.sourceVersion).getD "unknown",
            head.sessionDates market, true, held⟩)

def joinVersions (versions : List String) : String :=
  String.intercalate "+" (stableSort id versions.dedup)

def currentTargeted (current : Option Generation) : Dict String ℕ :=
  match current with
  | none => .empty
  | some head => head.targeted

/-- Whether the composition is the one in force. -/
def unchanged (current : Option Generation) (choices : Market → MarketChoice) (targeted : Dict String ℕ) :
    Bool :=
  current.any fun head =>
    (markets.all fun market => head.cycles market = (choices market).cycle) &&
      sortedEntries head.targeted = sortedEntries targeted

/-- What an activation pass composed on the head it read. -/
def composed (current order : Option Generation) (choices : Market → MarketChoice) (found : Recovery)
    (attempt : ℕ) : Draft :=
  { expectedPrevious := current.map Generation.id
    cycles := fun market => (choices market).cycle
    targeted := found.targeted
    source := selectedSource current
    sourceVersion := joinVersions (markets.map fun market => (choices market).version)
    sessionDates := fun market => (choices market).session
    receipt :=
      { changedMarkets := markets.filter fun market =>
          current.map (fun head => head.cycles market) ≠ some (choices market).cycle
        carriedMarkets := markets.filter fun market => (choices market).carried
        heldByExplicitOrder := markets.filter fun market => (choices market).held
        explicitOrder := order.map Generation.id
        targetedRecovered := found.recovered
        targetedRefused := found.refused
        attempt := some attempt } }

/-- The last order of the mesa, read once there is a head. -/
def readOrder (current : Option Generation) : Process (Option Generation) :=
  match current with
  | none => pure none
  | some _ => Program.read Store.latestExplicitSelection

/-- The activation pass, with so many attempts left. -/
def activateFrom : ℕ → ℕ → Process (Option Generation)
  | 0, _ => pure none
  | left + 1, attempt => do
      let current ← Program.read Store.latestSelection
      let wall ← readClock
      if (selectionFreeze current wall).isSome then pure none
      else do
        match ← forMarkets (selectableCycle calendars (selectedSource current)) with
        | .error _ => pure none
        | .ok candidates => do
            let order ← readOrder current
            match ← forMarkets (chooseMarket current order candidates) with
            | .error _ => pure none
            | .ok choices => do
                let found ← recoveredTargeted calendars (firstTargeted (currentTargeted current).entries)
                  (choices .b3).cycle order (selectedSource current)
                if unchanged current choices found.targeted then pure none
                else do
                  match ← newGeneration (composed current order choices found attempt) none with
                  | .ok generation => pure (some generation)
                  | .error _ => activateFrom left (attempt + 1)

def activateGenerationIfChanged : Process (Option Generation) :=
  activateFrom calendars recompositionAttempts 1

/-- What a direct admission composed on the head it read. -/
def admitting (head : Generation) (symbol : String) (cycleId attempt : ℕ) : Draft :=
  { expectedPrevious := some head.id
    cycles := head.cycles
    targeted := (firstTargeted head.targeted.entries).insert symbol cycleId
    source := head.source
    sourceVersion := head.sourceVersion
    sessionDates := head.sessionDates
    receipt :=
      { targetedAdmission := some (symbol, cycleId)
        targetedRefused := head.receipt.targetedRefused.erase symbol
        attempt := some attempt } }

def decidedByOrder (cycleId : ℕ) (order : Option Generation) : Process Bool :=
  match order with
  | none => pure false
  | some order => predictedAtOrBefore cycleId order

def notNewer (candidate held : Option Prediction) : Bool :=
  match candidate, held with
  | some candidate, some held => candidate.predictionInstant ≤ held.predictionInstant
  | _, _ => false

def validatedFor (validation : Option Validation) (symbol : String) (cycleId : ℕ) (source : Source) :
    Process (Option Validation) :=
  match validation.filter fun validation => validation.source = source with
  | some validation => pure (some validation)
  | none => admissibleTargeted calendars symbol cycleId source

/-- The direct admission, with so many attempts left. -/
def admitFrom (symbol : String) (cycleId : ℕ) : ℕ → ℕ → Option Validation → Process (Option Generation)
  | 0, _, _ => pure none
  | left + 1, attempt, validation => do
      match ← Program.read Store.latestSelection with
      | none => pure none
      | some head => do
          let wall ← readClock
          if (selectionFreeze (some head) wall).isSome then pure none
          else do
            let heldCycle := (firstTargeted head.targeted.entries).get? symbol
            if heldCycle = some cycleId then pure none
            else do
              let order ← Program.read Store.latestExplicitSelection
              if ← decidedByOrder cycleId order then pure none
              else do
                let held ← readRecord heldCycle symbol head.source
                let candidate ← readRecord (some cycleId) symbol head.source
                if notNewer candidate held then pure none
                else do
                  match ← validatedFor calendars validation symbol cycleId head.source with
                  | none => pure none
                  | some validation => do
                      let served ← Program.read fun store : Store =>
                        store.recordedSymbols (head.cycles .b3) head.source
                      if symbol ∈ served then pure none
                      else do
                        match ← newGeneration (admitting head symbol cycleId attempt) none with
                        | .ok generation => pure (some generation)
                        | .error _ => admitFrom symbol cycleId left (attempt + 1) (some validation)

def admitTargetedCycle (symbol : String) (cycleId : ℕ) : Process (Option Generation) :=
  admitFrom calendars (normalise symbol) cycleId recompositionAttempts 1 none

def recordLatest (market : Market) : Process (Except Unit ℕ) := do
  match ← Program.read fun store : Store => store.latestAnalysisSnapshot .universe (universeKey market) with
  | none => pure (.ok 0)
  | some cycle => do
      let added ← recordCyclePredictions calendars cycle
      pure (.ok added)

def bootstrapOfficialSelection : Process (Option Generation) := do
  let _ ← forMarkets (recordLatest calendars)
  match ← activateGenerationIfChanged calendars with
  | some generation => pure (some generation)
  | none => Program.read Store.latestSelection

def hasRecord (symbol : String) (cycleId : ℕ) : List Source → Process Bool
  | [] => pure false
  | source :: rest => do
      let recorded ← Program.read fun store : Store => store.recordedSymbols cycleId source
      if symbol ∈ recorded then pure true else hasRecord symbol cycleId rest

/-- What follows the publication of a cycle, or its replay: its records, then the pass or
the admission. -/
def recordSnapshot (cycle : Cycle) : Process (Option Generation) :=
  match cycle.market with
  | none => pure none
  | some _ => do
      let recorded ← recordCyclePredictions calendars cycle
      if cycle.analysisType = .universe then activateGenerationIfChanged calendars
      else do
        let symbol := normalise cycle.entityKey
        let known ← if 0 < recorded then pure true else hasRecord symbol cycle.id officialSources
        if known then admitTargetedCycle calendars symbol cycle.id else pure none

/-- A producer publishes a cycle. -/
def saveAnalysisSnapshot (cycle : Cycle) : Process (Option Generation) := do
  let published ← Program.write (fun store : Store => store.saveSnapshot cycle) fun store => store.published cycle
  recordSnapshot calendars published

/-- A stored cycle goes through the persistence hook again. -/
def replaySnapshot (cycleId : ℕ) : Process (Option Generation) := do
  match ← Program.read fun store : Store => store.analysisSnapshotById cycleId with
  | none => pure none
  | some cycle => recordSnapshot calendars cycle

/-- The freeze of the mesa: the head's own composition, frozen until an instant. -/
def freezeSelection (now until' : Int) (reason : String) : Process (Except Refusal Generation) := do
  let wall ← readClock
  if wall + explicitClockTolerance < now then pure (.error .futureClock)
  else if until' ≤ now then pure (.error .freezeNotAfter)
  else if now + freezeMax < until' ∨ calendars.midnight now < until' then pure (.error .freezeTooFar)
  else do
    match ← Program.read Store.latestSelection with
    | none => pure (.error .nothingInForce)
    | some head =>
        newGeneration
          { expectedPrevious := some head.id
            cycles := head.cycles
            targeted := firstTargeted head.targeted.entries
            source := head.source
            sourceVersion := head.sourceVersion
            sessionDates := head.sessionDates
            receipt := { explicit := true, reason, freeze := some until' } }
          (some now)

/-- An order of the mesa: a rollback, a purge or a switch. -/
structure Order (Digest : Type) where
  cycles : Market → Option ℕ
  targeted : List (String × ℕ)
  now : Int
  reason : String
  source : Source
  sourceVersion : Option String
  beforeAfterSha256 : Option Digest

/-- A market's cycle, validated for the source of the order. -/
def validateMarket (cycles : Market → ℕ) (source : Source) (market : Market) :
    Process (Except Refusal (Option Int × String)) := do
  match ← Program.read fun store : Store => store.analysisSnapshotById (cycles market) with
  | none => pure (.error (.notUniverseCycle market))
  | some cycle =>
      if cycle.analysisType ≠ .universe ∨ cycle.market ≠ some market then
        pure (.error (.notUniverseCycle market))
      else do
        let recorded ← Program.read fun store : Store => store.recordedSymbols (cycles market) source
        let session ← sessionOf calendars cycle
        let validation := cycleValidation cycle recorded source session
        if validation.valid = false then pure (.error (.invalidCycle market))
        else pure (.ok (validation.sessionDate, cycle.sourceVersion))

/-- A targeted cycle of an order, validated for its source. -/
def validateTargeted (source : Source) (entry : String × ℕ) : Process (Except Refusal Unit) := do
  match ← Program.read fun store : Store => store.analysisSnapshotById entry.2 with
  | none => pure (.error (.notTargetedCycle entry.1))
  | some cycle =>
      if cycle.analysisType ≠ .targeted ∨ normalise cycle.entityKey ≠ entry.1 then
        pure (.error (.notTargetedCycle entry.1))
      else do
        let recorded ← Program.read fun store : Store => store.recordedSymbols entry.2 source
        let session ← sessionOf calendars cycle
        let validation := cycleValidation cycle recorded source session
        if validation.valid = false ∨ entry.1 ∉ recorded then pure (.error (.invalidTargeted entry.1))
        else pure (.ok ())

section Orders
variable {Digest : Type} [DecidableEq Digest] (receipts : Receipts Digest)

/-- A switch cites the report of the head over this very proposal, and the one the owner
accepted. -/
def checkReceipt (order : Order Digest) (current : Option Generation) (proposal : Proposal) :
    Process (Except Refusal Unit) :=
  match current, order.source with
  | some head, .internal => do
      let report ← beforeAfterReport receipts head proposal
      if order.beforeAfterSha256 ≠ some (reportSha256 receipts report) then pure (.error .foreignReceipt)
      else if order.beforeAfterSha256 ≠ some receipts.accepted then pure (.error .receiptNotAccepted)
      else pure (.ok ())
  | _, _ => pure (.ok ())

def orderReceipt (order : Order Digest) (current : Option Generation) : Receipt :=
  { explicit := true
    reason := order.reason
    endedFreeze := selectionFreeze current order.now
    sourceSwitch := current.bind fun head =>
      if head.source ≠ order.source then some (head.source, order.source) else none }

def orderVersion (order : Order Digest) (validated : Market → Option Int × String) : String :=
  match order.sourceVersion, order.source with
  | some version, _ => version
  | none, .blend => "rollback"
  | none, .internal => joinVersions (markets.map fun market => (validated market).2)

def selectGeneration (order : Order Digest) : Process (Except Refusal Generation) := do
  if order.source = .internal ∧ order.beforeAfterSha256 = none then pure (.error .noReceipt)
  else do
    let wall ← readClock
    if wall + explicitClockTolerance < order.now then pure (.error .futureClock)
    else if markets.any fun market => (order.cycles market).isNone then
      pure (.error (.missingMarkets (markets.filter fun market => (order.cycles market).isNone)))
    else
      match normalizedTargeted order.targeted with
      | .error refusal => pure (.error refusal)
      | .ok admissions => do
          let current ← Program.read Store.latestSelection
          if order.source = .internal ∧ current.isNone then pure (.error .nothingInForce)
          else do
            let cycles : Market → ℕ := fun market => (order.cycles market).getD 0
            match ← forMarkets (validateMarket calendars cycles order.source) with
            | .error refusal => pure (.error refusal)
            | .ok validated => do
                let proposal : Proposal := ⟨cycles, admissions, orderVersion order validated⟩
                match ← forEach (validateTargeted calendars order.source) admissions.entries with
                | .error refusal => pure (.error refusal)
                | .ok () => do
                    match ← checkReceipt receipts order current proposal with
                    | .error refusal => pure (.error refusal)
                    | .ok () =>
                        newGeneration
                          { expectedPrevious := current.map Generation.id
                            cycles
                            targeted := admissions
                            source := order.source
                            sourceVersion := proposal.sourceVersion
                            sessionDates := fun market => (validated market).1
                            receipt := orderReceipt order current }
                          (some order.now)

end Orders
end Calls
end C3po.Official
