import Mathlib.Algebra.Order.Ring.Rat
import C3po.Library.Latest
import C3po.Library.Loops
import C3po.Library.StableSort
import C3po.Library.Transaction

/-! The store of the daily price series: snapshots and bars.

A capture (a manifest and its bars) and a publication are rows of one append-only
table, written by two calls that each run under the market's lock as one
transaction. An instant is UTC microseconds and a session the ordinal of its day; a
content hash is a value of the type `Digest`.
-/

set_option autoImplicit false

namespace C3po.Prices
open C3po.Library

def analysisSchema : String := "VALUATION-PRICE-HISTORY-v3"
def source : String := "eodhd:/api/eod"

variable {Digest : Type}

/-- The hashed content of a bar: nothing about the clock. -/
structure BarCore where
  market : String
  symbol : String
  session : Int
  close : ℚ
  adjustedClose : ℚ
  volume : Option ℚ
  currency : String
  source : String
  providerSymbol : String
  deriving DecidableEq, Repr

structure Bar (Digest : Type) extends BarCore where
  fetchedAt : Int
  snapshotId : String
  sha : Digest
  deriving DecidableEq, Repr

/-- A provider row the series refused: its session, when it has one, and what it lacks. -/
structure Rejected where
  session : Option Int
  missing : List String
  deriving DecidableEq, Repr

structure ManifestInputs where
  schemaVersion : String
  market : String
  first : Option Int
  last : Option Int
  startedAt : Option Int
  fetchedAt : Option Int
  deriving DecidableEq, Repr

structure ManifestOutputs (Digest : Type) where
  schemaVersion : String
  priceSnapshotId : String
  rowsRejected : List (String × List Rejected)
  symbolsUnreproducible : List (String × List Int)
  seriesSha : List (String × Digest)
  seriesBars : List (String × ℕ)
  barsSha : Digest
  deriving DecidableEq, Repr

structure Manifest (Digest : Type) where
  id : String
  entityKey : String
  inputs : ManifestInputs
  outputs : ManifestOutputs Digest
  publishedAt : Int
  supersedes : Option String
  deriving DecidableEq, Repr

structure PublicationInputs where
  schemaVersion : String
  priceSnapshotId : String
  fetchedAt : Option Int
  startedAt : Option Int
  availableAt : Option Int
  deriving DecidableEq, Repr

structure PublicationOutputs (Digest : Type) where
  schemaVersion : String
  barsSha : Digest
  priceSnapshotId : String
  deriving DecidableEq, Repr

structure Publication (Digest : Type) where
  id : String
  entityKey : String
  inputs : PublicationInputs
  outputs : PublicationOutputs Digest
  publishedAt : Int
  supersedes : Option String
  deriving DecidableEq, Repr

/-- A row of the snapshot table, of one of the two analysis types. -/
inductive Snapshot (Digest : Type) where
  | manifest (row : Manifest Digest)
  | publication (row : Publication Digest)
  deriving DecidableEq, Repr

namespace Snapshot

def id : Snapshot Digest → String
  | manifest row => row.id
  | publication row => row.id

def manifest? : Snapshot Digest → Option (Manifest Digest)
  | manifest row => some row
  | publication _ => none

def publication? : Snapshot Digest → Option (Publication Digest)
  | manifest _ => none
  | publication row => some row

theorem manifest?_eq {snapshot : Snapshot Digest} {row : Manifest Digest} :
    snapshot.manifest? = some row ↔ snapshot = .manifest row := by
  cases snapshot <;> simp [manifest?]

theorem publication?_eq {snapshot : Snapshot Digest} {row : Publication Digest} :
    snapshot.publication? = some row ↔ snapshot = .publication row := by
  cases snapshot <;> simp [publication?]

end Snapshot

/-- Both tables, in commit order. -/
structure Store (Digest : Type) where
  snapshots : List (Snapshot Digest) := []
  bars : List (Bar Digest) := []
  deriving DecidableEq, Repr

inductive Refusal where
  | alreadyPublished (entityKey : String) (due availableAt : Int)
  | alreadyCaptured (entityKey : String) (due fetchedAt : Int)
  | behindManifest (entityKey : String) (fetchedAt previous : Int)
  | behindPublication (entityKey : String) (fetchedAt available : Int)
  | unparseableCapture (publicationId entityKey : String)
  | captureClock (publishedAt fetchedAt : Int)
  | barMarket (symbol market : String)
  | barPrice (symbol field : String)
  | duplicateId (id : String)
  | unattested (entityKey : String) (fetchedAt : Int)
  | behindAttested (entityKey : String) (fetchedAt attested : Int)
  | availabilityPrecedes (entityKey : String) (available fetchedAt : Int)
  | availabilityBehind (entityKey : String) (available previous : Int)
  | noSymbols (market : String)
  | noBars (market : String) (wanted : ℕ)
  | clockBackwards
  deriving DecidableEq, Repr

namespace Store
variable (store : Store Digest)

def manifests (entityKey : String) : List (Manifest Digest) :=
  (store.snapshots.filterMap Snapshot.manifest?).filter fun row => row.entityKey = entityKey

def publications (entityKey : String) : List (Publication Digest) :=
  (store.snapshots.filterMap Snapshot.publication?).filter fun row => row.entityKey = entityKey

end Store

/-- The clocks a writer must advance beyond. -/
structure Previous where
  manifestId : Option String
  manifestFetchedAt : Option Int
  publicationId : Option String
  publicationAvailableAt : Option Int
  publicationFetchedAt : Option Int
  deriving DecidableEq, Repr

def attestedCapture (publication : Publication Digest) : Except Refusal Int :=
  match publication.inputs.fetchedAt with
  | some fetchedAt => .ok fetchedAt
  | none => .error (.unparseableCapture publication.id publication.entityKey)

def priceHistoryPrevious (store : Store Digest) (entityKey : String) : Except Refusal Previous :=
  let manifest := latest Manifest.publishedAt (store.manifests entityKey)
  match latest Publication.publishedAt (store.publications entityKey) with
  | none => .ok ⟨manifest.map Manifest.id, manifest.map Manifest.publishedAt, none, none, none⟩
  | some publication => do
      let captured ← attestedCapture publication
      .ok ⟨manifest.map Manifest.id, manifest.map Manifest.publishedAt, some publication.id,
        some publication.publishedAt, some captured⟩

def refuseIfPublishedSince (entityKey : String) (due : Option Int) (previous : Previous) :
    Except Refusal Unit :=
  match due, previous.publicationAvailableAt with
  | some due, some available =>
      if due ≤ available then .error (.alreadyPublished entityKey due available) else .ok ()
  | _, _ => .ok ()

def refuseIfCapturedSince (entityKey : String) (due : Option Int) (previous : Previous) :
    Except Refusal Unit :=
  match due, previous.manifestFetchedAt with
  | some due, some fetched =>
      if due ≤ fetched then .error (.alreadyCaptured entityKey due fetched) else .ok ()
  | _, _ => .ok ()

def advances (clock : Int) (previous : Option Int) (refusal : Int → Refusal) : Except Refusal Unit :=
  match previous with
  | some before => if clock ≤ before then .error (refusal before) else .ok ()
  | none => .ok ()

def refuseUnlessCaptureAdvances (entityKey : String) (fetchedAt : Int) (previous : Previous) :
    Except Refusal Unit := do
  advances fetchedAt previous.manifestFetchedAt (.behindManifest entityKey fetchedAt)
  advances fetchedAt previous.publicationAvailableAt (.behindPublication entityKey fetchedAt)

/-- What the builder of a capture hands back. -/
structure Capture (Digest : Type) where
  inputs : ManifestInputs
  outputs : ManifestOutputs Digest
  publishedAt : Int
  snapshotId : String
  bars : List (Bar Digest)
  deriving DecidableEq, Repr

/-- The latest content hash of each symbol and session. -/
abbrev Hashes (Digest : Type) := List ((String × Int) × Digest)

abbrev Build (Digest : Type) := Hashes Digest → Except Refusal (Capture Digest)

def latestRow (rows : List (Bar Digest)) : Option (Bar Digest) := latest Bar.fetchedAt rows

def latestPriceBarHashes (bars : List (Bar Digest)) (market : String) (symbols : List String)
    (source : String) : Hashes Digest :=
  let rows := bars.filter fun bar => bar.market = market ∧ bar.source = source ∧ bar.symbol ∈ symbols
  let keys := (rows.map fun bar => (bar.symbol, bar.session)).dedup
  keys.filterMap fun key =>
    (latestRow (rows.filter fun bar => (bar.symbol, bar.session) = key)).map fun bar => (key, bar.sha)

def priceBarMarkets : List String := ["B3", "NASDAQ", "NYSE"]

def checkedPriceBar (bar : Bar Digest) : Except Refusal (Bar Digest) :=
  if bar.market ∉ priceBarMarkets then .error (.barMarket bar.symbol bar.market)
  else if bar.close ≤ 0 then .error (.barPrice bar.symbol "close")
  else if bar.adjustedClose ≤ 0 then .error (.barPrice bar.symbol "adjusted_close")
  else .ok bar

def sameKey (first second : Bar Digest) : Bool :=
  first.market = second.market ∧ first.symbol = second.symbol ∧ first.session = second.session ∧
    first.source = second.source ∧ first.fetchedAt = second.fetchedAt

abbrev Call (Digest A : Type) := Transaction (Store Digest) Refusal A

/-- A row of the snapshot table; its id is the primary key. -/
def insertSnapshot (row : Snapshot Digest) : Call Digest Unit := do
  let store ← Transaction.read
  if store.snapshots.any fun other => other.id = row.id then Transaction.raise (.duplicateId row.id)
  else Transaction.write { store with snapshots := store.snapshots ++ [row] }

/-- ON CONFLICT (market, symbol, session_date, source, fetched_at) DO NOTHING. -/
def insertPriceBar (bar : Bar Digest) : Call Digest ℕ := do
  let bar ← Transaction.check (checkedPriceBar bar)
  let store ← Transaction.read
  if store.bars.any (sameKey bar) then pure 0
  else do
    Transaction.write { store with bars := store.bars ++ [bar] }
    pure 1

def insertPriceBars : List (Bar Digest) → Call Digest ℕ
  | [] => pure 0
  | bar :: rest => do
      let first ← insertPriceBar bar
      let others ← insertPriceBars rest
      pure (first + others)

def buildPriceHistoryCapture (build : Build Digest) (hashes : Hashes Digest) (fetchedAt : Int) :
    Except Refusal (Capture Digest) := do
  let capture ← build hashes
  if capture.publishedAt = fetchedAt then .ok capture
  else .error (.captureClock capture.publishedAt fetchedAt)

structure CaptureRequest (Digest : Type) where
  entityKey : String
  fetchedAt : Int
  symbols : List String
  source : String
  build : Build Digest
  due : Option Int

def captureTransaction (request : CaptureRequest Digest) : Call Digest ℕ := do
  let store ← Transaction.read
  let previous ← Transaction.check (priceHistoryPrevious store request.entityKey)
  Transaction.check (refuseIfPublishedSince request.entityKey request.due previous)
  Transaction.check (refuseIfCapturedSince request.entityKey request.due previous)
  Transaction.check (refuseUnlessCaptureAdvances request.entityKey request.fetchedAt previous)
  let hashes := latestPriceBarHashes store.bars request.entityKey request.symbols request.source
  let capture ← Transaction.check (buildPriceHistoryCapture request.build hashes request.fetchedAt)
  insertSnapshot (.manifest ⟨capture.snapshotId, request.entityKey, capture.inputs, capture.outputs,
    request.fetchedAt, previous.manifestId⟩)
  insertPriceBars capture.bars

/-- The capture of one vintage: one critical section and one transaction. -/
def persistPriceHistoryRun (request : CaptureRequest Digest) (store : Store Digest) :
    Except Refusal ℕ × Store Digest :=
  (captureTransaction request).commit store

/-- The arguments of a publication; `clock` is the instant its clock reads. -/
structure PublishRequest (Digest : Type) where
  publicationId : String
  entityKey : String
  inputs : PublicationInputs
  outputs : PublicationOutputs Digest
  fetchedAt : Int
  clock : Int

def stampAvailability (entityKey : String) (fetchedAt : Int) (previous : Previous) (clock : Int) :
    Except Refusal Int := do
  advances fetchedAt previous.publicationFetchedAt (.behindAttested entityKey fetchedAt)
  if clock < fetchedAt then throw (.availabilityPrecedes entityKey clock fetchedAt)
  advances clock previous.publicationAvailableAt (.availabilityBehind entityKey clock)
  pure clock

def publishTransaction (request : PublishRequest Digest) : Call Digest Int := do
  let store ← Transaction.read
  let previous ← Transaction.check (priceHistoryPrevious store request.entityKey)
  let availableAt ← Transaction.check
    (stampAvailability request.entityKey request.fetchedAt previous request.clock)
  insertSnapshot (.publication ⟨request.publicationId, request.entityKey,
    { request.inputs with availableAt := some availableAt }, request.outputs, availableAt,
    previous.publicationId⟩)
  pure availableAt

/-- The publication of a vintage already captured. -/
def publishPriceHistoryRun (request : PublishRequest Digest) (store : Store Digest) :
    Except Refusal Int × Store Digest :=
  if request.inputs.fetchedAt ≠ some request.fetchedAt then
    (.error (.unattested request.entityKey request.fetchedAt), store)
  else (publishTransaction request).commit store

section Reads

def priceBars (bars : List (Bar Digest)) (market symbol : String) (asOf since until_ : Int) :
    List (Bar Digest) :=
  let rows := bars.filter fun bar => bar.market = market ∧ bar.symbol = symbol ∧
    bar.fetchedAt ≤ asOf ∧ since ≤ bar.session ∧ bar.session ≤ until_
  (stableSort id (rows.map fun bar => bar.session).dedup).filterMap fun session =>
    latestRow (rows.filter fun bar => bar.session = session)

def Store.snapshotById (store : Store Digest) (id : String) : Option (Snapshot Digest) :=
  store.snapshots.find? fun row => row.id = id

/-- The publication of the schema with the greatest clock strictly before the cut. -/
def Store.latestPublicationBefore (store : Store Digest) (entityKey : String) (cut : Int) :
    Option (Publication Digest) :=
  latest Publication.publishedAt ((store.publications entityKey).filter fun row =>
    row.publishedAt < cut ∧ row.outputs.schemaVersion = analysisSchema)

end Reads
end C3po.Prices

/-! What the two writers do when they accept, and that they do nothing when they refuse.

An accepted capture appends its manifest and the bars it inserts; an accepted
publication appends one row. Either passed every clock check against all the rows
of its market that were there.
-/

namespace C3po.Prices
open C3po.Library

variable {Digest : Type} {store final : Store Digest}

theorem advances_ok {clock : Int} {previous : Option Int} {refusal : Int → Refusal}
    (ok : advances clock previous refusal = .ok ()) : ∀ before, previous = some before → before < clock := by
  intro before known
  rw [known] at ok
  by_contra late
  simp [advances, not_lt.mp late] at ok

theorem priceHistoryPrevious_ok {entityKey : String} {previous : Previous}
    (ok : priceHistoryPrevious store entityKey = .ok previous) :
    previous.manifestFetchedAt =
        (latest Manifest.publishedAt (store.manifests entityKey)).map Manifest.publishedAt ∧
      previous.publicationAvailableAt =
        (latest Publication.publishedAt (store.publications entityKey)).map Publication.publishedAt ∧
      previous.publicationFetchedAt =
        (latest Publication.publishedAt (store.publications entityKey)).bind (·.inputs.fetchedAt) := by
  unfold priceHistoryPrevious at ok
  simp only at ok
  split at ok
  · rename_i none
    cases ok
    simp [none]
  · rename_i publication found
    obtain ⟨captured, capturedOk, ok⟩ := C3po.Library.bind_ok ok
    unfold attestedCapture at capturedOk
    split at capturedOk
    · rename_i fetchedAt known
      cases capturedOk
      cases ok
      simp [found, known]
    · cases capturedOk

theorem beyond_latest {A : Type} {clock : A → Int} {rows : List A} {bound : Int}
    (beyond : ∀ before, (latest clock rows).map clock = some before → before < bound) :
    ∀ row ∈ rows, clock row < bound := by
  intro row member
  cases found : latest clock rows with
  | none => rw [latest_none.mp found] at member; cases member
  | some best => exact ((latest_spec found).2 row member).trans_lt (beyond _ (by rw [found]; rfl))

structure CaptureAccepted (store : Store Digest) (request : CaptureRequest Digest) : Prop where
  afterManifests : ∀ row ∈ store.manifests request.entityKey, row.publishedAt < request.fetchedAt
  afterPublications : ∀ row ∈ store.publications request.entityKey, row.publishedAt < request.fetchedAt
  uncaptured : ∀ due, request.due = some due →
    ∀ row ∈ store.manifests request.entityKey, row.publishedAt < due
  unpublished : ∀ due, request.due = some due →
    ∀ row ∈ store.publications request.entityKey, row.publishedAt < due

theorem captureAccepted {request : CaptureRequest Digest} {previous : Previous}
    (known : priceHistoryPrevious store request.entityKey = .ok previous)
    (published : refuseIfPublishedSince request.entityKey request.due previous = .ok ())
    (captured : refuseIfCapturedSince request.entityKey request.due previous = .ok ())
    (advancing : refuseUnlessCaptureAdvances request.entityKey request.fetchedAt previous = .ok ()) :
    CaptureAccepted store request := by
  obtain ⟨manifests, publications, _⟩ := priceHistoryPrevious_ok known
  obtain ⟨_, beyondManifest, beyondPublication⟩ := C3po.Library.bind_ok advancing
  constructor
  · exact beyond_latest (manifests ▸ advances_ok beyondManifest)
  · exact beyond_latest (publications ▸ advances_ok beyondPublication)
  · intro due isDue
    refine beyond_latest fun before found => ?_
    rw [← manifests] at found
    by_contra late
    simp [refuseIfCapturedSince, isDue, found, not_lt.mp late] at captured
  · intro due isDue
    refine beyond_latest fun before found => ?_
    rw [← publications] at found
    by_contra late
    simp [refuseIfPublishedSince, isDue, found, not_lt.mp late] at published

theorem insertSnapshot_ok {row : Snapshot Digest} (ok : insertSnapshot row store = (.ok (), final)) :
    (∀ other ∈ store.snapshots, other.id ≠ row.id) ∧
      final = { store with snapshots := store.snapshots ++ [row] } := by
  obtain ⟨before, _, read, ok⟩ := Transaction.bind_ok ok
  cases read
  split at ok
  · cases ok
  · rename_i fresh
    cases ok
    exact ⟨by simpa using fresh, rfl⟩

/-- Bars the store takes one by one; a bar whose key is present is left out. -/
def takeBars (bars : List (Bar Digest)) : List (Bar Digest) → List (Bar Digest)
  | [] => bars
  | bar :: rest => takeBars (if bars.any (sameKey bar) then bars else bars ++ [bar]) rest

theorem checkedPriceBar_ok {bar checked : Bar Digest} (ok : checkedPriceBar bar = .ok checked) :
    checked = bar := by
  unfold checkedPriceBar at ok
  split_ifs at ok
  cases ok
  rfl

theorem insertPriceBar_ok {bar : Bar Digest} {inserted : ℕ}
    (ok : insertPriceBar bar store = (.ok inserted, final)) :
    final = { store with
      bars := if store.bars.any (sameKey bar) then store.bars else store.bars ++ [bar] } := by
  obtain ⟨checked, view, checkedOk, written⟩ := Transaction.bind_ok ok
  obtain ⟨same, rfl⟩ := Transaction.check_ok checkedOk
  have kept := checkedPriceBar_ok same
  subst kept
  obtain ⟨before, _, read, body⟩ := Transaction.bind_ok written
  cases read
  split at body
  · rename_i present
    cases body
    simp [present]
  · rename_i absent
    obtain ⟨_, _, writeOk, counted⟩ := Transaction.bind_ok body
    cases writeOk
    cases counted
    simp [absent]

theorem insertPriceBars_ok {bars : List (Bar Digest)} {inserted : ℕ}
    (ok : insertPriceBars bars store = (.ok inserted, final)) :
    final = { store with bars := takeBars store.bars bars } := by
  induction bars generalizing store inserted with
  | nil => cases ok; rfl
  | cons bar rest ih =>
    obtain ⟨count, middle, one, later⟩ := Transaction.bind_ok ok
    obtain ⟨others, last, restOk, summed⟩ := Transaction.bind_ok later
    cases summed
    rw [ih restOk, insertPriceBar_ok one]
    simp only [takeBars]

theorem persist_ok {request : CaptureRequest Digest} {inserted : ℕ}
    (ok : persistPriceHistoryRun request store = (.ok inserted, final)) :
    CaptureAccepted store request ∧ ∃ capture supersedes,
      request.build (latestPriceBarHashes store.bars request.entityKey request.symbols request.source) =
        .ok capture ∧
      (∀ other ∈ store.snapshots, other.id ≠ capture.snapshotId) ∧
      final.snapshots = store.snapshots ++ [.manifest ⟨capture.snapshotId, request.entityKey,
        capture.inputs, capture.outputs, request.fetchedAt, supersedes⟩] ∧
      final.bars = takeBars store.bars capture.bars := by
  have run := Transaction.commit_ok ok
  obtain ⟨before, _, read, afterRead⟩ := Transaction.bind_ok run
  cases read
  obtain ⟨previous, _, knownOk, afterKnown⟩ := Transaction.bind_ok afterRead
  obtain ⟨known, same⟩ := Transaction.check_ok knownOk
  rw [same] at afterKnown
  obtain ⟨_, _, publishedOk, afterPublished⟩ := Transaction.bind_ok afterKnown
  obtain ⟨published, same⟩ := Transaction.check_ok publishedOk
  rw [same] at afterPublished
  obtain ⟨_, _, capturedOk, afterCaptured⟩ := Transaction.bind_ok afterPublished
  obtain ⟨captured, same⟩ := Transaction.check_ok capturedOk
  rw [same] at afterCaptured
  obtain ⟨_, _, advancingOk, afterAdvancing⟩ := Transaction.bind_ok afterCaptured
  obtain ⟨advancing, same⟩ := Transaction.check_ok advancingOk
  rw [same] at afterAdvancing
  obtain ⟨capture, _, builtOk, afterBuilt⟩ := Transaction.bind_ok afterAdvancing
  obtain ⟨built, same⟩ := Transaction.check_ok builtOk
  rw [same] at afterBuilt
  obtain ⟨_, middle, manifestOk, barsOk⟩ := Transaction.bind_ok afterBuilt
  obtain ⟨fresh, written⟩ := insertSnapshot_ok manifestOk
  have taken := insertPriceBars_ok barsOk
  obtain ⟨raw, rawOk, stamped⟩ := C3po.Library.bind_ok built
  split at stamped
  · cases stamped
    subst taken written
    exact ⟨captureAccepted known published captured advancing, capture, previous.manifestId, rawOk,
      fresh,
      rfl, rfl⟩
  · cases stamped

structure PublicationAccepted (store : Store Digest) (request : PublishRequest Digest) : Prop where
  attested : request.inputs.fetchedAt = some request.fetchedAt
  afterCapture : ∀ row, latest Publication.publishedAt (store.publications request.entityKey) = some row →
    ∀ captured, row.inputs.fetchedAt = some captured → captured < request.fetchedAt
  inOrder : request.fetchedAt ≤ request.clock
  afterPublications : ∀ row ∈ store.publications request.entityKey, row.publishedAt < request.clock

theorem stampAvailability_ok {entityKey : String} {fetchedAt clock stamped : Int} {previous : Previous}
    (ok : stampAvailability entityKey fetchedAt previous clock = .ok stamped) :
    stamped = clock ∧ fetchedAt ≤ clock ∧
      (∀ before, previous.publicationFetchedAt = some before → before < fetchedAt) ∧
      ∀ before, previous.publicationAvailableAt = some before → before < clock := by
  unfold stampAvailability at ok
  obtain ⟨_, attested, ok⟩ := C3po.Library.bind_ok ok
  split at ok
  · cases ok
  · rename_i inOrder
    obtain ⟨_, beyond, ok⟩ := C3po.Library.bind_ok ok
    cases ok
    exact ⟨rfl, not_lt.mp inOrder, advances_ok attested, advances_ok beyond⟩

theorem publish_ok {request : PublishRequest Digest} {availableAt : Int}
    (ok : publishPriceHistoryRun request store = (.ok availableAt, final)) :
    PublicationAccepted store request ∧ availableAt = request.clock ∧
      (∀ other ∈ store.snapshots, other.id ≠ request.publicationId) ∧ final.bars = store.bars ∧
      ∃ supersedes, final.snapshots = store.snapshots ++ [.publication ⟨request.publicationId,
        request.entityKey, { request.inputs with availableAt := some request.clock }, request.outputs,
        request.clock, supersedes⟩] := by
  unfold publishPriceHistoryRun at ok
  split at ok
  · cases ok
  · rename_i attested
    have run := Transaction.commit_ok ok
    obtain ⟨before, _, read, afterRead⟩ := Transaction.bind_ok run
    cases read
    obtain ⟨previous, _, knownOk, afterKnown⟩ := Transaction.bind_ok afterRead
    obtain ⟨known, same⟩ := Transaction.check_ok knownOk
    rw [same] at afterKnown
    obtain ⟨stamped, _, stampedOk, afterStamped⟩ := Transaction.bind_ok afterKnown
    obtain ⟨stampOk, same⟩ := Transaction.check_ok stampedOk
    rw [same] at afterStamped
    obtain ⟨_, middle, insertedOk, returned⟩ := Transaction.bind_ok afterStamped
    obtain ⟨fresh, written⟩ := insertSnapshot_ok insertedOk
    cases returned
    obtain ⟨isClock, inOrder, afterCapture, afterAvailable⟩ := stampAvailability_ok stampOk
    obtain ⟨_, publications, captures⟩ := priceHistoryPrevious_ok known
    subst written isClock
    refine ⟨⟨not_not.mp attested, fun row found captured isCaptured => ?_, inOrder, ?_⟩, rfl, fresh, rfl,
      previous.publicationId, rfl⟩
    · exact afterCapture captured (by rw [captures, found]; exact isCaptured)
    · exact beyond_latest (publications ▸ afterAvailable)

/-- A call of one of the writers. -/
inductive Request (Digest : Type) where
  | capture (request : CaptureRequest Digest)
  | publish (request : PublishRequest Digest)

namespace Request

def due : Request Digest → Option Int
  | capture request => request.due
  | publish _ => none

/-- The call's refusal, if it raised, and the store after it. -/
def run : Request Digest → Store Digest → Option Refusal × Store Digest
  | capture request, store =>
      match persistPriceHistoryRun request store with
      | (.ok _, written) => (none, written)
      | (.error refusal, written) => (some refusal, written)
  | publish request, store =>
      match publishPriceHistoryRun request store with
      | (.ok _, written) => (none, written)
      | (.error refusal, written) => (some refusal, written)

theorem run_refused {request : Request Digest} {refusal : Refusal}
    (raised : request.run store = (some refusal, final)) : final = store := by
  cases request with
  | capture request =>
    unfold run at raised
    simp only at raised
    split at raised
    · cases raised
    · rename_i refused
      cases raised
      exact Transaction.commit_error refused
  | publish request =>
    unfold run publishPriceHistoryRun at raised
    simp only at raised
    split at raised
    · cases raised
    · rename_i refused
      cases raised
      split at refused
      · cases refused
        rfl
      · exact Transaction.commit_error refused

end Request
end C3po.Prices
