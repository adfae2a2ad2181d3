import Mathlib.Data.List.DropRight
import Mathlib.Data.String.Basic
import C3po.Library.Rounding
import C3po.Prices.Store

/-! The price vintages: what a run captures and publishes, and what a cut reads.

A run fetches the whole window of its symbols, captures the changed bars with a
manifest that hashes every symbol's series, and publishes its own capture. A reader
resolves the one vintage its cut sees and serves a symbol only when the stored bars
reproduce the recorded hash. The hash of canonical JSON is a parameter.
-/

set_option autoImplicit false

namespace C3po.Prices
open C3po.Library

inductive Market where
  | b3
  | nasdaq
  | nyse
  deriving DecidableEq, Repr

namespace Market

def key : Market → String
  | b3 => "B3"
  | nasdaq => "NASDAQ"
  | nyse => "NYSE"

def currency : Market → String
  | b3 => "BRL"
  | nasdaq => "USD"
  | nyse => "USD"

def providerSuffix : Market → String
  | b3 => "SA"
  | nasdaq => "US"
  | nyse => "US"

end Market

/-- SHA-256 of canonical JSON, for the three payloads it is taken of. -/
structure Hashing (Digest : Type) where
  bar : BarCore → Digest
  series : List (Int × Digest) → Digest
  market : List (String × Digest) → Digest

variable {Digest : Type}

section Producer

/-- A provider row; a field that is not a finite number, or a date that does not parse, is absent. -/
structure RawRow where
  session : Option Int
  close : Option ℚ
  adjustedClose : Option ℚ
  volume : Option ℚ
  deriving DecidableEq, Repr

def canonicalNumber (number : Option ℚ) : Option ℚ := number.map (roundTo 6)

def price (number : Option ℚ) : Option ℚ := (canonicalNumber number).filter (0 < ·)

def barDefects (raw : RawRow) : Option Int × List String :=
  let missing := [("date", raw.session.isSome), ("close", (price raw.close).isSome),
    ("adjusted_close", (price raw.adjustedClose).isSome)]
  (raw.session, (missing.filter fun field => !field.2).map Prod.fst)

def barRecord (market : Market) (symbol providerSymbol : String) (raw : RawRow) : Option BarCore :=
  match raw.session, price raw.close, price raw.adjustedClose with
  | some session, some close, some adjusted => some
      { market := market.key, symbol := symbol, session := session, close := close
        adjustedClose := adjusted, volume := canonicalNumber raw.volume, currency := market.currency
        source := source, providerSymbol := providerSymbol }
  | _, _, _ => none

/-- A run after its provider answered: `answer` is none where the provider failed. The id of
its snapshot is a fresh UUID, never empty. -/
structure Run where
  market : Market
  first : Int
  last : Int
  symbols : List String
  answer : String → Option (List RawRow)
  startedAt : Int
  fetchedAt : Int
  snapshotId : String
  named : snapshotId ≠ ""
  due : Option Int

/-- What `strip` removes. -/
def isSpace (character : Char) : Bool :=
  character.toNat ∈ [32, 133, 160, 5760, 8232, 8233, 8239, 8287, 12288] ∨
    (9 ≤ character.toNat ∧ character.toNat ≤ 13) ∨ (28 ≤ character.toNat ∧ character.toNat ≤ 31) ∨
    (8192 ≤ character.toNat ∧ character.toNat ≤ 8202)

/-- `strip` and `upper`; a ticker is ASCII. -/
def normalise (symbol : String) : String :=
  String.ofList (((symbol.toList.dropWhile isSpace).rdropWhile isSpace).map Char.toUpper)

/-- The order of a refused row: its session, a row without one after all others. -/
def Rejected.key (row : Rejected) : WithTop Int :=
  match row.session with
  | some session => session
  | none => ⊤

def wantedOf (symbols : List String) : List String :=
  ((symbols.map normalise).filter fun symbol => symbol ≠ "").reverse.dedup.reverse

def inWindow (first last : Int) (rows : List RawRow) : List RawRow :=
  rows.filter fun raw => raw.session.all fun session => first ≤ session ∧ session ≤ last

namespace Run
variable (run : Run)

def wanted : List String := wantedOf run.symbols

def providerSymbol (symbol : String) : String := symbol ++ "." ++ run.market.providerSuffix

def rows (symbol : String) : List RawRow :=
  inWindow run.first run.last ((run.answer symbol).getD [])

def fetchedBars (symbol : String) : List BarCore :=
  (run.rows symbol).filterMap (barRecord run.market symbol (run.providerSymbol symbol))

/-- The refused rows: the answer has no usable row for their session. -/
def rejected (symbol : String) : List Rejected :=
  let bars := run.fetchedBars symbol
  let defective := (run.rows symbol).filterMap fun raw =>
    let (session, missing) := barDefects raw
    if missing = [] then none else some (⟨session, missing⟩ : Rejected)
  stableSort Rejected.key (defective.filter fun row =>
    row.session.all fun session => !bars.any fun bar => bar.session = session)

/-- A duplicate session in one answer: the first row wins. -/
def firstRows : List BarCore → List BarCore
  | [] => []
  | bar :: rest => bar :: (firstRows rest).filter fun other => other.session ≠ bar.session

def bySession (symbol : String) : List BarCore := firstRows (run.fetchedBars symbol)

def fetched : List String := run.wanted.filter fun symbol => run.fetchedBars symbol ≠ []

def refused (symbol : String) : List Int := (run.rejected symbol).filterMap Rejected.session

end Run

def seriesSha (hashing : Hashing Digest) (bars : List (Int × Digest)) : Digest :=
  hashing.series (stableSort Prod.fst bars)

namespace Run
variable (hashing : Hashing Digest) (run : Run)

def seriesShaOf (symbol : String) : Digest :=
  seriesSha hashing ((run.bySession symbol).map fun bar => (bar.session, hashing.bar bar))

def stamp (core : BarCore) : Bar Digest :=
  { core with fetchedAt := run.fetchedAt, snapshotId := run.snapshotId, sha := hashing.bar core }

/-- Sessions of the window the provider dropped from the symbol's answer. -/
def stale (hashes : Hashes Digest) (symbol : String) : List Int :=
  stableSort id ((hashes.filter fun entry => entry.1.1 = symbol ∧ run.first ≤ entry.1.2 ∧
    entry.1.2 ≤ run.last ∧ (!(run.bySession symbol).any fun bar => bar.session = entry.1.2) ∧
      entry.1.2 ∉ run.refused symbol).map fun entry => entry.1.2)

def unreproducible (hashes : Hashes Digest) : List (String × List Int) :=
  (run.fetched.map fun symbol => (symbol, run.stale hashes symbol)).filter fun entry => entry.2 ≠ []

variable [DecidableEq Digest]

def changed (hashes : Hashes Digest) (symbol : String) : List BarCore :=
  (run.bySession symbol).filter fun bar => hashes.lookup (symbol, bar.session) ≠ some (hashing.bar bar)

def toInsert (hashes : Hashes Digest) : List (Bar Digest) :=
  (run.fetched.map fun symbol => (run.changed hashing hashes symbol).map (run.stamp hashing)).flatten

omit [DecidableEq Digest] in
def seriesShas : List (String × Digest) :=
  stableSort Prod.fst (run.fetched.map fun symbol => (symbol, run.seriesShaOf hashing symbol))

def barsSha : Digest := hashing.market (run.seriesShas hashing)

def manifestInputs : ManifestInputs :=
  { schemaVersion := analysisSchema, market := run.market.key, first := some run.first
    last := some run.last, startedAt := some run.startedAt, fetchedAt := some run.fetchedAt }

def manifestOutputs (hashes : Hashes Digest) : ManifestOutputs Digest :=
  { schemaVersion := analysisSchema
    priceSnapshotId := run.snapshotId
    rowsRejected := stableSort Prod.fst
      ((run.wanted.map fun symbol => (symbol, run.rejected symbol)).filter fun entry => entry.2 ≠ [])
    symbolsUnreproducible := stableSort Prod.fst (run.unreproducible hashes)
    seriesSha := run.seriesShas hashing
    seriesBars := stableSort Prod.fst
      (run.fetched.map fun symbol => (symbol, (run.bySession symbol).length))
    barsSha := run.barsSha hashing }

def build : Build Digest := fun hashes => .ok
  { inputs := run.manifestInputs, outputs := run.manifestOutputs hashing hashes
    publishedAt := run.fetchedAt, snapshotId := run.snapshotId, bars := run.toInsert hashing hashes }

def captureRequest : CaptureRequest Digest :=
  { entityKey := run.market.key, fetchedAt := run.fetchedAt, symbols := run.fetched, source := source
    build := run.build hashing, due := run.due }

/-- The first fact of a run: its capture. -/
def capture (store : Store Digest) : Except Refusal ℕ × Store Digest :=
  if run.wanted = [] then (.error (.noSymbols run.market.key), store)
  else if run.fetchedAt < run.startedAt then (.error .clockBackwards, store)
  else if run.fetched = [] then (.error (.noBars run.market.key run.wanted.length), store)
  else persistPriceHistoryRun (run.captureRequest hashing) store

def publishRequest (publicationId : String) (clock : Int) : PublishRequest Digest :=
  { publicationId := publicationId, entityKey := run.market.key
    inputs := { schemaVersion := analysisSchema, priceSnapshotId := run.snapshotId
                fetchedAt := some run.fetchedAt, startedAt := some run.startedAt, availableAt := none }
    outputs := { schemaVersion := analysisSchema, barsSha := run.barsSha hashing
                 priceSnapshotId := run.snapshotId }
    fetchedAt := run.fetchedAt, clock := clock }

/-- The second fact of a run: the publication of its own capture. -/
def publish (publicationId : String) (clock : Int) (store : Store Digest) :
    Except Refusal Int × Store Digest :=
  publishPriceHistoryRun (run.publishRequest hashing publicationId clock) store

end Run
end Producer
end C3po.Prices
