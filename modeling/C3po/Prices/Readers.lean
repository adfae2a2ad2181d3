import Mathlib.Data.List.Dedup
import Mathlib.Data.List.Pairwise
import C3po.Prices.Vintages

/-! The readers of the price series; their clock is the cut, never now.

A cut sees one vintage: the publication with the greatest availability strictly
before it, with the manifest it attests. `series` rebuilds a symbol's bars from the
stored rows and serves them only when they reproduce the recorded hash; `labelBar`
locates the bar some sessions after a session. A reader caches `ok` series only.
-/

set_option autoImplicit false

namespace C3po.Prices
open C3po.Library

variable {Digest : Type} [DecidableEq Digest]

inductive VintageStatus where
  | ok
  | manifestMismatch
  deriving DecidableEq, Repr

structure Vintage (Digest : Type) where
  publicationId : String
  priceSnapshotId : Option String
  availableAt : Int
  fetchedAt : Option Int
  startedAt : Option Int
  status : VintageStatus
  window : Option (Int × Int) := none
  seriesSha : List (String × Digest) := []
  seriesBars : List (String × ℕ) := []
  symbolsUnreproducible : List (String × List Int) := []
  rowsRejected : List (String × List Rejected) := []
  barsSha : Option Digest := none
  deriving DecidableEq, Repr

/-- The manifest a publication attests: same market, schema, id, hash and clocks. -/
def attestedManifest (store : Store Digest) (market : String) (publication : Publication Digest) :
    Option (Manifest Digest × Int × Int) :=
  match store.snapshotById publication.inputs.priceSnapshotId with
  | some (.manifest manifest) =>
      match manifest.inputs.first, manifest.inputs.last with
      | some first, some last =>
          if publication.inputs.priceSnapshotId ≠ "" ∧ manifest.entityKey = market ∧
            manifest.outputs.schemaVersion = analysisSchema ∧
            manifest.outputs.priceSnapshotId = publication.inputs.priceSnapshotId ∧
            manifest.outputs.barsSha = publication.outputs.barsSha ∧
            manifest.inputs.fetchedAt = publication.inputs.fetchedAt ∧
            manifest.inputs.fetchedAt.isSome ∧
            publication.inputs.availableAt = some publication.publishedAt
          then some (manifest, first, last) else none
      | _, _ => none
  | _ => none

def vintageOf (store : Store Digest) (market : String) (publication : Publication Digest) :
    Vintage Digest :=
  let header : Vintage Digest :=
    { publicationId := publication.id
      priceSnapshotId := if publication.inputs.priceSnapshotId = "" then none
        else some publication.inputs.priceSnapshotId
      availableAt := publication.publishedAt
      fetchedAt := publication.inputs.fetchedAt
      startedAt := publication.inputs.startedAt
      status := .manifestMismatch }
  match attestedManifest store market publication with
  | none => header
  | some (manifest, first, last) => { header with
      status := .ok
      window := some (first, last)
      seriesSha := manifest.outputs.seriesSha
      seriesBars := manifest.outputs.seriesBars
      symbolsUnreproducible := manifest.outputs.symbolsUnreproducible
      rowsRejected := manifest.outputs.rowsRejected
      barsSha := some manifest.outputs.barsSha }

def vintage (store : Store Digest) (market : String) (cut : Int) : Option (Vintage Digest) :=
  (store.latestPublicationBefore market cut).map (vintageOf store market)

inductive SeriesStatus where
  | ok
  | noVintage
  | manifestMismatch
  | symbolNotInVintage
  | vintageUnreproducible
  | barHashMismatch
  | vintageMismatch
  deriving DecidableEq, Repr

def SeriesStatus.text : SeriesStatus → String
  | ok => "ok"
  | noVintage => "no_vintage"
  | manifestMismatch => "manifest_mismatch"
  | symbolNotInVintage => "symbol_not_in_vintage"
  | vintageUnreproducible => "vintage_unreproducible"
  | barHashMismatch => "bar_hash_mismatch"
  | vintageMismatch => "vintage_mismatch"

structure Series (Digest : Type) where
  status : SeriesStatus
  priceSnapshotId : Option String := none
  publicationId : Option String := none
  availableAt : Option Int := none
  fetchedAt : Option Int := none
  firstCapturedAt : Option Int := none
  window : Option (Int × Int) := none
  rejectedSessions : Dict Int (List String) := Dict.empty
  bars : List (Bar Digest) := []
  deriving DecidableEq

/-- The sessions the vintage refused for a symbol, with their missing fields. -/
def rejectedSessions (rows : List Rejected) : Dict Int (List String) :=
  rows.foldl (fun sessions row =>
    match row.session with
    | some session => sessions.insert session row.missing
    | none => sessions) Dict.empty

def barContentSha (hashing : Hashing Digest) (bar : Bar Digest) : Option Digest :=
  match price (some bar.close), price (some bar.adjustedClose) with
  | some close, some adjusted => some (hashing.bar { bar.toBarCore with
      close := close, adjustedClose := adjusted, volume := canonicalNumber bar.volume })
  | _, _ => none

/-- The chain a vintage's series is rebuilt from: the latest rows up to its capture, inside
its window, minus the sessions it refused. -/
def chain (bars : List (Bar Digest)) (market symbol : String) (fetchedAt first last : Int)
    (rejected : Dict Int (List String)) : List (Bar Digest) :=
  (priceBars bars market symbol fetchedAt first last).filter fun bar => !rejected.contains bar.session

def earliest (bars : List (Bar Digest)) : Option Int := (bars.map Bar.fetchedAt).min?

def readSeries (hashing : Hashing Digest) (store : Store Digest) (market symbol : String)
    (vintage : Vintage Digest) : Series Digest :=
  let rejected := rejectedSessions ((vintage.rowsRejected.lookup symbol).getD [])
  let header : Series Digest :=
    { status := .ok, priceSnapshotId := vintage.priceSnapshotId
      publicationId := some vintage.publicationId, availableAt := some vintage.availableAt
      fetchedAt := vintage.fetchedAt, window := vintage.window, rejectedSessions := rejected }
  match vintage.status, vintage.seriesSha.lookup symbol, vintage.window, vintage.fetchedAt with
  | .manifestMismatch, _, _, _ => { header with status := .manifestMismatch }
  | .ok, none, _, _ => { header with status := .symbolNotInVintage }
  | .ok, some expected, some (first, last), some fetchedAt =>
      if (vintage.symbolsUnreproducible.lookup symbol).isSome then
        { header with status := .vintageUnreproducible }
      else
        let bars := chain store.bars market symbol fetchedAt first last rejected
        if bars.any fun bar => barContentSha hashing bar ≠ some bar.sha then
          { header with status := .barHashMismatch }
        else if seriesSha hashing (bars.map fun bar => (bar.session, bar.sha)) ≠ expected then
          { header with status := .vintageMismatch }
        else { header with firstCapturedAt := earliest bars, bars := bars }
  -- an attested manifest has a window and a capture clock
  | .ok, some _, _, _ => { header with status := .manifestMismatch }

abbrev CacheKey := String × String × String

/-- The least recently used entry first. -/
abbrev Cache (Digest : Type) := List (CacheKey × Series Digest)

def seriesCacheSize : ℕ := 256

/-- The entry moves to the end. -/
def Cache.touch (cache : Cache Digest) (key : CacheKey) (result : Series Digest) : Cache Digest :=
  cache.filter (fun entry => entry.1 ≠ key) ++ [(key, result)]

def Cache.put (cache : Cache Digest) (key : CacheKey) (result : Series Digest) : Cache Digest :=
  let filled := cache ++ [(key, result)]
  filled.drop (filled.length - seriesCacheSize)

/-- One symbol's bars as the cut sees them, and the reader's cache after the call. -/
def series (hashing : Hashing Digest) (store : Store Digest) (cache : Cache Digest) (market symbol : String)
    (cut : Int) : Series Digest × Cache Digest :=
  let symbol := normalise symbol
  match vintage store market cut with
  | none => ({ status := .noVintage }, cache)
  | some vintage =>
      let key := (vintage.publicationId, market, symbol)
      match cache.lookup key with
      | some cached => (cached, cache.touch key cached)
      | none =>
          let result := readSeries hashing store market symbol vintage
          (result, if result.status = .ok then cache.put key result else cache)

/-- The exchange calendar: the session some sessions after a session, and when one closed. -/
structure ExchangeCalendar where
  isSession : String → Int → Bool
  sessionOffset : String → Int → Int → Option Int
  sessionClose : String → Int → Int

inductive LabelStatus where
  | notASession
  | beyondCalendar
  | notYetMature
  | refused (status : SeriesStatus)
  | outsideWindow
  | labelled
  | adjustmentUnknown
  | missingBar
  deriving DecidableEq, Repr

def LabelStatus.text : LabelStatus → String
  | notASession => "not_a_session"
  | beyondCalendar => "beyond_calendar"
  | notYetMature => "not_yet_mature"
  | refused status => status.text
  | outsideWindow => "outside_window"
  | labelled => "labelled"
  | adjustmentUnknown => "label_unavailable:adjustment_unknown"
  | missingBar => "missing_bar"

structure Label (Digest : Type) where
  session : Option Int
  status : LabelStatus
  priceSnapshotId : Option String := none
  publicationId : Option String := none
  availableAt : Option Int := none
  fetchedAt : Option Int := none
  close : Option ℚ := none
  adjustedClose : Option ℚ := none
  barSha : Option Digest := none
  firstCapturedAt : Option Int := none
  missing : List String := []
  deriving DecidableEq, Repr

def sessionsAfter (calendar : ExchangeCalendar) (market : String) (session count : Int) :
    Except LabelStatus Int :=
  if !calendar.isSession market session then .error .notASession
  else match calendar.sessionOffset market session count with
    | some target => .ok target
    | none => .error .beyondCalendar

def labelOf (known : Series Digest) (target : Int) : Label Digest :=
  let header : Label Digest :=
    { session := some target, status := .missingBar, priceSnapshotId := known.priceSnapshotId
      publicationId := known.publicationId, availableAt := known.availableAt
      fetchedAt := known.fetchedAt }
  let knownByRefusal := known.status = .symbolNotInVintage ∧ known.rejectedSessions.entries ≠ []
  if known.status ≠ .ok ∧ ¬ knownByRefusal then { header with status := .refused known.status }
  else if ¬ known.window.any fun window => window.1 ≤ target ∧ target ≤ window.2 then
    { header with status := .outsideWindow }
  else
    match known.bars.find? fun bar => bar.session = target, known.rejectedSessions.get? target with
    | some bar, _ => { header with
        status := .labelled, close := some bar.close, adjustedClose := some bar.adjustedClose
        barSha := some bar.sha, firstCapturedAt := some bar.fetchedAt }
    | none, some (field :: fields) =>
        { header with status := .adjustmentUnknown, missing := field :: fields }
    | none, _ => header

/-- The bar `horizon` sessions after `session`, as known before the cut. -/
def labelBar (hashing : Hashing Digest) (calendar : ExchangeCalendar) (store : Store Digest)
    (cache : Cache Digest) (market symbol : String) (session horizon cut : Int) :
    Label Digest × Cache Digest :=
  match sessionsAfter calendar market session horizon with
  | .error status => ({ session := none, status := status }, cache)
  | .ok target =>
      if cut ≤ calendar.sessionClose market target then
        ({ session := some target, status := .notYetMature }, cache)
      else
        let (known, cache) := series hashing store cache market symbol cut
        (labelOf known target, cache)

end C3po.Prices

/-! One symbol's chain of stored rows.

What a run fetched for a symbol has one canonical bar per session, none of them
refused. Storage holds only changed bars, so a run's series is spread over the rows
of several captures; `Reproduces` says that the chain up to the run's capture is
exactly what the run fetched, and later captures do not disturb it.
-/

namespace C3po.Prices
open C3po.Library

variable {Digest : Type}

/-- Numbers a bar keeps when its content hash is recomputed. -/
structure BarCore.Canonical (core : BarCore) : Prop where
  close : price (some core.close) = some core.close
  adjusted : price (some core.adjustedClose) = some core.adjustedClose
  volume : canonicalNumber core.volume = core.volume

theorem price_canonical {number : Option ℚ} {found : ℚ} (known : price number = some found) :
    price (some found) = some found := by
  unfold price canonicalNumber at known ⊢
  obtain ⟨kept, positive⟩ := Option.filter_eq_some_iff.mp known
  obtain ⟨raw, _, rfl⟩ := Option.map_eq_some_iff.mp kept
  simpa using positive

theorem canonicalNumber_canonical (number : Option ℚ) :
    canonicalNumber (canonicalNumber number) = canonicalNumber number := by
  cases number <;> simp [canonicalNumber]

theorem barContentSha_canonical (hashing : Hashing Digest) {bar : Bar Digest}
    (canonical : bar.toBarCore.Canonical) : barContentSha hashing bar = some (hashing.bar bar.toBarCore) := by
  simp only [barContentSha, canonical.close, canonical.adjusted, canonical.volume]

section Fetch
variable {run : Run} {symbol : String} {core : BarCore}

theorem Run.mem_fetched : symbol ∈ run.fetched ↔ symbol ∈ run.wanted ∧ run.fetchedBars symbol ≠ [] := by
  simp [Run.fetched]

structure BarCore.Fetched (run : Run) (symbol : String) (core : BarCore) : Prop where
  market : core.market = run.market.key
  symbol : core.symbol = symbol
  origin : core.source = Prices.source
  inside : run.first ≤ core.session ∧ core.session ≤ run.last
  canonical : core.Canonical

theorem Run.fetchedBars_spec (member : core ∈ run.fetchedBars symbol) : core.Fetched run symbol := by
  obtain ⟨raw, rawIn, record⟩ := List.mem_filterMap.mp member
  unfold barRecord at record
  split at record
  · rename_i session close adjusted isSession isClose isAdjusted
    cases record
    have inside := (List.mem_filter.mp rawIn).2
    simp only [isSession, Option.all_some, decide_eq_true_eq] at inside
    exact ⟨rfl, rfl, rfl, inside, price_canonical isClose, price_canonical isAdjusted,
      canonicalNumber_canonical _⟩
  · cases record

theorem mem_firstRows {bars : List BarCore} (member : core ∈ Run.firstRows bars) : core ∈ bars := by
  induction bars with
  | nil => cases member
  | cons first rest ih =>
    rcases List.mem_cons.mp member with rfl | later
    · exact List.mem_cons_self
    · exact List.mem_cons_of_mem _ (ih (List.mem_of_mem_filter later))

theorem firstRows_sessions (bars : List BarCore) : (Run.firstRows bars).Pairwise fun one other =>
    one.session ≠ other.session := by
  induction bars with
  | nil => exact List.Pairwise.nil
  | cons first rest ih =>
    refine List.pairwise_cons.mpr ⟨fun other member => ?_, ih.filter _⟩
    have kept := (List.mem_filter.mp member).2
    simp only [decide_eq_true_eq] at kept
    exact Ne.symm kept

theorem Run.bySession_spec (member : core ∈ run.bySession symbol) : core.Fetched run symbol :=
  Run.fetchedBars_spec (mem_firstRows member)

theorem Run.bySession_unique {other : BarCore} (member : core ∈ run.bySession symbol)
    (otherIn : other ∈ run.bySession symbol) (same : core.session = other.session) : core = other := by
  have apart : Std.Symm fun one other : BarCore => one.session ≠ other.session := ⟨fun _ _ => Ne.symm⟩
  by_contra different
  exact (firstRows_sessions (run.fetchedBars symbol)).forall member otherIn different same

theorem Run.refused_unusable (member : core ∈ run.bySession symbol) : core.session ∉ run.refused symbol := by
  intro refused
  obtain ⟨row, rowIn, session⟩ := List.mem_filterMap.mp refused
  have kept := (List.mem_filter.mp (mem_stableSort.mp rowIn)).2
  rw [session] at kept
  simp only [Option.all_some, Bool.not_eq_true', List.any_eq_false, decide_eq_true_eq] at kept
  exact kept core (mem_firstRows member) rfl

end Fetch

section Lookups
variable {A B : Type} [BEq A] [LawfulBEq A] [DecidableEq A]

theorem lookup_graph {table : List (A × B)} {value : A → B}
    (graph : ∀ entry ∈ table, entry.2 = value entry.1) (key : A) :
    table.lookup key = if key ∈ table.map Prod.fst then some (value key) else none := by
  induction table with
  | nil => rfl
  | cons entry rest ih =>
    obtain ⟨first, found⟩ := entry
    have tail := ih fun other member => graph other (by simp [member])
    by_cases here : key = first
    · subst here
      have known : found = value key := graph (key, found) (by simp)
      simp [List.lookup_cons, known]
    · have apart : (key == first) = false := by simpa using here
      simp only [List.lookup_cons, apart, Bool.false_eq_true, if_false, tail, List.map_cons, List.mem_cons, here, false_or]

end Lookups

theorem latestRow_spec {rows : List (Bar Digest)} {row : Bar Digest} (found : latestRow rows = some row) :
    row ∈ rows ∧ ∀ other ∈ rows, other.fetchedAt ≤ row.fetchedAt := latest_spec found

section Reads
variable {bars extra : List (Bar Digest)} {market symbol : String} {asOf since last session : Int}

def rowsAt (bars : List (Bar Digest)) (market symbol : String) (asOf since last session : Int) :
    List (Bar Digest) :=
  bars.filter fun bar => bar.market = market ∧ bar.symbol = symbol ∧ bar.fetchedAt ≤ asOf ∧
    since ≤ bar.session ∧ bar.session ≤ last ∧ bar.session = session

theorem mem_priceBars {bar : Bar Digest} : bar ∈ priceBars bars market symbol asOf since last ↔
    latestRow (rowsAt bars market symbol asOf since last bar.session) = some bar := by
  have rows : ∀ session, ((bars.filter fun bar => bar.market = market ∧ bar.symbol = symbol ∧
      bar.fetchedAt ≤ asOf ∧ since ≤ bar.session ∧ bar.session ≤ last).filter
        fun bar => bar.session = session) = rowsAt bars market symbol asOf since last session := by
    intro session
    unfold rowsAt
    rw [List.filter_filter]
    refine List.filter_congr fun bar _ => ?_
    rw [Bool.eq_iff_iff]
    simp only [Bool.and_eq_true, decide_eq_true_eq]
    tauto
  unfold priceBars
  simp only [rows, List.mem_filterMap, mem_stableSort, List.mem_dedup, List.mem_map]
  constructor
  · rintro ⟨session, _, found⟩
    have member := (List.mem_filter.mp (latestRow_spec found).1).2
    simp only [decide_eq_true_eq] at member
    rw [member.2.2.2.2.2]
    exact found
  · intro found
    have member := List.mem_filter.mp (latestRow_spec found).1
    simp only [decide_eq_true_eq] at member
    refine ⟨bar.session, ⟨bar, List.mem_filter.mpr ⟨member.1, ?_⟩, rfl⟩, found⟩
    simp only [decide_eq_true_eq]
    tauto

theorem priceBars_sorted : (priceBars bars market symbol asOf since last).Pairwise
    fun one other => one.session < other.session := by
  unfold priceBars
  simp only
  have sessions := stableSort_sorted id ((bars.filter fun bar => bar.market = market ∧
    bar.symbol = symbol ∧ bar.fetchedAt ≤ asOf ∧ since ≤ bar.session ∧ bar.session ≤ last).map
      fun bar => bar.session).dedup
  have distinct : (stableSort id ((bars.filter fun bar => bar.market = market ∧
    bar.symbol = symbol ∧ bar.fetchedAt ≤ asOf ∧ since ≤ bar.session ∧ bar.session ≤ last).map
      fun bar => bar.session).dedup).Nodup := (stableSort_perm _ _).nodup_iff.mpr (List.nodup_dedup _)
  refine List.pairwise_filterMap.mpr ((sessions.and distinct).imp fun order one isOne other isOther => ?_)
  have first := (List.mem_filter.mp (latestRow_spec isOne).1).2
  have second := (List.mem_filter.mp (latestRow_spec isOther).1).2
  simp only [decide_eq_true_eq] at first second
  rw [first, second]
  exact lt_of_le_of_ne order.1 order.2

theorem priceBars_append (unseen : ∀ bar ∈ extra, bar.market = market → asOf < bar.fetchedAt) :
    priceBars (bars ++ extra) market symbol asOf since last = priceBars bars market symbol asOf since last := by
  have none : (extra.filter fun bar => bar.market = market ∧ bar.symbol = symbol ∧
      bar.fetchedAt ≤ asOf ∧ since ≤ bar.session ∧ bar.session ≤ last) = [] := by
    refine List.filter_eq_nil_iff.mpr fun bar member => ?_
    simp only [decide_eq_true_eq]
    intro read
    have := unseen bar member read.1
    omega
  unfold priceBars
  rw [List.filter_append, none, List.append_nil]

end Reads
end C3po.Prices
