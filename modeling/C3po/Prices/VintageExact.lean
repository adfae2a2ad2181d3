import C3po.Prices.Served

/-! What a cut sees is one vintage, bar for bar.

The manifest of a run records the hash of every symbol it fetched and the symbols
whose chain it cannot reproduce. The reader's refused sessions are the run's, its
chain is the run's chain, and the chain reproduces what the run fetched; so the
recorded hash is met exactly for the other symbols.
-/

set_option autoImplicit false

namespace C3po.Prices
open C3po.Library

variable {Digest : Type}

section Recorded
variable (hashing : Hashing Digest) (run : Run) (symbol : String)

theorem Run.seriesShas_lookup : (run.seriesShas hashing).lookup symbol =
    if symbol ∈ run.fetched then some (run.seriesShaOf hashing symbol) else none := by
  have graph : ∀ entry ∈ run.seriesShas hashing, entry.2 = run.seriesShaOf hashing entry.1 := by
    intro entry member
    obtain ⟨name, _, rfl⟩ := List.mem_map.mp (mem_stableSort.mp member)
    rfl
  have names : symbol ∈ (run.seriesShas hashing).map Prod.fst ↔ symbol ∈ run.fetched := by
    simp [Run.seriesShas, mem_stableSort]
  simp only [lookup_graph graph, names]

theorem Run.unreproducible_lookup (hashes : Hashes Digest) :
    ((stableSort Prod.fst (run.unreproducible hashes)).lookup symbol).isSome ↔
      symbol ∈ run.fetched ∧ run.stale hashes symbol ≠ [] := by
  have graph : ∀ entry ∈ stableSort Prod.fst (run.unreproducible hashes),
      entry.2 = run.stale hashes entry.1 := by
    intro entry member
    obtain ⟨name, _, rfl⟩ := List.mem_map.mp (List.mem_of_mem_filter (mem_stableSort.mp member))
    rfl
  have names : symbol ∈ (stableSort Prod.fst (run.unreproducible hashes)).map Prod.fst ↔
      symbol ∈ run.fetched ∧ run.stale hashes symbol ≠ [] := by
    simp [Run.unreproducible, mem_stableSort]
  rw [lookup_graph graph]
  split
  · rename_i listed
    simpa using names.mp listed
  · rename_i unlisted
    simpa using fun fetched => not_not.mp fun dropped => unlisted (names.mpr ⟨fetched, dropped⟩)

theorem Run.rejected_lookup (fetched : symbol ∈ run.fetched) :
    ((stableSort Prod.fst ((run.wanted.map fun symbol => (symbol, run.rejected symbol)).filter
      fun entry => entry.2 ≠ [])).lookup symbol).getD [] = run.rejected symbol := by
  have graph : ∀ entry ∈ stableSort Prod.fst ((run.wanted.map fun symbol =>
      (symbol, run.rejected symbol)).filter fun entry => entry.2 ≠ []),
      entry.2 = run.rejected entry.1 := by
    intro entry member
    obtain ⟨name, _, rfl⟩ := List.mem_map.mp (List.mem_of_mem_filter (mem_stableSort.mp member))
    rfl
  have wanted := (Run.mem_fetched.mp fetched).1
  rw [lookup_graph graph]
  split
  · rfl
  · rename_i unlisted
    by_contra recorded
    exact unlisted (by simpa [mem_stableSort] using ⟨wanted, Ne.symm recorded⟩)

def withRejected (sessions : Dict Int (List String)) (row : Rejected) : Dict Int (List String) :=
  match row.session with
  | some session => sessions.insert session row.missing
  | none => sessions

theorem contains_rejectedSessions (rows : List Rejected) (session : Int) :
    (rejectedSessions rows).contains session = true ↔ session ∈ rows.filterMap Rejected.session := by
  have loop : ∀ known : Dict Int (List String), (rows.foldl withRejected known).contains session = true ↔
      known.contains session = true ∨ session ∈ rows.filterMap Rejected.session := by
    induction rows with
    | nil => simp
    | cons row rest ih =>
      intro known
      rw [List.foldl_cons, ih]
      unfold withRejected
      cases isSession : row.session with
      | none => simp [isSession]
      | some refused =>
        simp only [Dict.contains, Dict.get?_insert, List.filterMap_cons, isSession, List.mem_cons]
        by_cases here : refused = session
        · simp [here]
        · simp [Ne.symm here]
  exact (loop Dict.empty).trans (by simp [Dict.contains])

end Recorded

variable [DecidableEq Digest] {hashing : Hashing Digest} {service : Service Digest}

def Run.vintage (hashing : Hashing Digest) (run : Run) (hashes : Hashes Digest) (id : String)
    (clock : Int) : Vintage Digest :=
  { publicationId := id
    priceSnapshotId := some run.snapshotId
    availableAt := clock
    fetchedAt := some run.fetchedAt
    startedAt := some run.startedAt
    status := .ok
    window := some (run.first, run.last)
    seriesSha := (run.manifestOutputs hashing hashes).seriesSha
    seriesBars := (run.manifestOutputs hashing hashes).seriesBars
    symbolsUnreproducible := (run.manifestOutputs hashing hashes).symbolsUnreproducible
    rowsRejected := (run.manifestOutputs hashing hashes).rowsRejected
    barsSha := some (run.barsSha hashing) }

theorem vintageOf_publicationRow {store : Store Digest} (ids : (store.snapshots.map Snapshot.id).Nodup)
    {run : Run} {hashes : Hashes Digest} {supersedes : Option String}
    (stored : .manifest (manifestRow hashing run hashes supersedes) ∈ store.snapshots)
    (id : String) (clock : Int) (superseded : Option String) :
    vintageOf store run.market.key (publicationRow hashing run id clock superseded) =
      run.vintage hashing hashes id clock := by
  have found : store.snapshotById (publicationRow hashing run id clock superseded).inputs.priceSnapshotId =
      some (.manifest (manifestRow hashing run hashes supersedes)) := snapshotById_eq ids stored
  unfold vintageOf attestedManifest
  rw [found]
  simp [publicationRow, manifestRow, Run.publishRequest, Run.manifestInputs, Run.manifestOutputs,
    Run.vintage, run.named]

omit [DecidableEq Digest] in
theorem chain_runChain (bars : List (Bar Digest)) {run : Run} {symbol : String} :
    chain bars run.market.key symbol run.fetchedAt run.first run.last
      (rejectedSessions (run.rejected symbol)) = runChain bars run symbol := by
  unfold chain runChain
  refine List.filter_congr fun bar _ => ?_
  have refused := contains_rejectedSessions (run.rejected symbol) bar.session
  rw [Bool.eq_iff_iff]
  simp [← refused, Run.refused]

omit [DecidableEq Digest] in
theorem mem_runChain {bars : List (Bar Digest)} {run : Run} {symbol : String} {bar : Bar Digest}
    (member : bar ∈ runChain bars run symbol) : bar ∈ bars :=
  List.mem_of_mem_filter (latestRow_spec (mem_priceBars.mp (List.mem_of_mem_filter member))).1

theorem seriesSha_runChain {run : Run} {symbol : String} (sound : service.Sound hashing)
    (reproduces : Reproduces service.store.bars run symbol) :
    seriesSha hashing ((runChain service.store.bars run symbol).map fun bar => (bar.session, bar.sha)) =
      run.seriesShaOf hashing symbol := by
  have content : (runChain service.store.bars run symbol).map (fun bar => (bar.session, bar.sha)) =
      ((runChain service.store.bars run symbol).map Bar.toBarCore).map
        fun core => (core.session, hashing.bar core) := by
    rw [List.map_map]
    refine List.map_congr_left fun bar member => ?_
    rw [(sound.bars bar (mem_runChain member)).content]
    rfl
  unfold Reproduces at reproduces
  unfold Run.seriesShaOf seriesSha
  rw [content, reproduces, stableSort_map, stableSort_map]
  congr 2
  exact stableSort_of_sorted (stableSort_sorted _ _)

theorem readSeries_vintage (sound : service.Sound hashing)
    {run : Run} {hashes : Hashes Digest} (reproduces : ∀ symbol ∈ run.fetched,
      run.stale hashes symbol = [] → Reproduces service.store.bars run symbol)
    (symbol id : String) (clock : Int) :
    ((readSeries hashing service.store run.market.key symbol (run.vintage hashing hashes id clock)).status =
        .ok ↔ symbol ∈ run.fetched ∧ run.stale hashes symbol = []) ∧
      (symbol ∈ run.fetched → run.stale hashes symbol = [] →
        (readSeries hashing service.store run.market.key symbol
          (run.vintage hashing hashes id clock)).bars = runChain service.store.bars run symbol) := by
  unfold readSeries
  simp only [Run.vintage, Run.manifestOutputs, Run.seriesShas_lookup]
  by_cases fetched : symbol ∈ run.fetched
  · simp only [fetched, if_true, true_and, forall_true_left]
    have dropped := Run.unreproducible_lookup run symbol hashes
    by_cases fresh : run.stale hashes symbol = []
    · have kept : ((stableSort Prod.fst (run.unreproducible hashes)).lookup symbol).isSome = false := by
        rw [Bool.eq_false_iff]
        exact fun listed => (dropped.mp listed).2 fresh
      have canonical : (runChain service.store.bars run symbol).any
          (fun bar => barContentSha hashing bar ≠ some bar.sha) = false := by
        refine List.any_eq_false.mpr fun bar member => ?_
        have stored := sound.bars bar (mem_runChain member)
        simp [barContentSha_canonical hashing stored.canonical, stored.content]
      simp only [kept, Bool.false_eq_true, if_false, Run.rejected_lookup run symbol fetched, chain_runChain,
        canonical, seriesSha_runChain sound (reproduces symbol fetched fresh), ne_eq, not_true_eq_false,
        fresh, and_self, forall_true_left]
    · have listed := dropped.mpr ⟨fetched, fresh⟩
      simp [listed, fresh]
  · simp [fetched]

/-- The cut's latest publication attests a hash for the symbol and does not call it unreproducible. -/
def Recorded (store : Store Digest) (market symbol : String) (cut : Int) : Prop :=
  ∃ row manifest, store.latestPublicationBefore market cut = some row ∧
    store.snapshotById row.inputs.priceSnapshotId = some (.manifest manifest) ∧
    (manifest.outputs.seriesSha.lookup symbol).isSome ∧
    manifest.outputs.symbolsUnreproducible.lookup symbol = none

/-- The bars are what the one run that the cut's latest publication publishes fetched. -/
def OneVintage (service : Service Digest) (market symbol : String) (cut : Int)
    (bars : List (Bar Digest)) : Prop :=
  ∃ row, service.store.latestPublicationBefore market cut = some row ∧
    ∃ run ∈ service.captured, run.snapshotId = row.inputs.priceSnapshotId ∧ run.market.key = market ∧
      (∀ other ∈ service.captured, other.snapshotId = row.inputs.priceSnapshotId → other = run) ∧
      bars.map Bar.toBarCore = stableSort (fun core => core.session) (run.bySession symbol)

/-- A series is served exactly when its vintage records it, and is that vintage bar for bar. -/
theorem vintage_exact (hashing : Hashing Digest) (injective : Function.Injective hashing.bar)
    (acts : List Act) (market symbol : String) (cut : Int) :
    ((series hashing (serve hashing acts).store (serve hashing acts).cache market symbol cut).1.status =
        .ok ↔ Recorded (serve hashing acts).store market (normalise symbol) cut) ∧
      ((series hashing (serve hashing acts).store (serve hashing acts).cache market symbol cut).1.status =
          .ok → OneVintage (serve hashing acts) market (normalise symbol) cut
        (series hashing (serve hashing acts).store (serve hashing acts).cache market symbol cut).1.bars) := by
  have sound := serve_sound hashing acts
  rw [(series_answer sound.ids sound.cached).1]
  unfold answer Recorded OneVintage
  cases found : (serve hashing acts).store.latestPublicationBefore market cut with
  | none => simp
  | some row =>
    obtain ⟨stored, own⟩ := mem_publications.mp (latestPublicationBefore_spec found).1
    obtain ⟨run, known, clock, superseded, hashes, supersedes, built, manifest, reproduces⟩ :=
      sound.origin stored
    have isMarket : run.market.key = market := by rw [← own, built]; rfl
    have isRun : run.snapshotId = row.inputs.priceSnapshotId := by rw [built]; rfl
    have attested : (serve hashing acts).store.snapshotById row.inputs.priceSnapshotId =
        some (.manifest (manifestRow hashing run hashes supersedes)) := by
      rw [← isRun]
      exact snapshotById_eq sound.ids manifest
    have read : vintageOf (serve hashing acts).store market row =
        run.vintage hashing hashes row.id clock := by
      rw [built, ← isMarket]
      exact vintageOf_publicationRow sound.ids manifest row.id clock superseded
    obtain ⟨served, bars⟩ := readSeries_vintage sound (reproduces injective) (normalise symbol)
      row.id clock
    simp only [read]
    rw [isMarket] at served bars
    refine ⟨served.trans ⟨fun ⟨fetched, fresh⟩ => ?_, ?_⟩, fun ok => ?_⟩
    · refine ⟨row, _, rfl, attested, ?_, ?_⟩
      · simp [manifestRow, Run.manifestOutputs, Run.seriesShas_lookup, fetched]
      · by_contra listed
        exact ((Run.unreproducible_lookup run (normalise symbol) hashes).mp
          (Option.isSome_iff_ne_none.mpr listed)).2 fresh
    · rintro ⟨_, _, same, isManifest, listed, reproducible⟩
      cases same
      rw [attested] at isManifest
      cases isManifest
      simp only [manifestRow, Run.manifestOutputs, Run.seriesShas_lookup] at listed reproducible
      have fetched : normalise symbol ∈ run.fetched := by
        by_contra absent
        simp [absent] at listed
      refine ⟨fetched, not_not.mp fun dropped => ?_⟩
      have recorded := (Run.unreproducible_lookup run (normalise symbol) hashes).mpr ⟨fetched, dropped⟩
      rw [reproducible] at recorded
      cases recorded
    · obtain ⟨fetched, fresh⟩ := served.mp ok
      refine ⟨row, rfl, run, known, isRun, isMarket, fun other otherKnown same => ?_, ?_⟩
      · exact List.inj_on_of_nodup_map sound.runs otherKnown known (same.trans isRun.symm)
      · rw [bars fetched fresh]
        exact reproduces injective _ fetched fresh

theorem vintage_exact_lastNight :
    (series plain (serve plain (nights ++ lastNight)).store (serve plain (nights ++ lastNight)).cache
        "NASDAQ" " aapl" 320).1.status = .ok ∧
      OneVintage (serve plain (nights ++ lastNight)) "NASDAQ" (normalise " aapl") 320
        (series plain (serve plain (nights ++ lastNight)).store (serve plain (nights ++ lastNight)).cache
          "NASDAQ" " aapl" 320).1.bars :=
  ⟨by decide +kernel, (vintage_exact plain plain_injective (nights ++ lastNight) "NASDAQ" " aapl" 320).2
    (by decide +kernel)⟩

end C3po.Prices
