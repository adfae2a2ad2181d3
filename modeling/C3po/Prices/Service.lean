import C3po.Prices.Readers

/-! A capture leaves a chain that reproduces what its run fetched.

For every symbol of the run with no dropped session, the chain up to the capture has
one row for each fetched session, with the fetched content: the row just inserted,
or the latest row when its hash says that nothing changed.
-/

set_option autoImplicit false

namespace C3po.Prices
open C3po.Library

variable {Digest : Type}

theorem sameKey_iff {first second : Bar Digest} : sameKey first second = true ↔
    first.market = second.market ∧ first.symbol = second.symbol ∧ first.session = second.session ∧
      first.source = second.source ∧ first.fetchedAt = second.fetchedAt := by
  simp [sameKey]

theorem takeBars_spec (bars new : List (Bar Digest)) :
    ∃ extra, takeBars bars new = bars ++ extra ∧ (∀ bar ∈ extra, bar ∈ new) ∧
      ∀ bar ∈ new, ∃ other ∈ bars ++ extra, sameKey bar other = true := by
  induction new generalizing bars with
  | nil => exact ⟨[], by simp [takeBars], by simp, by simp⟩
  | cons bar rest ih =>
    by_cases present : bars.any (sameKey bar) = true
    · obtain ⟨extra, taken, source, kept⟩ := ih bars
      refine ⟨extra, by simp [takeBars, present, taken], fun other member =>
        List.mem_cons_of_mem _ (source other member), fun other member => ?_⟩
      rcases List.mem_cons.mp member with rfl | later
      · obtain ⟨found, foundIn, same⟩ := List.any_eq_true.mp present
        exact ⟨found, List.mem_append_left _ foundIn, same⟩
      · exact kept other later
    · obtain ⟨extra, taken, source, kept⟩ := ih (bars ++ [bar])
      refine ⟨bar :: extra, by simp [takeBars, present, taken], fun other member => ?_,
        fun other member => ?_⟩
      · rcases List.mem_cons.mp member with rfl | later
        · exact List.mem_cons_self
        · exact List.mem_cons_of_mem _ (source other later)
      · rcases List.mem_cons.mp member with rfl | later
        · exact ⟨other, by simp, sameKey_iff.mpr ⟨rfl, rfl, rfl, rfl, rfl⟩⟩
        · simpa using kept other later

theorem lookup_hashes (bars : List (Bar Digest)) (market : String) (symbols : List String)
    (source symbol : String) (session : Int) :
    (latestPriceBarHashes bars market symbols source).lookup (symbol, session) =
      (latestRow ((bars.filter fun bar => bar.market = market ∧ bar.source = source ∧
        bar.symbol ∈ symbols).filter fun bar => (bar.symbol, bar.session) = (symbol, session))).map
          Bar.sha := by
  obtain ⟨rows, rowsEq⟩ : ∃ rows, rows = bars.filter fun bar => bar.market = market ∧
    bar.source = source ∧ bar.symbol ∈ symbols := ⟨_, rfl⟩
  have graph : ∀ (keys : List (String × Int)) (key : String × Int),
      (keys.filterMap fun key => (latestRow (rows.filter fun bar => (bar.symbol, bar.session) = key)).map
        fun bar => (key, bar.sha)).lookup key =
      if key ∈ keys then
        (latestRow (rows.filter fun bar => (bar.symbol, bar.session) = key)).map Bar.sha
      else none := by
    intro keys key
    induction keys with
    | nil => rfl
    | cons first rest ih =>
      rw [List.filterMap_cons]
      by_cases here : key = first
      · subst here
        cases found : latestRow (rows.filter fun bar => (bar.symbol, bar.session) = key) with
        | none => simp only [Option.map_none, ih, found, ite_self]
        | some bar => simp
      · have apart : (key == first) = false := by simpa using here
        cases latestRow (rows.filter fun bar => (bar.symbol, bar.session) = first) with
        | none => simp only [Option.map_none, ih, List.mem_cons, here, false_or]
        | some bar => simp only [Option.map_some, List.lookup_cons, apart, Bool.false_eq_true, if_false, ih, List.mem_cons, here, false_or]
  unfold latestPriceBarHashes
  simp only [← rowsEq]
  rw [graph]
  split
  · rfl
  · rename_i absent
    have none : rows.filter (fun bar => (bar.symbol, bar.session) = (symbol, session)) = [] := by
      refine List.filter_eq_nil_iff.mpr fun bar member same => absent ?_
      simp only [decide_eq_true_eq] at same
      exact List.mem_dedup.mpr (List.mem_map.mpr ⟨bar, member, same⟩)
    rw [none]
    rfl

/-- The stored rows of a market before a capture of the run. -/
structure Before (hashing : Hashing Digest) (bars : List (Bar Digest)) (run : Run) : Prop where
  content : ∀ bar ∈ bars, bar.sha = hashing.bar bar.toBarCore
  origin : ∀ bar ∈ bars, bar.source = source
  earlier : ∀ bar ∈ bars, bar.market = run.market.key → bar.fetchedAt < run.fetchedAt

/-- The chain of a symbol up to the run's capture, without the sessions the run refused. -/
def runChain (bars : List (Bar Digest)) (run : Run) (symbol : String) : List (Bar Digest) :=
  (priceBars bars run.market.key symbol run.fetchedAt run.first run.last).filter fun bar =>
    bar.session ∉ run.refused symbol

def Reproduces (bars : List (Bar Digest)) (run : Run) (symbol : String) : Prop :=
  (runChain bars run symbol).map Bar.toBarCore =
    stableSort (fun core => core.session) (run.bySession symbol)

theorem rowsAt_before {hashing : Hashing Digest} {bars : List (Bar Digest)} {run : Run}
    (before : Before hashing bars run) {symbol : String} (fetched : symbol ∈ run.fetched) {session : Int}
    (inside : run.first ≤ session ∧ session ≤ run.last) :
    ((bars.filter fun bar => bar.market = run.market.key ∧ bar.source = source ∧
      bar.symbol ∈ run.fetched).filter fun bar => (bar.symbol, bar.session) = (symbol, session)) =
      rowsAt bars run.market.key symbol run.fetchedAt run.first run.last session := by
  unfold rowsAt
  rw [List.filter_filter]
  refine List.filter_congr fun bar member => ?_
  have origin := before.origin bar member
  have earlier := before.earlier bar member
  rw [Bool.eq_iff_iff]
  simp only [Bool.and_eq_true, decide_eq_true_eq, Prod.mk.injEq]
  constructor
  · rintro ⟨⟨rfl, rfl⟩, market, _, _⟩
    exact ⟨market, rfl, (earlier market).le, inside.1, inside.2, rfl⟩
  · rintro ⟨market, rfl, _, _, _, rfl⟩
    exact ⟨⟨rfl, rfl⟩, market, origin, fetched⟩

variable [DecidableEq Digest]

theorem Run.mem_toInsert {hashing : Hashing Digest} {run : Run} {hashes : Hashes Digest} {bar : Bar Digest} :
    bar ∈ run.toInsert hashing hashes ↔ ∃ symbol ∈ run.fetched, ∃ core ∈ run.bySession symbol,
      hashes.lookup (symbol, core.session) ≠ some (hashing.bar core) ∧ bar = run.stamp hashing core := by
  simp only [Run.toInsert, List.mem_flatten, List.mem_map]
  constructor
  · rintro ⟨_, ⟨symbol, fetched, rfl⟩, member⟩
    obtain ⟨core, coreIn, rfl⟩ := List.mem_map.mp member
    obtain ⟨listed, changed⟩ := List.mem_filter.mp coreIn
    exact ⟨symbol, fetched, core, listed, by simpa using changed, rfl⟩
  · rintro ⟨symbol, fetched, core, listed, changed, rfl⟩
    exact ⟨_, ⟨symbol, fetched, rfl⟩, List.mem_map.mpr
      ⟨core, List.mem_filter.mpr ⟨listed, by simpa using changed⟩, rfl⟩⟩

section Capture
variable {hashing : Hashing Digest} {bars extra : List (Bar Digest)} {run : Run}

def Run.hashes (run : Run) (bars : List (Bar Digest)) : Hashes Digest :=
  latestPriceBarHashes bars run.market.key run.fetched source

structure Added (hashing : Hashing Digest) (bars extra : List (Bar Digest)) (run : Run) : Prop where
  changed : ∀ bar ∈ extra, bar ∈ run.toInsert hashing (run.hashes bars)
  kept : ∀ bar ∈ run.toInsert hashing (run.hashes bars),
    ∃ other ∈ bars ++ extra, sameKey bar other = true

theorem Added.spec (added : Added hashing bars extra run) {bar : Bar Digest} (member : bar ∈ extra) :
    ∃ symbol ∈ run.fetched, ∃ core ∈ run.bySession symbol,
      (run.hashes bars).lookup (symbol, core.session) ≠ some (hashing.bar core) ∧
        core.Fetched run symbol ∧ bar = run.stamp hashing core := by
  obtain ⟨symbol, fetched, core, listed, changed, stamped⟩ := Run.mem_toInsert.mp (added.changed bar member)
  exact ⟨symbol, fetched, core, listed, changed, Run.bySession_spec listed, stamped⟩

theorem latest_fetched (injective : Function.Injective hashing.bar) (before : Before hashing bars run)
    (added : Added hashing bars extra run) {symbol : String} (fetched : symbol ∈ run.fetched)
    {core : BarCore} (listed : core ∈ run.bySession symbol) :
    ∃ row, latestRow (rowsAt (bars ++ extra) run.market.key symbol run.fetchedAt run.first run.last
      core.session) = some row ∧ row.toBarCore = core := by
  have spec := Run.bySession_spec listed
  have lookup := lookup_hashes bars run.market.key run.fetched source symbol core.session
  rw [rowsAt_before before fetched spec.inside] at lookup
  by_cases unchanged : (run.hashes bars).lookup (symbol, core.session) = some (hashing.bar core)
  · -- the latest stored row has the same hash, and nothing of this session was inserted
    have none : rowsAt extra run.market.key symbol run.fetchedAt run.first run.last core.session = [] := by
      refine List.filter_eq_nil_iff.mpr fun bar member same => ?_
      obtain ⟨own, _, other, otherIn, changed, otherSpec, rfl⟩ := added.spec member
      simp only [decide_eq_true_eq] at same
      have ownSymbol : own = symbol := otherSpec.symbol.symm.trans same.2.1
      have ownSession : other.session = core.session := same.2.2.2.2.2
      exact changed (by rw [ownSymbol, ownSession, unchanged,
        Run.bySession_unique (ownSymbol ▸ otherIn) listed ownSession])
    have rows : rowsAt (bars ++ extra) run.market.key symbol run.fetchedAt run.first run.last core.session =
        rowsAt bars run.market.key symbol run.fetchedAt run.first run.last core.session := by
      unfold rowsAt at none ⊢
      rw [List.filter_append, none, List.append_nil]
    rw [rows]
    rw [Run.hashes, lookup, Option.map_eq_some_iff] at unchanged
    obtain ⟨row, found, sha⟩ := unchanged
    have content := before.content row (List.mem_filter.mp (latestRow_spec found).1).1
    exact ⟨row, found, injective (content.symm.trans sha)⟩
  · -- the fetched bar was inserted, and its clock is the latest
    have inserted := Run.mem_toInsert.mpr ⟨symbol, fetched, core, listed, unchanged, rfl⟩
    obtain ⟨row, rowIn, same⟩ := added.kept _ inserted
    rw [sameKey_iff] at same
    have rowMarket : row.market = run.market.key := same.1.symm.trans spec.market
    have rowSymbol : row.symbol = symbol := same.2.1.symm.trans spec.symbol
    have rowClock : row.fetchedAt = run.fetchedAt := same.2.2.2.2.symm
    have stamped : ∀ other ∈ extra, other.symbol = symbol → other.session = core.session →
        other = run.stamp hashing core := by
      intro other member ofSymbol ofSession
      obtain ⟨own, _, found, foundIn, _, foundSpec, rfl⟩ := added.spec member
      have ownSymbol : own = symbol := foundSpec.symbol.symm.trans ofSymbol
      have sameSession : found.session = core.session := ofSession
      rw [Run.bySession_unique (ownSymbol ▸ foundIn) listed sameSession]
    have new : row ∈ extra := by
      rcases List.mem_append.mp rowIn with old | new
      · have := before.earlier row old rowMarket
        omega
      · exact new
    have rowEq := stamped row new rowSymbol same.2.2.1.symm
    refine ⟨row, latest_eq (List.mem_filter.mpr ⟨rowIn, ?_⟩) fun other otherIn apart => ?_, by rw [rowEq]; rfl⟩
    · simp only [decide_eq_true_eq]
      have session : row.session = core.session := same.2.2.1.symm
      exact ⟨rowMarket, rowSymbol, rowClock.le, session ▸ spec.inside.1, session ▸ spec.inside.2, session⟩
    · obtain ⟨otherRow, read⟩ := List.mem_filter.mp otherIn
      simp only [decide_eq_true_eq] at read
      rcases List.mem_append.mp otherRow with old | newer
      · have := before.earlier other old read.1
        omega
      · exact absurd ((stamped other newer read.2.1 read.2.2.2.2.2).trans rowEq.symm) apart

theorem rowsAt_unfetched (before : Before hashing bars run) (added : Added hashing bars extra run)
    {symbol : String} (fetched : symbol ∈ run.fetched) (fresh : run.stale (run.hashes bars) symbol = [])
    {session : Int} (inside : run.first ≤ session ∧ session ≤ run.last)
    (unlisted : ∀ core ∈ run.bySession symbol, core.session ≠ session)
    (unrefused : session ∉ run.refused symbol) :
    rowsAt (bars ++ extra) run.market.key symbol run.fetchedAt run.first run.last session = [] := by
  have old : rowsAt bars run.market.key symbol run.fetchedAt run.first run.last session = [] := by
    have lookup := lookup_hashes bars run.market.key run.fetched source symbol session
    rw [rowsAt_before before fetched inside] at lookup
    cases found : latestRow (rowsAt bars run.market.key symbol run.fetchedAt run.first run.last session) with
    | none => exact latest_none.mp found
    | some row =>
      exfalso
      rw [found] at lookup
      have listed : ((symbol, session), row.sha) ∈ run.hashes bars := by
        obtain ⟨front, back, whole, _⟩ := List.lookup_eq_some_iff.mp lookup
        rw [Run.hashes, whole]
        exact List.mem_append_right _ List.mem_cons_self
      have dropped : session ∈ run.stale (run.hashes bars) symbol := by
        refine mem_stableSort.mpr (List.mem_map.mpr ⟨_, List.mem_filter.mpr ⟨listed, ?_⟩, rfl⟩)
        simp only [decide_eq_true_eq, Bool.not_eq_true', List.any_eq_false]
        exact ⟨trivial, inside.1, inside.2, by simpa using unlisted, unrefused⟩
      rw [fresh] at dropped
      cases dropped
  have new : rowsAt extra run.market.key symbol run.fetchedAt run.first run.last session = [] := by
    refine List.filter_eq_nil_iff.mpr fun bar member same => ?_
    obtain ⟨own, _, other, otherIn, _, otherSpec, rfl⟩ := added.spec member
    simp only [decide_eq_true_eq] at same
    have ownSymbol : own = symbol := otherSpec.symbol.symm.trans same.2.1
    exact unlisted other (ownSymbol ▸ otherIn) same.2.2.2.2.2
  unfold rowsAt at old new ⊢
  rw [List.filter_append, old, new, List.append_nil]

theorem capture_reproduces (injective : Function.Injective hashing.bar) (before : Before hashing bars run)
    (added : Added hashing bars extra run) {symbol : String} (fetched : symbol ∈ run.fetched)
    (fresh : run.stale (run.hashes bars) symbol = []) : Reproduces (bars ++ extra) run symbol := by
  have antisymm : Std.Antisymm fun one other : BarCore => one.session < other.session :=
    ⟨fun _ _ less more => absurd less more.asymm⟩
  have irrefl : Std.Irrefl fun one other : BarCore => one.session < other.session :=
    ⟨fun _ => lt_irrefl _⟩
  have chainSorted : ((runChain (bars ++ extra) run symbol).map Bar.toBarCore).Pairwise
      fun one other => one.session < other.session :=
    List.pairwise_map.mpr (priceBars_sorted.filter _)
  have fetchedSorted : (stableSort (fun core => core.session) (run.bySession symbol)).Pairwise
      fun one other => one.session < other.session := by
    have apart : (stableSort (fun core : BarCore => core.session) (run.bySession symbol)).Pairwise
        fun one other => one.session ≠ other.session :=
      (stableSort_perm _ _).symm.pairwise (firstRows_sessions _) Ne.symm
    exact ((stableSort_sorted _ _).and apart).imp fun order => lt_of_le_of_ne order.1 order.2
  refine chainSorted.eq_of_mem_iff fetchedSorted fun core => ?_
  rw [mem_stableSort, List.mem_map]
  constructor
  · rintro ⟨bar, member, rfl⟩
    obtain ⟨read, unrefused⟩ := List.mem_filter.mp member
    have unrefused : bar.session ∉ run.refused symbol := by simpa using unrefused
    have found := mem_priceBars.mp read
    have row := (List.mem_filter.mp (latestRow_spec found).1).2
    simp only [decide_eq_true_eq] at row
    by_contra unlisted
    have missing : ∀ core ∈ run.bySession symbol, core.session ≠ bar.session := by
      intro core listed same
      obtain ⟨fetchedRow, fetchedFound, content⟩ := latest_fetched injective before added fetched listed
      rw [same, found] at fetchedFound
      cases fetchedFound
      exact unlisted (content ▸ listed)
    have none := rowsAt_unfetched before added fetched fresh ⟨row.2.2.2.1, row.2.2.2.2.1⟩ missing unrefused
    rw [none] at found
    cases found
  · intro listed
    obtain ⟨row, found, content⟩ := latest_fetched injective before added fetched listed
    have session : core.session = row.session := by rw [← content]
    refine ⟨row, List.mem_filter.mpr ⟨mem_priceBars.mpr (session ▸ found), ?_⟩, content⟩
    simpa [← session] using Run.refused_unusable listed

end Capture
end C3po.Prices

/-! The price history service over any run.

Processes capture runs, publish the runs they captured and read series through a
cache, in any order. `Sound` holds in every reachable state: every captured run has
its manifest and a chain that reproduces it, every publication is of a captured run,
and every stored row has the clock of a capture.
-/

namespace C3po.Prices
open C3po.Library

variable {Digest : Type} [DecidableEq Digest]

/-- The store, the runs whose capture committed, and a reader's cache. -/
structure Service (Digest : Type) where
  store : Store Digest := {}
  captured : List Run := []
  cache : Cache Digest := []

inductive Act where
  | capture (run : Run)
  | publish (snapshotId publicationId : String) (clock : Int)
  | read (market symbol : String) (cut : Int)

def Service.act (hashing : Hashing Digest) (service : Service Digest) : Act → Service Digest
  | .capture run =>
      match run.capture hashing service.store with
      | (.ok _, store) => { service with store := store, captured := service.captured ++ [run] }
      | (.error _, store) => { service with store := store }
  | .publish snapshotId publicationId clock =>
      match service.captured.find? fun run => run.snapshotId = snapshotId with
      | some run => { service with store := (run.publish hashing publicationId clock service.store).2 }
      | none => service
  | .read market symbol cut =>
      { service with cache := (series hashing service.store service.cache market symbol cut).2 }

def serve (hashing : Hashing Digest) (acts : List Act) : Service Digest :=
  acts.foldl (Service.act hashing) {}

section Nights

/-- Contents in place of their hashes. -/
def plain : Hashing (List BarCore) where
  bar core := [core]
  series bars := (bars.map Prod.snd).flatten
  market series := (series.map Prod.snd).flatten

theorem plain_injective : Function.Injective plain.bar := fun _ _ same => List.singleton_injective same

/-- A run that fetched one symbol, one close a session. -/
def nightRun (id : String) (named : id ≠ "") (due : Option Int) (closes : List ℚ) (clock : Int) : Run where
  market := .nasdaq
  first := 1
  last := 9
  symbols := ["AAPL"]
  answer _ := some (closes.zipIdx.map fun entry => ⟨some (entry.2 + 1), some entry.1, some entry.1, none⟩)
  startedAt := clock
  fetchedAt := clock
  snapshotId := id
  named := named
  due := due

/-- A night published and read, and a night captured with a revision but never published. -/
def nights : List Act :=
  [.capture (nightRun "first" (by decide) none [10, 11] 100), .publish "first" "one" 110,
    .read "NASDAQ" "AAPL" 150, .capture (nightRun "lost" (by decide) none [10, 12] 200)]

/-- A night whose answer takes the revision back. -/
def lastNight : List Act :=
  [.capture (nightRun "third" (by decide) none [10, 11, 13] 300), .publish "third" "two" 310]

end Nights

def manifestRow (hashing : Hashing Digest) (run : Run) (hashes : Hashes Digest)
    (supersedes : Option String) : Manifest Digest :=
  ⟨run.snapshotId, run.market.key, run.manifestInputs, run.manifestOutputs hashing hashes,
    run.fetchedAt, supersedes⟩

def publicationRow (hashing : Hashing Digest) (run : Run) (id : String) (clock : Int)
    (supersedes : Option String) : Publication Digest :=
  ⟨id, run.market.key, { (run.publishRequest hashing id clock).inputs with availableAt := some clock },
    (run.publishRequest hashing id clock).outputs, clock, supersedes⟩

/-- The captured run's manifest is there, and so are the chains it can reproduce. -/
def Kept (hashing : Hashing Digest) (store : Store Digest) (run : Run) : Prop :=
  ∃ hashes supersedes, .manifest (manifestRow hashing run hashes supersedes) ∈ store.snapshots ∧
    (Function.Injective hashing.bar →
      ∀ symbol ∈ run.fetched, run.stale hashes symbol = [] → Reproduces store.bars run symbol)

structure StoredBar (hashing : Hashing Digest) (captured : List Run) (bar : Bar Digest) : Prop where
  content : bar.sha = hashing.bar bar.toBarCore
  origin : bar.source = source
  canonical : bar.toBarCore.Canonical
  clock : ∃ run ∈ captured, bar.market = run.market.key ∧ bar.fetchedAt = run.fetchedAt

def Cached (hashing : Hashing Digest) (store : Store Digest) (entry : CacheKey × Series Digest) : Prop :=
  ∃ row market symbol, .publication row ∈ store.snapshots ∧ entry.1 = (row.id, market, symbol) ∧
    row.entityKey = market ∧ entry.2 = readSeries hashing store market symbol (vintageOf store market row)

structure Service.Sound (hashing : Hashing Digest) (service : Service Digest) : Prop where
  ids : (service.store.snapshots.map Snapshot.id).Nodup
  runs : (service.captured.map Run.snapshotId).Nodup
  kept : ∀ run ∈ service.captured, Kept hashing service.store run
  published : ∀ row, .publication row ∈ service.store.snapshots →
    ∃ run ∈ service.captured, ∃ clock supersedes, row = publicationRow hashing run row.id clock supersedes
  bars : ∀ bar ∈ service.store.bars, StoredBar hashing service.captured bar
  cached : ∀ entry ∈ service.cache, Cached hashing service.store entry

structure Captures (hashing : Hashing Digest) (service next : Service Digest) (run : Run) : Prop where
  accepted : CaptureAccepted service.store (run.captureRequest hashing)
  captured : next.captured = service.captured ++ [run]
  fresh : ∀ other ∈ service.store.snapshots, other.id ≠ run.snapshotId
  snapshots : ∃ supersedes, next.store.snapshots = service.store.snapshots ++
    [.manifest (manifestRow hashing run (run.hashes service.store.bars) supersedes)]
  bars : ∃ extra, next.store.bars = service.store.bars ++ extra ∧
    Added hashing service.store.bars extra run

structure Publishes (hashing : Hashing Digest) (service next : Service Digest) (run : Run)
    (id : String) (clock : Int) : Prop where
  captured : next.captured = service.captured
  known : run ∈ service.captured
  accepted : PublicationAccepted service.store (run.publishRequest hashing id clock)
  fresh : ∀ other ∈ service.store.snapshots, other.id ≠ id
  snapshots : ∃ supersedes, next.store.snapshots = service.store.snapshots ++
    [.publication (publicationRow hashing run id clock supersedes)]
  bars : next.store.bars = service.store.bars

section
variable {hashing : Hashing Digest} {service : Service Digest}

theorem Service.act_cases (hashing : Hashing Digest) (service : Service Digest) (act : Act) :
    ((service.act hashing act).store = service.store ∧
      (service.act hashing act).captured = service.captured) ∨
    (∃ run, Captures hashing service (service.act hashing act) run) ∨
    ∃ run id clock, Publishes hashing service (service.act hashing act) run id clock := by
  cases act with
  | capture run =>
    unfold Service.act
    simp only
    cases outcome : run.capture hashing service.store with
    | mk result store =>
    cases result with
    | error refusal =>
      refine .inl ⟨?_, rfl⟩
      unfold Run.capture at outcome
      split_ifs at outcome
      · cases outcome; rfl
      · cases outcome; rfl
      · cases outcome; rfl
      · exact Transaction.commit_error outcome
    | ok inserted =>
      unfold Run.capture at outcome
      split_ifs at outcome
      all_goals try cases outcome
      obtain ⟨accepted, capture, supersedes, built, fresh, snapshots, bars⟩ := persist_ok outcome
      cases built
      obtain ⟨extra, taken, changed, kept⟩ := takeBars_spec service.store.bars
        (run.toInsert hashing (run.hashes service.store.bars))
      exact .inr (.inl ⟨run, accepted, rfl, fresh, ⟨supersedes, snapshots⟩, extra, bars.trans taken,
        changed, kept⟩)
  | publish snapshotId publicationId clock =>
    unfold Service.act
    simp only
    cases found : service.captured.find? fun run => run.snapshotId = snapshotId with
    | none => exact .inl ⟨rfl, rfl⟩
    | some run =>
      cases outcome : run.publish hashing publicationId clock service.store with
      | mk result written =>
      simp only [outcome]
      cases result with
      | error refusal =>
        refine .inl ⟨?_, trivial⟩
        unfold Run.publish publishPriceHistoryRun at outcome
        split_ifs at outcome
        · cases outcome; rfl
        · exact Transaction.commit_error outcome
      | ok availableAt =>
        obtain ⟨accepted, _, fresh, bars, supersedes, snapshots⟩ := publish_ok outcome
        exact .inr (.inr ⟨run, publicationId, clock, rfl, List.mem_of_find?_eq_some found, accepted,
          fresh, ⟨supersedes, snapshots⟩, bars⟩)
  | read market symbol cut => exact .inl ⟨rfl, rfl⟩

/-- What acts can do to a service: its rows stay, and later bars have later clocks. -/
structure Grown (service next : Service Digest) : Prop where
  snapshots : ∃ extra, next.store.snapshots = service.store.snapshots ++ extra
  captured : ∃ extra, next.captured = service.captured ++ extra
  bars : ∃ extra, next.store.bars = service.store.bars ++ extra ∧
    ∀ bar ∈ extra, ∀ run ∈ service.captured, bar.market = run.market.key → run.fetchedAt < bar.fetchedAt

omit [DecidableEq Digest] in
theorem Grown.refl (service : Service Digest) : Grown service service :=
  ⟨⟨[], by simp⟩, ⟨[], by simp⟩, [], by simp, by simp⟩

omit [DecidableEq Digest] in
theorem Grown.trans {middle next : Service Digest} (early : Grown service middle)
    (late : Grown middle next) : Grown service next := by
  obtain ⟨snapshots, snapshotsEq⟩ := early.snapshots
  obtain ⟨moreSnapshots, moreSnapshotsEq⟩ := late.snapshots
  obtain ⟨captured, capturedEq⟩ := early.captured
  obtain ⟨moreCaptured, moreCapturedEq⟩ := late.captured
  obtain ⟨bars, barsEq, later⟩ := early.bars
  obtain ⟨moreBars, moreBarsEq, moreLater⟩ := late.bars
  refine ⟨⟨snapshots ++ moreSnapshots, by rw [moreSnapshotsEq, snapshotsEq, List.append_assoc]⟩,
    ⟨captured ++ moreCaptured, by rw [moreCapturedEq, capturedEq, List.append_assoc]⟩,
    bars ++ moreBars, by rw [moreBarsEq, barsEq, List.append_assoc], fun bar member run known => ?_⟩
  rcases List.mem_append.mp member with first | second
  · exact later bar first run known
  · exact moreLater bar second run (by rw [capturedEq]; exact List.mem_append_left _ known)

theorem Captures.later {next : Service Digest} {run : Run} (sound : service.Sound hashing)
    (captures : Captures hashing service next run) {other : Run} (known : other ∈ service.captured)
    (same : run.market.key = other.market.key) : other.fetchedAt < run.fetchedAt := by
  obtain ⟨hashes, supersedes, stored, _⟩ := sound.kept other known
  refine captures.accepted.afterManifests (manifestRow hashing other hashes supersedes) ?_
  simp only [Store.manifests, List.mem_filter, List.mem_filterMap, decide_eq_true_eq]
  exact ⟨⟨_, stored, rfl⟩, same.symm⟩

theorem Service.act_grown (sound : service.Sound hashing) (act : Act) :
    Grown service (service.act hashing act) := by
  rcases service.act_cases hashing act with ⟨store, captured⟩ | ⟨run, captures⟩ |
    ⟨run, id, clock, publishes⟩
  · exact ⟨⟨[], by simp [store]⟩, ⟨[], by simp [captured]⟩, [], by simp [store], by simp⟩
  · obtain ⟨supersedes, snapshots⟩ := captures.snapshots
    obtain ⟨extra, bars, added⟩ := captures.bars
    refine ⟨⟨_, snapshots⟩, ⟨_, captures.captured⟩, extra, bars, fun bar member other known same => ?_⟩
    obtain ⟨_, _, core, _, _, spec, rfl⟩ := added.spec member
    exact captures.later sound known (spec.market.symm.trans same)
  · obtain ⟨supersedes, snapshots⟩ := publishes.snapshots
    exact ⟨⟨_, snapshots⟩, ⟨[], by simp [publishes.captured]⟩, [], by simp [publishes.bars], by simp⟩

end
end C3po.Prices
