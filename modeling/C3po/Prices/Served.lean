import C3po.Prices.Service

/-! Every run of the service is sound, and no act changes what a publication serves.

The rows a publication's series is read from are those up to its capture, and every
act only adds rows behind the captures there are. So a read of a publication gives
the same series at any later time, and a cached series is the one a read would give.
-/

set_option autoImplicit false

namespace C3po.Prices
open C3po.Library

variable {Digest : Type}

theorem snapshotById_eq {store : Store Digest} (ids : (store.snapshots.map Snapshot.id).Nodup)
    {row : Snapshot Digest} (member : row ∈ store.snapshots) : store.snapshotById row.id = some row := by
  unfold Store.snapshotById
  cases found : store.snapshots.find? fun other => other.id = row.id with
  | none =>
    have absent := List.find?_eq_none.mp found row member
    simp at absent
  | some other =>
    have same : other.id = row.id := by simpa using List.find?_some found
    rw [List.inj_on_of_nodup_map ids (List.mem_of_find?_eq_some found) member same]

theorem mem_publications {store : Store Digest} {market : String} {row : Publication Digest} :
    row ∈ store.publications market ↔ .publication row ∈ store.snapshots ∧ row.entityKey = market := by
  simp [Store.publications, Snapshot.publication?_eq]

variable [DecidableEq Digest] {hashing : Hashing Digest} {service next : Service Digest}

section Reads
variable {market symbol : String}

theorem readSeries_congr {store other : Store Digest} {vintage : Vintage Digest}
    (same : ∀ fetchedAt ∈ vintage.fetchedAt, ∀ first last,
      priceBars store.bars market symbol fetchedAt first last =
        priceBars other.bars market symbol fetchedAt first last) :
    readSeries hashing store market symbol vintage = readSeries hashing other market symbol vintage := by
  unfold readSeries chain
  simp only
  split
  · rfl
  · rfl
  · rename_i captured
    rw [same _ captured]
  · rfl

theorem Service.Sound.origin (sound : service.Sound hashing) {row : Publication Digest}
    (stored : .publication row ∈ service.store.snapshots) :
    ∃ run ∈ service.captured, ∃ clock superseded hashes supersedes,
      row = publicationRow hashing run row.id clock superseded ∧
        .manifest (manifestRow hashing run hashes supersedes) ∈ service.store.snapshots ∧
        (Function.Injective hashing.bar → ∀ symbol ∈ run.fetched, run.stale hashes symbol = [] →
          Reproduces service.store.bars run symbol) := by
  obtain ⟨run, captured, clock, superseded, built⟩ := sound.published row stored
  obtain ⟨hashes, supersedes, manifest, reproduces⟩ := sound.kept run captured
  exact ⟨run, captured, clock, superseded, hashes, supersedes, built, manifest, reproduces⟩

theorem vintageOf_fetchedAt (store : Store Digest) (market : String) (row : Publication Digest) :
    (vintageOf store market row).fetchedAt = row.inputs.fetchedAt := by
  unfold vintageOf
  simp only
  split <;> rfl

theorem vintageOf_publicationId (store : Store Digest) (market : String) (row : Publication Digest) :
    (vintageOf store market row).publicationId = row.id := by
  unfold vintageOf
  simp only
  split <;> rfl

theorem vintageOf_grown (sound : service.Sound hashing) (grown : Grown service next)
    (ids : (next.store.snapshots.map Snapshot.id).Nodup) {row : Publication Digest}
    (stored : .publication row ∈ service.store.snapshots) :
    vintageOf next.store market row = vintageOf service.store market row := by
  obtain ⟨run, _, clock, superseded, hashes, supersedes, built, manifest, _⟩ := sound.origin stored
  obtain ⟨extra, snapshots⟩ := grown.snapshots
  have named : row.inputs.priceSnapshotId =
      (Snapshot.manifest (manifestRow hashing run hashes supersedes)).id := by
    rw [built]
    rfl
  have before := snapshotById_eq sound.ids manifest
  have after := @snapshotById_eq _ _ ids (.manifest (manifestRow hashing run hashes supersedes))
    (by rw [snapshots]; exact List.mem_append_left _ manifest)
  unfold vintageOf attestedManifest
  rw [named, before, after]

theorem readSeries_grown (sound : service.Sound hashing) (grown : Grown service next)
    (ids : (next.store.snapshots.map Snapshot.id).Nodup) {row : Publication Digest}
    (stored : .publication row ∈ service.store.snapshots) (own : row.entityKey = market) :
    readSeries hashing next.store market symbol (vintageOf next.store market row) =
      readSeries hashing service.store market symbol (vintageOf service.store market row) := by
  rw [vintageOf_grown sound grown ids stored]
  refine readSeries_congr fun fetchedAt captured first last => ?_
  rw [vintageOf_fetchedAt] at captured
  obtain ⟨run, known, clock, superseded, built⟩ := sound.published row stored
  obtain ⟨extra, bars, later⟩ := grown.bars
  have isMarket : run.market.key = market := by rw [← own, built]; rfl
  have isClock : run.fetchedAt = fetchedAt := by
    rw [built] at captured
    exact Option.some.inj captured
  rw [bars]
  refine priceBars_append fun bar member same => ?_
  rw [← isClock]
  exact later bar member run known (same.trans isMarket.symm)

/-- The answer of a reader that caches nothing. -/
def answer (hashing : Hashing Digest) (store : Store Digest) (market symbol : String) (cut : Int) :
    Series Digest :=
  match store.latestPublicationBefore market cut with
  | none => { status := .noVintage }
  | some row => readSeries hashing store market (normalise symbol) (vintageOf store market row)

omit [DecidableEq Digest] in
theorem latestPublicationBefore_spec {store : Store Digest} {cut : Int} {row : Publication Digest}
    (found : store.latestPublicationBefore market cut = some row) :
    row ∈ store.publications market ∧ row.publishedAt < cut := by
  have member := List.mem_filter.mp (latest_spec found).1
  simp only [decide_eq_true_eq] at member
  exact ⟨member.1, member.2.1⟩

theorem series_answer {store : Store Digest} {cache : Cache Digest} {cut : Int}
    (ids : (store.snapshots.map Snapshot.id).Nodup) (cached : ∀ entry ∈ cache, Cached hashing store entry) :
    (series hashing store cache market symbol cut).1 = answer hashing store market symbol cut ∧
      ∀ entry ∈ (series hashing store cache market symbol cut).2, Cached hashing store entry := by
  unfold series vintage answer
  simp only
  cases found : store.latestPublicationBefore market cut with
  | none => exact ⟨rfl, cached⟩
  | some row =>
    obtain ⟨stored, own⟩ := mem_publications.mp (latestPublicationBefore_spec found).1
    simp only [Option.map_some]
    cases hit : cache.lookup ((vintageOf store market row).publicationId, market, normalise symbol) with
    | some kept =>
      have member : (((vintageOf store market row).publicationId, market, normalise symbol), kept) ∈
          cache := by
        obtain ⟨front, back, whole, _⟩ := List.lookup_eq_some_iff.mp hit
        rw [whole]
        exact List.mem_append_right _ List.mem_cons_self
      obtain ⟨other, otherMarket, otherSymbol, otherStored, key, otherOwn, value⟩ := cached _ member
      simp only [Prod.mk.injEq] at key
      obtain ⟨sameId, rfl, rfl⟩ := key
      rw [vintageOf_publicationId] at sameId
      have sameRow := List.inj_on_of_nodup_map ids stored otherStored sameId
      cases sameRow
      refine ⟨value, fun entry touched => ?_⟩
      rcases List.mem_append.mp touched with old | new
      · exact cached entry (List.mem_of_mem_filter old)
      · rw [List.mem_singleton.mp new]
        exact cached _ member
    | none =>
      refine ⟨rfl, fun entry filled => ?_⟩
      simp only at filled
      split at filled
      · rcases List.mem_append.mp (List.mem_of_mem_drop filled) with old | new
        · exact cached entry old
        · rw [List.mem_singleton.mp new]
          exact ⟨row, market, normalise symbol, stored, by rw [vintageOf_publicationId], own, rfl⟩
      · exact cached entry filled

end Reads

section Acts

theorem Service.Sound.before {run : Run} (sound : service.Sound hashing)
    (captures : Captures hashing service next run) : Before hashing service.store.bars run := by
  refine ⟨fun bar member => (sound.bars bar member).content, fun bar member =>
    (sound.bars bar member).origin, fun bar member same => ?_⟩
  obtain ⟨other, known, market, clock⟩ := (sound.bars bar member).clock
  rw [clock]
  exact captures.later sound known (same.symm.trans market)

omit [DecidableEq Digest] in
theorem Kept.grown (grown : Grown service next) {run : Run} (known : run ∈ service.captured)
    (kept : Kept hashing service.store run) : Kept hashing next.store run := by
  obtain ⟨hashes, supersedes, stored, reproduces⟩ := kept
  obtain ⟨extra, snapshots⟩ := grown.snapshots
  obtain ⟨new, bars, later⟩ := grown.bars
  refine ⟨hashes, supersedes, by rw [snapshots]; exact List.mem_append_left _ stored,
    fun injective symbol fetched fresh => ?_⟩
  have before := reproduces injective symbol fetched fresh
  unfold Reproduces runChain at before ⊢
  rw [bars, priceBars_append fun bar member same => later bar member run known same]
  exact before

omit [DecidableEq Digest] in
theorem StoredBar.grown {captured more : List Run} {bar : Bar Digest}
    (stored : StoredBar hashing captured bar) : StoredBar hashing (captured ++ more) bar := by
  obtain ⟨run, known, clock⟩ := stored.clock
  exact ⟨stored.content, stored.origin, stored.canonical, run, List.mem_append_left _ known, clock⟩

theorem Service.Sound.act_ids (sound : service.Sound hashing) (act : Act) :
    ((service.act hashing act).store.snapshots.map Snapshot.id).Nodup := by
  have append : ∀ row : Snapshot Digest, (∀ other ∈ service.store.snapshots, other.id ≠ row.id) →
      ((service.store.snapshots ++ [row]).map Snapshot.id).Nodup := by
    intro row fresh
    rw [List.map_append]
    refine List.nodup_append.mpr ⟨sound.ids, List.nodup_singleton _, ?_⟩
    rintro id member other here rfl
    obtain ⟨found, foundIn, rfl⟩ := List.mem_map.mp member
    exact fresh found foundIn (List.mem_singleton.mp here)
  rcases service.act_cases hashing act with ⟨store, _⟩ | ⟨run, captures⟩ | ⟨run, id, clock, publishes⟩
  · rw [store]
    exact sound.ids
  · obtain ⟨supersedes, snapshots⟩ := captures.snapshots
    rw [snapshots]
    exact append _ captures.fresh
  · obtain ⟨supersedes, snapshots⟩ := publishes.snapshots
    rw [snapshots]
    exact append _ publishes.fresh

theorem Service.Sound.act_runs (sound : service.Sound hashing) (act : Act) :
    ((service.act hashing act).captured.map Run.snapshotId).Nodup := by
  rcases service.act_cases hashing act with ⟨_, captured⟩ | ⟨run, captures⟩ | ⟨run, id, clock, publishes⟩
  · rw [captured]
    exact sound.runs
  · rw [captures.captured, List.map_append]
    refine List.nodup_append.mpr ⟨sound.runs, List.nodup_singleton _, ?_⟩
    rintro id member other here rfl
    obtain ⟨found, known, rfl⟩ := List.mem_map.mp member
    obtain ⟨hashes, supersedes, stored, _⟩ := sound.kept found known
    exact captures.fresh _ stored (List.mem_singleton.mp here)
  · rw [publishes.captured]
    exact sound.runs

theorem Service.Sound.act_published (sound : service.Sound hashing) (act : Act) :
    ∀ row, .publication row ∈ (service.act hashing act).store.snapshots →
      ∃ run ∈ (service.act hashing act).captured, ∃ clock supersedes,
        row = publicationRow hashing run row.id clock supersedes := by
  intro row stored
  rcases service.act_cases hashing act with ⟨store, captured⟩ | ⟨run, captures⟩ |
    ⟨run, id, clock, publishes⟩
  · rw [store] at stored
    rw [captured]
    exact sound.published row stored
  · obtain ⟨supersedes, snapshots⟩ := captures.snapshots
    rw [snapshots] at stored
    rcases List.mem_append.mp stored with old | new
    · obtain ⟨origin, known, rest⟩ := sound.published row old
      exact ⟨origin, by rw [captures.captured]; exact List.mem_append_left _ known, rest⟩
    · cases List.mem_singleton.mp new
  · obtain ⟨supersedes, snapshots⟩ := publishes.snapshots
    rw [snapshots] at stored
    rw [publishes.captured]
    rcases List.mem_append.mp stored with old | new
    · exact sound.published row old
    · cases List.mem_singleton.mp new
      exact ⟨run, publishes.known, clock, supersedes, rfl⟩

theorem Service.Sound.act_kept (sound : service.Sound hashing) (act : Act) :
    ∀ run ∈ (service.act hashing act).captured, Kept hashing (service.act hashing act).store run := by
  have old : ∀ run ∈ service.captured, Kept hashing (service.act hashing act).store run :=
    fun run known => (sound.kept run known).grown (Service.act_grown sound act) known
  rcases service.act_cases hashing act with ⟨_, captured⟩ | ⟨run, captures⟩ | ⟨run, id, clock, publishes⟩
  · rw [captured]
    exact old
  · intro other known
    rw [captures.captured] at known
    rcases List.mem_append.mp known with before | here
    · exact old other before
    · cases List.mem_singleton.mp here
      obtain ⟨supersedes, snapshots⟩ := captures.snapshots
      obtain ⟨extra, bars, added⟩ := captures.bars
      refine ⟨run.hashes service.store.bars, supersedes, by rw [snapshots]; simp,
        fun injective symbol fetched fresh => ?_⟩
      rw [bars]
      exact capture_reproduces injective (sound.before captures) added fetched fresh
  · rw [publishes.captured]
    exact old

theorem Service.Sound.act_bars (sound : service.Sound hashing) (act : Act) :
    ∀ bar ∈ (service.act hashing act).store.bars,
      StoredBar hashing (service.act hashing act).captured bar := by
  rcases service.act_cases hashing act with ⟨store, captured⟩ | ⟨run, captures⟩ |
    ⟨run, id, clock, publishes⟩
  · rw [store, captured]
    exact sound.bars
  · obtain ⟨extra, bars, added⟩ := captures.bars
    intro bar member
    rw [bars] at member
    rw [captures.captured]
    rcases List.mem_append.mp member with old | new
    · exact (sound.bars bar old).grown
    · obtain ⟨_, _, core, _, _, spec, rfl⟩ := added.spec new
      exact ⟨rfl, spec.origin, spec.canonical, run, by simp, spec.market, rfl⟩
  · rw [publishes.bars, publishes.captured]
    exact sound.bars

theorem Cached.grown (sound : service.Sound hashing) (grown : Grown service next)
    (ids : (next.store.snapshots.map Snapshot.id).Nodup) {entry : CacheKey × Series Digest}
    (cached : Cached hashing service.store entry) : Cached hashing next.store entry := by
  obtain ⟨row, market, symbol, stored, key, own, value⟩ := cached
  obtain ⟨extra, snapshots⟩ := grown.snapshots
  refine ⟨row, market, symbol, by rw [snapshots]; exact List.mem_append_left _ stored, key, own, ?_⟩
  rw [value, readSeries_grown sound grown ids stored own]

theorem Service.Sound.act_cached (sound : service.Sound hashing) (act : Act) :
    ∀ entry ∈ (service.act hashing act).cache, Cached hashing (service.act hashing act).store entry := by
  have old : ∀ entry ∈ service.cache, Cached hashing (service.act hashing act).store entry :=
    fun entry member => (sound.cached entry member).grown sound (Service.act_grown sound act)
      (sound.act_ids act)
  cases act with
  | capture run =>
    have cache : (service.act hashing (.capture run)).cache = service.cache := by
      unfold Service.act
      simp only
      split <;> rfl
    rw [cache]
    exact old
  | publish snapshotId publicationId clock =>
    have cache : (service.act hashing (.publish snapshotId publicationId clock)).cache = service.cache := by
      unfold Service.act
      simp only
      split <;> rfl
    rw [cache]
    exact old
  | read market symbol cut => exact (series_answer sound.ids sound.cached).2

theorem Service.Sound.act (sound : service.Sound hashing) (act : Act) :
    (service.act hashing act).Sound hashing :=
  ⟨sound.act_ids act, sound.act_runs act, sound.act_kept act, sound.act_published act, sound.act_bars act, sound.act_cached act⟩

theorem Service.Sound.empty : ({} : Service Digest).Sound hashing := by
  constructor <;> simp

theorem Service.Sound.acts (sound : service.Sound hashing) (acts : List Act) :
    (acts.foldl (Service.act hashing) service).Sound hashing :=
  foldl_keeps (Service.Sound hashing) acts (fun act _ _ sound => sound.act act) sound

theorem serve_sound (hashing : Hashing Digest) (acts : List Act) : (serve hashing acts).Sound hashing :=
  Service.Sound.empty.acts acts

theorem acts_grown (sound : service.Sound hashing) (acts : List Act) :
    Grown service (acts.foldl (Service.act hashing) service) := by
  induction acts generalizing service with
  | nil => exact .refl service
  | cons act rest ih => exact (Service.act_grown sound act).trans (ih (sound.act act))

end Acts
end C3po.Prices

/-! No look-ahead.

A reader at a cut answers from the vintage its cut sees. Whatever a service does
afterwards, if it publishes nothing that the cut sees, every answer at the cut stays
the same; and no answer depends on a bar captured after that vintage.
-/

namespace C3po.Prices
open C3po.Library

variable {Digest : Type} [DecidableEq Digest] {hashing : Hashing Digest} {service next : Service Digest}

def AnswerAlike (hashing : Hashing Digest) (one other : Service Digest) (market : String) (cut : Int) :
    Prop :=
  ∀ symbol, (series hashing one.store one.cache market symbol cut).1 =
      (series hashing other.store other.cache market symbol cut).1 ∧
    ∀ calendar session horizon,
      (labelBar hashing calendar one.store one.cache market symbol session horizon cut).1 =
        (labelBar hashing calendar other.store other.cache market symbol session horizon cut).1

theorem labelBar_series {one other : Service Digest} {market symbol : String} {cut : Int}
    (same : (series hashing one.store one.cache market symbol cut).1 =
      (series hashing other.store other.cache market symbol cut).1)
    (calendar : ExchangeCalendar) (session horizon : Int) :
    (labelBar hashing calendar one.store one.cache market symbol session horizon cut).1 =
      (labelBar hashing calendar other.store other.cache market symbol session horizon cut).1 := by
  unfold labelBar
  cases sessionsAfter calendar market session horizon with
  | error status => rfl
  | ok target =>
    simp only
    split
    · rfl
    · simp only [same]

theorem answerAlike {one other : Service Digest} {market : String} {cut : Int}
    (oneSound : one.Sound hashing) (ids : (other.store.snapshots.map Snapshot.id).Nodup)
    (cached : ∀ entry ∈ other.cache, Cached hashing other.store entry)
    (same : ∀ symbol, answer hashing one.store market symbol cut =
      answer hashing other.store market symbol cut) : AnswerAlike hashing one other market cut := by
  intro symbol
  have series : (series hashing one.store one.cache market symbol cut).1 =
      (series hashing other.store other.cache market symbol cut).1 := by
    rw [(series_answer oneSound.ids oneSound.cached).1, (series_answer ids cached).1, same]
  exact ⟨series, labelBar_series series⟩

omit [DecidableEq Digest] in
theorem latestPublicationBefore_grown {market : String} {cut : Int} (grown : Grown service next)
    (ids : (next.store.snapshots.map Snapshot.id).Nodup)
    (beyond : ∀ row ∈ next.store.publications market, row ∉ service.store.publications market →
      cut ≤ row.publishedAt) :
    next.store.latestPublicationBefore market cut = service.store.latestPublicationBefore market cut := by
  obtain ⟨extra, snapshots⟩ := grown.snapshots
  unfold Store.latestPublicationBefore
  have added : next.store.publications market = service.store.publications market ++
      (extra.filterMap Snapshot.publication?).filter fun row => row.entityKey = market := by
    simp [Store.publications, snapshots]
  have unseen : ((extra.filterMap Snapshot.publication?).filter fun row => row.entityKey = market).filter
      (fun row => row.publishedAt < cut ∧ row.outputs.schemaVersion = analysisSchema) = [] := by
    refine List.filter_eq_nil_iff.mpr fun row member => ?_
    have new : row ∉ service.store.publications market := by
      intro old
      rw [snapshots, List.map_append] at ids
      have inside := (mem_publications.mp old).1
      have outside : Snapshot.publication row ∈ extra := by
        obtain ⟨found, foundIn, isRow⟩ := List.mem_filterMap.mp (List.mem_filter.mp member).1
        rw [← Snapshot.publication?_eq.mp isRow]
        exact foundIn
      exact (List.nodup_append.mp ids).2.2 _ (List.mem_map_of_mem inside) _
        (List.mem_map_of_mem outside) rfl
    have late := beyond row (by rw [added]; exact List.mem_append_right _ member) new
    simp only [decide_eq_true_eq]
    omega
  rw [added, List.filter_append, unseen, List.append_nil]

theorem answer_grown (sound : service.Sound hashing) (grown : Grown service next)
    (ids : (next.store.snapshots.map Snapshot.id).Nodup) {market symbol : String} {cut : Int}
    (beyond : ∀ row ∈ next.store.publications market, row ∉ service.store.publications market →
      cut ≤ row.publishedAt) :
    answer hashing service.store market symbol cut = answer hashing next.store market symbol cut := by
  unfold answer
  rw [latestPublicationBefore_grown grown ids beyond]
  cases found : service.store.latestPublicationBefore market cut with
  | none => rfl
  | some row =>
    obtain ⟨stored, own⟩ := mem_publications.mp (latestPublicationBefore_spec found).1
    exact (readSeries_grown sound grown ids stored own).symm

omit [DecidableEq Digest] in
theorem priceBars_upTo {bars other : List (Bar Digest)} {market symbol : String} {asOf : Int}
    (same : (other.filter fun bar => bar.fetchedAt ≤ asOf) = bars.filter fun bar => bar.fetchedAt ≤ asOf)
    (since last : Int) :
    priceBars other market symbol asOf since last = priceBars bars market symbol asOf since last := by
  have known : ∀ rows : List (Bar Digest), (rows.filter fun bar => bar.market = market ∧
      bar.symbol = symbol ∧ bar.fetchedAt ≤ asOf ∧ since ≤ bar.session ∧ bar.session ≤ last) =
      (rows.filter fun bar => bar.fetchedAt ≤ asOf).filter fun bar => bar.market = market ∧
        bar.symbol = symbol ∧ since ≤ bar.session ∧ bar.session ≤ last := by
    intro rows
    rw [List.filter_filter]
    refine List.filter_congr fun bar _ => ?_
    rw [Bool.eq_iff_iff]
    simp only [Bool.and_eq_true, decide_eq_true_eq]
    tauto
  unfold priceBars
  rw [known other, known bars, same]

/-- The bars agree up to the capture of the vintage the cut sees. -/
def AgreeUpTo (store : Store Digest) (bars : List (Bar Digest)) (market : String) (cut : Int) : Prop :=
  ∀ row, store.latestPublicationBefore market cut = some row → ∀ captured ∈ row.inputs.fetchedAt,
    (bars.filter fun bar => bar.fetchedAt ≤ captured) =
      store.bars.filter fun bar => bar.fetchedAt ≤ captured

theorem answer_upTo {store : Store Digest} {bars : List (Bar Digest)} {market symbol : String} {cut : Int}
    (agree : AgreeUpTo store bars market cut) :
    answer hashing store market symbol cut = answer hashing { store with bars := bars } market symbol cut := by
  unfold answer
  have seen : ({ store with bars := bars } : Store Digest).latestPublicationBefore market cut =
      store.latestPublicationBefore market cut := rfl
  rw [seen]
  cases found : store.latestPublicationBefore market cut with
  | none => rfl
  | some row =>
    refine readSeries_congr fun fetchedAt captured first last => ?_
    rw [vintageOf_fetchedAt] at captured
    exact (priceBars_upTo (agree row found fetchedAt captured) first last).symm

/-- No continuation that publishes nothing the cut sees changes an answer at the cut, and no
answer depends on a bar captured after the vintage the cut sees. -/
theorem no_look_ahead (hashing : Hashing Digest) (acts more : List Act) (market : String) (cut : Int)
    (beyond : ∀ row ∈ (serve hashing (acts ++ more)).store.publications market,
      row ∉ (serve hashing acts).store.publications market → cut ≤ row.publishedAt) :
    AnswerAlike hashing (serve hashing acts) (serve hashing (acts ++ more)) market cut ∧
      ∀ bars, AgreeUpTo (serve hashing acts).store bars market cut →
        AnswerAlike hashing (serve hashing acts)
          { serve hashing acts with store := { (serve hashing acts).store with bars := bars }, cache := [] }
          market cut := by
  have sound := serve_sound hashing acts
  have grown : Grown (serve hashing acts) (serve hashing (acts ++ more)) := by
    unfold serve at sound ⊢
    rw [List.foldl_append]
    exact acts_grown sound more
  have later := serve_sound hashing (acts ++ more)
  refine ⟨answerAlike sound later.ids later.cached fun symbol =>
    answer_grown sound grown later.ids beyond, fun bars agree => ?_⟩
  exact answerAlike sound sound.ids (fun _ member => nomatch member) fun symbol => answer_upTo agree

theorem no_look_ahead_lastNight :
    AnswerAlike plain (serve plain nights) (serve plain (nights ++ lastNight)) "NASDAQ" 150 :=
  (no_look_ahead plain nights lastNight "NASDAQ" 150 (by decide +kernel)).1

end C3po.Prices

/-! Published vintages and the captures behind them.

A capture is refused unless it is later than every publication there is, but a run
publishes its capture whenever it gets to it. Two published vintages of a market
straddle each other exactly when one was overtaken: between its capture and its
publication another run published at or after that capture.
-/

namespace C3po.Prices
open C3po.Library

variable {Digest : Type}

/-- No vintage was captured before one published before it became available. -/
def StraddleFree (store : Store Digest) (market : String) : Prop :=
  (store.publications market).Pairwise fun first second =>
    ∀ captured ∈ second.inputs.fetchedAt, first.publishedAt < captured

instance (store : Store Digest) (market : String) : Decidable (StraddleFree store market) := by
  unfold StraddleFree
  infer_instance

/-- Between the commits of a run's capture and of its publication, another publication of the
market was committed that became available at or after the capture. -/
def Overtaken (store : Store Digest) (market : String) : Prop :=
  ∃ front manifest middle row back other,
    store.snapshots = front ++ .manifest manifest :: (middle ++ .publication row :: back) ∧
    manifest.id = row.inputs.priceSnapshotId ∧ row.entityKey = market ∧
    .publication other ∈ middle ∧ other.entityKey = market ∧ manifest.publishedAt ≤ other.publishedAt

/-- A capture comes after the publications before it, and is none of theirs. -/
def Behind (early late : Snapshot Digest) : Prop :=
  ∀ publication ∈ early.publication?, ∀ manifest ∈ late.manifest?,
    (publication.entityKey = manifest.entityKey → publication.publishedAt < manifest.publishedAt) ∧
      manifest.id ≠ publication.inputs.priceSnapshotId

variable [DecidableEq Digest] {hashing : Hashing Digest} {service : Service Digest}

theorem act_behind (sound : service.Sound hashing) (behind : service.store.snapshots.Pairwise Behind)
    (act : Act) : (service.act hashing act).store.snapshots.Pairwise Behind := by
  rcases service.act_cases hashing act with ⟨store, _⟩ | ⟨run, captures⟩ | ⟨run, id, clock, publishes⟩
  · rw [store]
    exact behind
  · obtain ⟨supersedes, snapshots⟩ := captures.snapshots
    rw [snapshots]
    refine List.pairwise_append.mpr ⟨behind, List.pairwise_singleton _ _, fun early earlyIn late lateIn => ?_⟩
    rw [List.mem_singleton.mp lateIn]
    intro publication isPublication manifest isManifest
    rw [Option.mem_def, Snapshot.publication?_eq] at isPublication
    rw [Option.mem_def, Snapshot.manifest?_eq] at isManifest
    subst isPublication
    cases isManifest
    refine ⟨fun same => captures.accepted.afterPublications publication
      (mem_publications.mpr ⟨earlyIn, same⟩), fun named => ?_⟩
    obtain ⟨origin, _, _, _, hashes, before, built, stored, _⟩ := sound.origin earlyIn
    refine captures.fresh _ stored (Eq.trans ?_ named.symm)
    rw [built]
    rfl
  · obtain ⟨supersedes, snapshots⟩ := publishes.snapshots
    rw [snapshots]
    refine List.pairwise_append.mpr ⟨behind, List.pairwise_singleton _ _, fun early earlyIn late lateIn => ?_⟩
    rw [List.mem_singleton.mp lateIn]
    exact fun _ _ _ isManifest => nomatch isManifest

theorem serve_behind (hashing : Hashing Digest) (acts : List Act) :
    (serve hashing acts).store.snapshots.Pairwise Behind := by
  have both : (serve hashing acts).Sound hashing ∧
      (serve hashing acts).store.snapshots.Pairwise Behind :=
    foldl_keeps (fun service : Service Digest =>
        service.Sound hashing ∧ service.store.snapshots.Pairwise Behind) acts
      (fun act _ _ kept => ⟨kept.1.act act, act_behind kept.1 kept.2 act⟩)
      ⟨Service.Sound.empty, List.Pairwise.nil⟩
  exact both.2

theorem Service.Sound.attests (sound : service.Sound hashing) {row : Publication Digest}
    {manifest : Manifest Digest} (rowIn : .publication row ∈ service.store.snapshots)
    (manifestIn : .manifest manifest ∈ service.store.snapshots)
    (named : manifest.id = row.inputs.priceSnapshotId) :
    row.inputs.fetchedAt = some manifest.publishedAt ∧ manifest.entityKey = row.entityKey := by
  obtain ⟨run, _, clock, superseded, hashes, supersedes, built, stored, _⟩ := sound.origin rowIn
  have same : Snapshot.manifest manifest = .manifest (manifestRow hashing run hashes supersedes) := by
    refine List.inj_on_of_nodup_map sound.ids manifestIn stored (named.trans ?_)
    rw [built]
    rfl
  cases same
  rw [built]
  exact ⟨rfl, rfl⟩

omit [DecidableEq Digest] in
theorem pairwise_publications {rows : List (Snapshot Digest)} {market : String}
    {related : Publication Digest → Publication Digest → Prop} :
    ((rows.filterMap Snapshot.publication?).filter fun row => row.entityKey = market).Pairwise related ↔
      rows.Pairwise fun early late => ∀ first ∈ early.publication?, ∀ second ∈ late.publication?,
        first.entityKey = market → second.entityKey = market → related first second := by
  rw [List.pairwise_filter, List.pairwise_filterMap]
  refine List.Pairwise.iff fun early late => ?_
  simp only [decide_eq_true_eq]
  exact ⟨fun pair first isFirst second isSecond own other => pair first isFirst second isSecond own other,
    fun pair first isFirst second isSecond own other => pair first isFirst second isSecond own other⟩

/-- A market's published vintages straddle each other exactly when one of them was overtaken. -/
theorem straddleFree_iff (hashing : Hashing Digest) (acts : List Act) (market : String) :
    StraddleFree (serve hashing acts).store market ↔ ¬ Overtaken (serve hashing acts).store market := by
  have sound := serve_sound hashing acts
  have behind := serve_behind hashing acts
  constructor
  · rintro free ⟨front, manifest, middle, row, back, other, whole, named, own, otherIn, otherOwn, late⟩
    have manifestIn : .manifest manifest ∈ (serve hashing acts).store.snapshots := by
      rw [whole]
      simp
    have rowIn : .publication row ∈ (serve hashing acts).store.snapshots := by
      rw [whole]
      simp
    have attested := (sound.attests rowIn manifestIn named).1
    unfold StraddleFree Store.publications at free
    rw [pairwise_publications, whole] at free
    have tail := (List.pairwise_cons.mp (List.pairwise_append.mp free).2.1).2
    have order := (List.pairwise_append.mp tail).2.2 _ otherIn _ List.mem_cons_self other rfl row rfl
      otherOwn own manifest.publishedAt attested
    omega
  · intro free
    unfold StraddleFree Store.publications
    rw [pairwise_publications]
    refine pairwise_of_splits fun front late back whole early earlyIn => ?_
    intro first isFirst second isSecond firstOwn secondOwn captured isCaptured
    rw [Option.mem_def, Snapshot.publication?_eq] at isFirst isSecond
    subst isFirst isSecond
    have secondIn : .publication second ∈ (serve hashing acts).store.snapshots := by
      rw [whole]
      simp
    obtain ⟨run, _, clock, superseded, hashes, supersedes, built, stored, _⟩ := sound.origin secondIn
    obtain ⟨manifest, isManifest⟩ : ∃ manifest, manifest = manifestRow hashing run hashes supersedes :=
      ⟨_, rfl⟩
    rw [← isManifest] at stored
    have named : manifest.id = second.inputs.priceSnapshotId := by
      rw [built, isManifest]
      rfl
    obtain ⟨attested, sameMarket⟩ := sound.attests secondIn stored named
    have clocks : captured = manifest.publishedAt := Option.some.inj (isCaptured.symm.trans attested)
    rw [whole] at behind stored
    rcases List.mem_append.mp stored with before | after
    · -- the first publication stands before the manifest, or overtook the second
      obtain ⟨start, middle, split⟩ := List.append_of_mem before
      rw [split] at earlyIn
      rcases List.mem_append.mp earlyIn with early | between
      · have ordered := (List.pairwise_append.mp behind).1
        rw [split] at ordered
        have order : Behind (.publication first) (.manifest manifest) :=
          (List.pairwise_append.mp ordered).2.2 _ early _ List.mem_cons_self
        rw [clocks]
        exact (order first rfl manifest rfl).1 (by rw [sameMarket, firstOwn, secondOwn])
      · rcases List.mem_cons.mp between with same | between
        · cases same
        · rw [clocks]
          by_contra late
          exact free ⟨start, manifest, middle, second, back, first, by rw [whole, split]; simp, named,
            secondOwn, between, firstOwn, not_lt.mp late⟩
    · rcases List.mem_cons.mp after with same | after
      · cases same
      · exact absurd named ((List.pairwise_cons.mp (List.pairwise_append.mp behind).2.1).1 _ after second
          rfl manifest rfl).2

theorem first_named : "first" ≠ "" := by decide

/-- Two nights of one market: the first run stalls after its capture, the second captures at its
own due, and then the first publishes before the second does. -/
def overtakenNights : List Act :=
  [.capture (nightRun "first" first_named (some 1772424000000000) [10, 11] 1772425800000000),
    .capture (nightRun "second" (by decide) (some 1772510400000000) [10, 12, 13] 1772511600000000),
    .publish "first" "one" 1772511900000000, .publish "second" "two" 1772511960000000]

theorem straddling_nights : ¬ StraddleFree (serve plain overtakenNights).store "NASDAQ" := by
  decide +kernel

end C3po.Prices
