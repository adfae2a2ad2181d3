import Mathlib.Data.List.Pairwise
import C3po.Prices.Store

/-! The clock protocol of the price vintages.

Any number of processes call the two writers, each call atomic under the market's
lock, so a run is a list of calls. What it committed is kept with the due its
captures carried, in commit order, and every pair of rows of one market obeys the
protocol: `Follows` is what one accepted call adds, and a run keeps it.
-/

set_option autoImplicit false

namespace C3po.Prices
open C3po.Library

variable {Digest : Type}

/-- A committed row and the due of the call that committed it. -/
structure Commit (Digest : Type) where
  due : Option Int
  row : Snapshot Digest

/-- The store, and its rows with their dues, in commit order. -/
structure History (Digest : Type) where
  store : Store Digest := {}
  commits : List (Commit Digest) := []

def History.call (history : History Digest) (request : Request Digest) : History Digest :=
  let written := (request.run history.store).2
  { store := written
    commits := history.commits ++ (written.snapshots.drop history.store.snapshots.length).map fun row =>
      ⟨request.due, row⟩ }

def history (requests : List (Request Digest)) : History Digest := requests.foldl History.call {}

def Snapshot.entityKey : Snapshot Digest → String
  | .manifest row => row.entityKey
  | .publication row => row.entityKey

def History.market (history : History Digest) (entityKey : String) : List (Commit Digest) :=
  history.commits.filter fun commit => commit.row.entityKey = entityKey

def capturesOf (commits : List (Commit Digest)) : List (Manifest Digest) :=
  commits.filterMap fun commit => commit.row.manifest?

def publicationsOf (commits : List (Commit Digest)) : List (Publication Digest) :=
  commits.filterMap fun commit => commit.row.publication?

/-- The clock protocol of one market's commits, the earlier one first in every pair. -/
structure ClockProtocol (commits : List (Commit Digest)) : Prop where
  captures_advance : (capturesOf commits).Pairwise fun earlier later =>
    earlier.publishedAt < later.publishedAt
  publications_advance : (publicationsOf commits).Pairwise fun earlier later =>
    earlier.publishedAt < later.publishedAt ∧ ∀ first ∈ earlier.inputs.fetchedAt,
      ∀ second ∈ later.inputs.fetchedAt, first < second
  available_after_capture : ∀ publication ∈ publicationsOf commits,
    ∃ fetchedAt, publication.inputs.fetchedAt = some fetchedAt ∧ fetchedAt ≤ publication.publishedAt
  captures_after_publications : commits.Pairwise fun earlier later =>
    ∀ publication ∈ earlier.row.publication?, ∀ manifest ∈ later.row.manifest?,
      publication.publishedAt < manifest.publishedAt
  one_capture_per_due : commits.Pairwise fun earlier later =>
    ∀ first ∈ earlier.row.manifest?, ∀ second ∈ later.row.manifest?, ∀ due ∈ earlier.due,
      later.due = some due → ¬(due ≤ first.publishedAt ∧ due ≤ second.publishedAt)
  no_capture_once_published : commits.Pairwise fun earlier later =>
    ∀ publication ∈ earlier.row.publication?, ∀ due ∈ later.due, later.row.manifest?.isSome →
      publication.publishedAt < due

/-- What every pair of commits of one market satisfies. -/
def Follows (earlier later : Commit Digest) : Prop :=
  match earlier.row, later.row with
  | .manifest first, .manifest second =>
      first.publishedAt < second.publishedAt ∧ ∀ due ∈ later.due, first.publishedAt < due
  | .publication publication, .manifest manifest =>
      publication.publishedAt < manifest.publishedAt ∧ ∀ due ∈ later.due, publication.publishedAt < due
  | .publication first, .publication second =>
      first.publishedAt < second.publishedAt ∧ ∀ captured ∈ first.inputs.fetchedAt,
        ∀ next ∈ second.inputs.fetchedAt, captured < next
  | .manifest _, .publication _ => True

/-- A row attests its capture and is not available before it. -/
def Attests (row : Snapshot Digest) : Prop :=
  ∀ publication ∈ row.publication?,
    ∃ fetchedAt, publication.inputs.fetchedAt = some fetchedAt ∧ fetchedAt ≤ publication.publishedAt

structure History.Sound (history : History Digest) : Prop where
  rows : history.store.snapshots = history.commits.map Commit.row
  ordered : ∀ entityKey, (history.market entityKey).Pairwise Follows
  attested : ∀ commit ∈ history.commits, Attests commit.row

theorem mem_market {history : History Digest} {entityKey : String} {commit : Commit Digest} :
    commit ∈ history.market entityKey ↔ commit ∈ history.commits ∧ commit.row.entityKey = entityKey := by
  simp [History.market]

section
variable {history : History Digest}

theorem History.Sound.mem_manifests (sound : history.Sound) {entityKey : String} {row : Manifest Digest} :
    row ∈ history.store.manifests entityKey ↔
      ∃ commit ∈ history.market entityKey, commit.row = .manifest row := by
  simp only [Store.manifests, sound.rows, List.mem_filter, List.mem_filterMap, List.mem_map,
    mem_market, decide_eq_true_eq]
  constructor
  · rintro ⟨⟨_, ⟨commit, member, rfl⟩, found⟩, own⟩
    cases shape : commit.row with
    | manifest other =>
      rw [shape] at found
      cases found
      exact ⟨commit, ⟨member, by rw [shape]; exact own⟩, shape⟩
    | publication other =>
      rw [shape] at found
      cases found
  · rintro ⟨commit, ⟨member, own⟩, shape⟩
    exact ⟨⟨_, ⟨commit, member, rfl⟩, by rw [shape]; rfl⟩, by rw [shape] at own; exact own⟩

theorem History.Sound.mem_publications (sound : history.Sound) {entityKey : String}
    {row : Publication Digest} :
    row ∈ history.store.publications entityKey ↔
      ∃ commit ∈ history.market entityKey, commit.row = .publication row := by
  simp only [Store.publications, sound.rows, List.mem_filter, List.mem_filterMap, List.mem_map,
    mem_market, decide_eq_true_eq]
  constructor
  · rintro ⟨⟨_, ⟨commit, member, rfl⟩, found⟩, own⟩
    cases shape : commit.row with
    | manifest other =>
      rw [shape] at found
      cases found
    | publication other =>
      rw [shape] at found
      cases found
      exact ⟨commit, ⟨member, by rw [shape]; exact own⟩, shape⟩
  · rintro ⟨commit, ⟨member, own⟩, shape⟩
    exact ⟨⟨_, ⟨commit, member, rfl⟩, by rw [shape]; rfl⟩, by rw [shape] at own; exact own⟩

theorem History.Sound.append (sound : history.Sound) {store : Store Digest} {due : Option Int}
    {row : Snapshot Digest} (written : store.snapshots = history.store.snapshots ++ [row])
    (follows : ∀ commit ∈ history.market row.entityKey, Follows commit ⟨due, row⟩)
    (attests : Attests row) :
    ({ store := store
       commits := history.commits ++ (store.snapshots.drop history.store.snapshots.length).map
        fun row => ⟨due, row⟩ } : History Digest).Sound := by
  have new : store.snapshots.drop history.store.snapshots.length = [row] := by
    rw [written, List.drop_left]
  rw [new]
  refine ⟨?_, fun entityKey => ?_, fun commit member => ?_⟩
  · simp [written, sound.rows]
  · unfold History.market
    rw [List.filter_append]
    by_cases own : row.entityKey = entityKey
    · subst own
      simp only [List.map_cons, List.map_nil, decide_true, List.filter_cons_of_pos, List.filter_nil]
      refine List.pairwise_append.mpr ⟨sound.ordered _, List.pairwise_singleton _ _, ?_⟩
      intro commit member other otherIn
      rw [List.mem_singleton.mp otherIn]
      exact follows commit member
    · simp only [List.map_cons, List.map_nil, own, decide_false, List.filter_nil, List.append_nil,
        List.filter_cons_of_neg, Bool.false_eq_true, not_false_eq_true]
      exact sound.ordered entityKey
  · rcases List.mem_append.mp member with before | here
    · exact sound.attested commit before
    · rw [List.mem_singleton.mp here]
      exact attests

theorem History.Sound.publications_ordered (sound : history.Sound) {entityKey : String}
    {first second : Publication Digest} (firstIn : first ∈ history.store.publications entityKey)
    (secondIn : second ∈ history.store.publications entityKey)
    (order : first.publishedAt ≤ second.publishedAt) {captured next : Int}
    (isFirst : first.inputs.fetchedAt = some captured) (isSecond : second.inputs.fetchedAt = some next) :
    captured ≤ next := by
  obtain ⟨early, earlyIn, earlyRow⟩ := sound.mem_publications.mp firstIn
  obtain ⟨late, lateIn, lateRow⟩ := sound.mem_publications.mp secondIn
  by_cases same : early = late
  · subst same
    rw [earlyRow] at lateRow
    cases lateRow
    rw [isFirst] at isSecond
    exact (Option.some.inj isSecond).le
  · have either : Std.Symm fun one other : Commit Digest => Follows one other ∨ Follows other one :=
      ⟨fun _ _ => Or.symm⟩
    have eitherWay : (history.market entityKey).Pairwise fun one other =>
        Follows one other ∨ Follows other one := (sound.ordered entityKey).imp Or.inl
    rcases eitherWay.forall earlyIn lateIn same with follows | follows
    · simp only [Follows, earlyRow, lateRow] at follows
      exact (follows.2 captured isFirst next isSecond).le
    · simp only [Follows, earlyRow, lateRow] at follows
      omega

theorem Follows.capture (sound : history.Sound) {request : CaptureRequest Digest}
    (accepted : CaptureAccepted history.store request) {row : Manifest Digest}
    (clock : row.publishedAt = request.fetchedAt) {commit : Commit Digest}
    (member : commit ∈ history.market request.entityKey) : Follows commit ⟨request.due, .manifest row⟩ := by
  cases shape : commit.row with
  | manifest first =>
    have firstIn := sound.mem_manifests.mpr ⟨commit, member, shape⟩
    simp only [Follows, shape, clock]
    exact ⟨accepted.afterManifests first firstIn, fun due isDue =>
      accepted.uncaptured due isDue first firstIn⟩
  | publication first =>
    have firstIn := sound.mem_publications.mpr ⟨commit, member, shape⟩
    simp only [Follows, shape, clock]
    exact ⟨accepted.afterPublications first firstIn, fun due isDue =>
      accepted.unpublished due isDue first firstIn⟩

theorem Follows.publication (sound : history.Sound) {request : PublishRequest Digest}
    (accepted : PublicationAccepted history.store request) {row : Publication Digest}
    (clock : row.publishedAt = request.clock) (captured : row.inputs.fetchedAt = request.inputs.fetchedAt)
    {due : Option Int} {commit : Commit Digest} (member : commit ∈ history.market request.entityKey) :
    Follows commit ⟨due, .publication row⟩ := by
  cases shape : commit.row with
  | manifest first => simp only [Follows, shape]
  | publication first =>
    have firstIn := sound.mem_publications.mpr ⟨commit, member, shape⟩
    simp only [Follows, shape, clock, captured, accepted.attested]
    refine ⟨accepted.afterPublications first firstIn, fun before isBefore next isNext => ?_⟩
    cases isNext
    -- the latest publication attests the greatest capture
    cases found : latest Publication.publishedAt (history.store.publications request.entityKey) with
    | none => rw [latest_none.mp found] at firstIn; cases firstIn
    | some best =>
      obtain ⟨bestIn, above⟩ := latest_spec found
      obtain ⟨commitBest, commitIn, bestRow⟩ := sound.mem_publications.mp bestIn
      obtain ⟨attested, isAttested, _⟩ := sound.attested commitBest (mem_market.mp commitIn).1 best
        (by rw [bestRow]; rfl)
      exact (sound.publications_ordered firstIn bestIn (above first firstIn) isBefore isAttested).trans_lt
        (accepted.afterCapture best found attested isAttested)

theorem History.Sound.call (sound : history.Sound) (request : Request Digest) :
    (history.call request).Sound := by
  unfold History.call
  cases outcome : request.run history.store with
  | mk refusal written =>
  cases refusal with
  | some refusal =>
    have unchanged := Request.run_refused outcome
    simp only
    rw [unchanged, List.drop_length]
    simpa using sound
  | none =>
    cases request with
    | capture request =>
      simp only [Request.run] at outcome
      split at outcome
      · rename_i inserted final ok
        cases outcome
        obtain ⟨accepted, capture, supersedes, _, _, snapshots, _⟩ := persist_ok ok
        refine sound.append snapshots (fun commit member => ?_) fun _ isPublication => ?_
        · exact Follows.capture sound accepted rfl member
        · cases isPublication
      · cases outcome
    | publish request =>
      simp only [Request.run] at outcome
      split at outcome
      · rename_i availableAt final ok
        cases outcome
        obtain ⟨accepted, _, _, _, supersedes, snapshots⟩ := publish_ok ok
        refine sound.append snapshots (fun commit member => ?_) fun publication isPublication => ?_
        · exact Follows.publication sound accepted rfl rfl member
        · cases isPublication
          exact ⟨request.fetchedAt, accepted.attested, accepted.inOrder⟩
      · cases outcome

theorem history_sound (requests : List (Request Digest)) : (Prices.history requests).Sound :=
  foldl_keeps History.Sound requests (fun request _ _ sound => sound.call request)
    ⟨rfl, fun _ => List.Pairwise.nil, fun _ member => nomatch member⟩

/-- The clock protocol holds of every run, and a call that raises changes nothing. -/
theorem clock_protocol (requests : List (Request Digest)) (entityKey : String) :
    ClockProtocol ((Prices.history requests).market entityKey) ∧
      ∀ (request : Request Digest) (refusal : Refusal),
        (request.run (Prices.history requests).store).1 = some refusal →
          (request.run (Prices.history requests).store).2 = (Prices.history requests).store := by
  have sound := history_sound requests
  have ordered := sound.ordered entityKey
  refine ⟨⟨?_, ?_, ?_, ?_, ?_, ?_⟩, fun request refusal raised => Request.run_refused (Prod.ext raised rfl)⟩
  · refine List.pairwise_filterMap.mpr (ordered.imp fun follows first isFirst second isSecond => ?_)
    rw [Snapshot.manifest?_eq] at isFirst isSecond
    simp only [Follows, isFirst, isSecond] at follows
    exact follows.1
  · refine List.pairwise_filterMap.mpr (ordered.imp fun follows first isFirst second isSecond => ?_)
    rw [Snapshot.publication?_eq] at isFirst isSecond
    simpa only [Follows, isFirst, isSecond] using follows
  · intro publication member
    obtain ⟨commit, commitIn, isPublication⟩ := List.mem_filterMap.mp member
    exact sound.attested commit (mem_market.mp commitIn).1 publication isPublication
  · refine ordered.imp fun follows publication isPublication manifest isManifest => ?_
    rw [Option.mem_def, Snapshot.publication?_eq] at isPublication
    rw [Option.mem_def, Snapshot.manifest?_eq] at isManifest
    simp only [Follows, isPublication, isManifest] at follows
    exact follows.1
  · refine ordered.imp fun follows first isFirst second isSecond due _ isDue => ?_
    rw [Option.mem_def, Snapshot.manifest?_eq] at isFirst isSecond
    simp only [Follows, isFirst, isSecond] at follows
    exact fun both => absurd (follows.2 due isDue) (not_lt.mpr both.1)
  · refine ordered.imp fun follows publication isPublication due isDue isManifest => ?_
    obtain ⟨manifest, isManifest⟩ := Option.isSome_iff_exists.mp isManifest
    rw [Option.mem_def, Snapshot.publication?_eq] at isPublication
    rw [Snapshot.manifest?_eq] at isManifest
    simp only [Follows, isPublication, isManifest] at follows
    exact follows.2 due isDue

end
end C3po.Prices
