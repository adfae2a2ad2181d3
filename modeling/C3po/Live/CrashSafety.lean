import C3po.Live.Filing

/-! The close of a session that a crash left to the next one.

Every attempt at the reconciliation may stop after any of its writes. However many do,
the session is closed once; and a call that finishes leaves its document, unless it
had neither a fill nor a document: such a session is closed and never published.
-/

set_option autoImplicit false

namespace C3po.Live
open C3po.Library

/-- A call that stops after so many of its writes. -/
structure Attempt where
  day : Int
  now : Int
  writes : ℕ

section Spec
variable (zone : Zone) (seed : EngineState)

def Disk.attempted (disk : Disk) (attempt : Attempt) : Disk :=
  ((disk.reconciled zone seed attempt.day attempt.now).writes.take attempt.writes).foldl Disk.write disk

def Disk.attempts (disk : Disk) (attempts : List Attempt) : Disk := attempts.foldl (Disk.attempted zone seed) disk

def Disk.finished (disk : Disk) (day now : Int) : Disk :=
  (disk.reconciled zone seed day now).writes.foldl Disk.write disk

/-- Not closed yet, or closed by one close of its engine: every position one day older. -/
def ClosedOnce (prior : Int) (before after : EngineState) : Prop :=
  after = before ∨ before.session = some prior ∧
    after = ((Engine.start before prior []).closeSession zone).state ∧
      after.positions = before.positions.mapValues Position.older ∧ after.session = none

/-- The stored document has the checkpoint's fills under its rule, and a book of the close. -/
def Published (prior : Int) (checkpoint : EngineState) (disk : Disk) : Prop :=
  ∃ document book, disk.documents.get? prior = some document ∧ document.config = checkpoint.config ∧
    document.trades = documentTrades checkpoint.config prior checkpoint.fills ∧
      document.book = some book ∧ zone.instant prior sessionClose ≤ book.asOf

/-- Nothing is left to do. -/
def Settled (prior : Int) (disk : Disk) : Prop :=
  ∀ day now, day ≠ prior → (disk.reconciled zone seed day now).writes = [] ∧
    (disk.reconciled zone seed day now).wrote = false

/-- However the calls before it stopped, the session is closed once, and a call that finishes without
a refusal leaves it closed and published, with nothing to do after it. -/
def CrashSafe (prior : Int) (disk : Disk) : Prop :=
  ∀ attempts : List Attempt, (∀ attempt ∈ attempts, attempt.day ≠ prior) →
    ClosedOnce zone prior (disk.load seed) ((disk.attempts zone seed attempts).load seed) ∧
    ∀ day now, day ≠ prior → ((disk.attempts zone seed attempts).reconciled zone seed day now).refused = none →
      (((disk.attempts zone seed attempts).finished zone seed day now).load seed).session = none ∧
      ClosedOnce zone prior (disk.load seed)
        (((disk.attempts zone seed attempts).finished zone seed day now).load seed) ∧
      Published zone prior (disk.load seed) ((disk.attempts zone seed attempts).finished zone seed day now) ∧
      Settled zone seed prior ((disk.attempts zone seed attempts).finished zone seed day now)

end Spec

section Calls
variable {zone : Zone} {documents : Dict Int Document} {state : EngineState} {prior day now : Int}

theorem closeDocument_trades (previous : state.prior = some prior) {config : String} (ruled : config ≠ "")
    (moment : Int) : ((priorEngine zone state prior).document moment config).trades =
      documentTrades config prior state.fills := by
  have fills := (closedOn_frame zone previous).1
  unfold EngineState.closedOn at fills
  unfold Engine.document
  simp only [documentConfig_given ruled, priorEngine_day, fills]

/-- What a reconciliation still has to publish: the stored book stopped short of the close, or the
stored fills are not the checkpoint's. -/
def Pending (zone : Zone) (documents : Dict Int Document) (state : EngineState) (prior : Int) : Prop :=
  (publishedBefore (documents.get? prior) (zone.instant prior sessionClose) = true ∧
    (state.fills ≠ [] ∨ ((documents.get? prior).map Document.trades).getD [] = [])) ∨
  state.fills ≠ [] ∧ (documents.get? prior).map Document.trades ≠
    some (documentTrades state.config prior state.fills)

def closeDocument (zone : Zone) (state : EngineState) (prior : Int) : Document :=
  (priorEngine zone state prior).document (zone.instant prior sessionClose) state.config

theorem reconcile_filed (filed : Filed documents state prior) (apart : prior ≠ day) (now : Int) :
    ¬ Pending zone documents state prior ∧
        (reconcilePrevious zone documents state day now).writes = savesOn zone state prior ∧
        (reconcilePrevious zone documents state day now).wrote = decide (state.session = some prior) ∧
        (reconcilePrevious zone documents state day now).refused = none ∨
      Pending zone documents state prior ∧
        ((reconcilePrevious zone documents state day now).refused = none →
          (reconcilePrevious zone documents state day now).writes =
            savesOn zone state prior ++ [.document (closeDocument zone state prior)]) := by
  have previous := filed.prior
  obtain ⟨fills, config, _, _⟩ := closedOn_frame zone previous
  have label := priorConfig_own filed.own filed.ruled config
  have trades := @closeDocument_trades zone state prior previous state.config filed.ruled
    (zone.instant prior sessionClose)
  unfold EngineState.closedOn at fills label
  unfold reconcilePrevious
  simp only [previous, apart, label, fills, trades, filed.ruled, if_false, ne_eq, not_false_eq_true, true_and,
    Bool.and_eq_true, Bool.or_eq_true, decide_eq_true_eq]
  unfold savesOn Pending
  split
  · rename_i quiet
    obtain ⟨closed, empty, still⟩ := quiet
    have ended : state.session ≠ some prior := by simpa using closed
    refine .inl ⟨?_, (if_neg ended).symm, (decide_eq_false ended).symm, rfl⟩
    rintro (⟨before, free⟩ | ⟨filled, _⟩)
    · have traded : ((documents.get? prior).map Document.trades).getD [] ≠ [] := by
        simpa [before, empty] using still
      exact free.elim (fun filled => filled empty) traded
    · exact filled empty
  · split
    · rename_i quiet
      have ended : state.session ≠ some prior := by simpa using quiet.1
      exact .inl ⟨quiet.2, (if_neg ended).symm, (decide_eq_false ended).symm, rfl⟩
    · rename_i work
      split
      · rename_i pending
        refine .inr ⟨pending, fun accepted => ?_⟩
        split at accepted
        · rename_i document posted
          rw [publish_ok (filed.closedOn zone).costed posted]
          rfl
        · cases accepted
      · rename_i settled
        -- only a session that was open brings the call here
        have unclosed : state.session = some prior := by
          by_contra ended
          exact work ⟨by simp [ended], settled⟩
        exact .inl ⟨settled, rfl, (decide_eq_true unclosed).symm, rfl⟩

theorem publishedBefore_iff {document : Document} {book : Book} (hasBook : document.book = some book)
    (moment : Int) : publishedBefore (some document) moment = true ↔ book.asOf < moment := by
  unfold publishedBefore
  simp [hasBook]

theorem published_iff {disk : Disk} (filed : Filed disk.documents state prior)
    (known : state.fills ≠ [] ∨ disk.documents.contains prior) :
    Published zone prior state disk ↔ ¬ Pending zone disk.documents state prior := by
  unfold Published Pending
  constructor
  · rintro ⟨document, book, found, _, trades, hasBook, late⟩ (⟨before, _⟩ | ⟨_, other⟩)
    · rw [found, publishedBefore_iff hasBook] at before
      omega
    · exact other (by rw [found, Option.map_some, trades])
  · intro done
    push Not at done
    obtain ⟨whole, same⟩ := done
    have stored : ∃ document, disk.documents.get? prior = some document ∧
        document.trades = documentTrades state.config prior state.fills := by
      by_cases empty : state.fills = []
      · obtain ⟨document, found⟩ := Option.isSome_iff_exists.mp (known.resolve_left (not_not.mpr empty))
        obtain ⟨earlier, front, trades⟩ := (filed.own document found).trades
        rw [empty, List.prefix_nil] at front
        exact ⟨document, found, by rw [trades, front, empty]⟩
      · obtain ⟨document, found, trades⟩ := Option.map_eq_some_iff.mp (same empty)
        exact ⟨document, found, trades⟩
    obtain ⟨document, found, trades⟩ := stored
    have own := filed.own document found
    obtain ⟨book, hasBook⟩ := own.book
    refine ⟨document, book, found, own.config, trades, hasBook, ?_⟩
    by_contra early
    rw [found, publishedBefore_iff hasBook, Option.map_some, Option.getD_some, trades] at whole
    obtain ⟨empty, traded⟩ := whole (not_le.mp early)
    exact traded (by rw [empty]; rfl)

theorem saves_documents (disk : Disk) :
    ((savesOn zone state prior).foldl Disk.write disk).documents = disk.documents := by
  unfold savesOn
  split <;> rfl

theorem closeDocument_published (filed : Filed documents state prior) (disk : Disk) :
    Published zone prior state (disk.write (.document (closeDocument zone state prior))) := by
  have day : (closeDocument zone state prior).day = prior := priorEngine_day zone state prior
  refine ⟨closeDocument zone state prior, _, ?_, documentConfig_given filed.ruled,
    closeDocument_trades filed.prior filed.ruled _, rfl, le_rfl⟩
  unfold Disk.write
  rw [Dict.get?_insert, if_pos day.symm]

theorem reconcile_published {disk : Disk} (filed : Filed disk.documents state prior) (apart : prior ≠ day)
    (known : state.fills ≠ [] ∨ disk.documents.contains prior)
    (accepted : (reconcilePrevious zone disk.documents state day now).refused = none) :
    Published zone prior state
      ((reconcilePrevious zone disk.documents state day now).writes.foldl Disk.write disk) := by
  rcases reconcile_filed filed apart now with ⟨done, writes, _⟩ | ⟨_, posted⟩
  · have before := (published_iff filed known).mpr done
    unfold Published at before ⊢
    rw [writes, saves_documents]
    exact before
  · rw [posted accepted, List.foldl_append]
    exact closeDocument_published filed _

theorem reconcile_settled {disk : Disk} (filed : Filed disk.documents state prior) (apart : prior ≠ day)
    (closed : state.session = none) (published : Published zone prior state disk) (now : Int) :
    (reconcilePrevious zone disk.documents state day now).writes = [] ∧
      (reconcilePrevious zone disk.documents state day now).wrote = false := by
  obtain ⟨document, _, found, _⟩ := id published
  have known : disk.documents.contains prior := Option.isSome_iff_exists.mpr ⟨document, found⟩
  have done := (published_iff filed (.inr known)).mp published
  have ended : state.session ≠ some prior := by simp [closed]
  rcases reconcile_filed filed apart now with ⟨_, writes, wrote, _⟩ | ⟨pending, _⟩
  · exact ⟨writes.trans (if_neg ended), wrote.trans (decide_eq_false ended)⟩
  · exact absurd pending done

end Calls

section Attempts
variable {zone : Zone} {seed state : EngineState} {prior day now : Int} {disk : Disk}

theorem contains_write (stored : disk.documents.contains prior) (write : Write) :
    (disk.write write).documents.contains prior := by
  cases write with
  | checkpoint saved => exact stored
  | document document =>
    obtain ⟨before, found⟩ := Option.isSome_iff_exists.mp stored
    unfold Disk.write Dict.contains
    simp only [Dict.get?_insert, found]
    split <;> rfl

theorem known_attempted (attempt : Attempt) (known : state.fills ≠ [] ∨ disk.documents.contains prior) :
    state.fills ≠ [] ∨ (disk.attempted zone seed attempt).documents.contains prior :=
  known.imp_right fun stored => foldl_keeps (fun disk : Disk => disk.documents.contains prior = true) _
    (fun write _ _ before => contains_write before write) stored

theorem Midway.attempts (midway : Midway zone state prior disk)
    (known : state.fills ≠ [] ∨ disk.documents.contains prior) (attempts : List Attempt) :
    Midway zone state prior (disk.attempts zone seed attempts) ∧
      (state.fills ≠ [] ∨ (disk.attempts zone seed attempts).documents.contains prior) := by
  induction attempts generalizing disk with
  | nil => exact ⟨midway, known⟩
  | cons attempt rest ih =>
    exact ih (midway.reconciled seed attempt.day attempt.now attempt.writes) (known_attempted attempt known)

theorem Midway.finished (midway : Midway zone state prior disk) (day now : Int) :
    Midway zone state prior (disk.finished zone seed day now) := by
  have whole := midway.reconciled seed day now (disk.reconciled zone seed day now).writes.length
  rw [List.take_length] at whole
  exact whole

theorem Midway.closedOnce (midway : Midway zone state prior disk) (seed : EngineState) :
    ClosedOnce zone prior state (disk.load seed) := by
  rcases midway.load seed with same | same
  · exact .inl same
  · rcases prior_session midway.filed.prior with unclosed | ⟨none_, _⟩
    · have closed := @closedOn_open zone _ _ unclosed
      have once : state.closedOn zone prior = ((Engine.start state prior []).closeSession zone).state := by
        unfold EngineState.closedOn priorEngine
        rw [if_pos unclosed, ← unclosed]
      exact .inr ⟨unclosed, same.trans once, same ▸ closed.1, same ▸ closed.2.2.2.2.1⟩
    · exact .inl (same.trans (closedOn_closed (by simp [none_])))

theorem load_saves (filed : Filed disk.documents (disk.load seed) prior) :
    ((savesOn zone (disk.load seed) prior).foldl Disk.write disk).load seed =
      (disk.load seed).closedOn zone prior := by
  unfold savesOn
  split
  · have closed := filed.closedOn zone
    exact loadState_saved closed.keyed closed.ruled
  · rename_i ended
    exact (closedOn_closed ended).symm

theorem finished_closed (filed : Filed disk.documents (disk.load seed) prior) (apart : prior ≠ day)
    (accepted : (disk.reconciled zone seed day now).refused = none) :
    ((disk.finished zone seed day now).load seed).session = none := by
  have closed := (closedOn_frame zone filed.prior).2.2.1
  unfold Disk.finished
  unfold Disk.reconciled at accepted ⊢
  rcases reconcile_filed filed apart now with ⟨_, writes, _⟩ | ⟨_, posted⟩
  · rw [writes, load_saves filed]
    exact closed
  · rw [posted accepted, List.foldl_append]
    exact (congrArg EngineState.session (load_saves filed)).trans closed

theorem published_load (midway : Midway zone state prior disk) (seed : EngineState) (after : Disk) :
    Published zone prior (disk.load seed) after ↔ Published zone prior state after := by
  have fills := (closedOn_frame zone midway.filed.prior).1
  have config := (closedOn_frame zone midway.filed.prior).2.1
  unfold Published
  rcases midway.load seed with same | same
  · rw [same]
  · rw [same, fills, config]

theorem Midway.finishes (midway : Midway zone state prior disk)
    (known : state.fills ≠ [] ∨ disk.documents.contains prior) (apart : prior ≠ day)
    (accepted : (disk.reconciled zone seed day now).refused = none) :
    Published zone prior state (disk.finished zone seed day now) ∧
      Settled zone seed prior (disk.finished zone seed day now) := by
  have fills : (disk.load seed).fills = state.fills := by
    rcases midway.load seed with same | same
    · rw [same]
    · rw [same, (closedOn_frame zone midway.filed.prior).1]
  have filed := midway.filed_load seed
  have published := reconcile_published filed apart (fills ▸ known) accepted
  have after := (published_load midway seed _).mp published
  have closed := finished_closed filed apart accepted
  have finished : Midway zone state prior (disk.finished zone seed day now) := midway.finished day now
  refine ⟨after, fun next moment later => ?_⟩
  exact reconcile_settled (finished.filed_load seed) later.symm closed
    ((published_load finished seed _).mpr after) moment

theorem unpublished_unsafe (filed : Filed disk.documents (disk.load seed) prior)
    (unfilled : (disk.load seed).fills = []) (absent : disk.documents.get? prior = none) :
    ¬ CrashSafe zone seed prior disk := by
  intro safe
  have apart : prior ≠ prior + 1 := by omega
  have quiet : ¬ Pending zone disk.documents (disk.load seed) prior := by
    rintro (⟨before, _⟩ | ⟨filled, _⟩)
    · rw [absent] at before
      cases before
    · exact filled unfilled
  rcases reconcile_filed filed apart 0 with ⟨_, writes, _, accepted⟩ | ⟨pending, _⟩
  · obtain ⟨_, _, ⟨document, _, found, _⟩, _⟩ :=
      (safe [] fun _ never => nomatch never).2 (prior + 1) 0 apart.symm accepted
    unfold Disk.finished Disk.attempts Disk.reconciled at found
    rw [List.foldl_nil, writes, saves_documents, absent] at found
    cases found
  · exact quiet pending

end Attempts

/-- The close of a previous session is crash-safe exactly when the session has a fill, or a document. -/
theorem crashSafe_iff (zone : Zone) {seed : EngineState} (seeded : seed.Seeded)
    (fresh : seed.session = none ∧ seed.fills = []) {documents : Dict Int Document}
    (lab : ∀ day document, documents.get? day = some document → ∃ prior, seed.prior = some prior ∧ day ≤ prior)
    {service : Service} (reached : Service.Reached zone seed documents service) {saved : SavedState}
    (stored : service.disk.saved = some saved) {prior : Int}
    (previous : (service.disk.load seed).prior = some prior) :
    CrashSafe zone seed prior service.disk ↔
      (service.disk.load seed).fills ≠ [] ∨ service.disk.documents.contains prior := by
  obtain ⟨own, filed⟩ := (reached.tidy seeded fresh lab).disk.saved saved stored
  have load := Disk.load_saved stored seed
  rw [← load] at filed
  obtain rfl : prior = own := Option.some.inj (previous.symm.trans filed.prior)
  have start : Midway zone (service.disk.load seed) prior service.disk := ⟨⟨saved, stored, .inl load.symm⟩, filed⟩
  constructor
  · intro safe
    by_contra unknown
    obtain ⟨unfilled, unpublished⟩ := not_or.mp unknown
    exact unpublished_unsafe filed (not_not.mp unfilled) (by simpa [Dict.contains] using unpublished) safe
  · intro known attempts days
    obtain ⟨midway, still⟩ := @Midway.attempts zone seed _ prior _ start known attempts
    refine ⟨midway.closedOnce seed, fun day now apart accepted => ?_⟩
    obtain ⟨published, settled⟩ := midway.finishes still apart.symm accepted
    exact ⟨finished_closed (midway.filed_load seed) apart.symm accepted,
      (midway.finished day now).closedOnce seed, published, settled⟩

section Examples

def fridaySession : Service :=
  Service.booted eastern fullBook ⟨⟨none, Dict.empty⟩, ⟨[], fullBook.nav⟩, none⟩ friday (fridayAt 9 0 0) []

theorem fridaySession_reached : Service.Reached eastern fullBook Dict.empty fridaySession :=
  Service.Reached.booted friday _ _ (@Service.Reached.installed eastern fullBook Dict.empty)
    (.inr fun prior previous => by
      cases previous
      decide)

theorem noDocuments (day : Int) (document : Document)
    (never : (Dict.empty : Dict Int Document).get? day = some document) :
    ∃ prior, fullBook.prior = some prior ∧ day ≤ prior := by
  cases never

/-- Its first commit saves the checkpoint, and stops before the document. -/
theorem firstCommit_unpublished : ∃ service saved, Service.Reached eastern fullBook Dict.empty service ∧
    service.disk.saved = some saved ∧ (service.disk.load fullBook).prior = some friday ∧
      ¬ CrashSafe eastern fullBook friday service.disk := by
  have selected := Service.Reached.ran (.candidates fun _ => none) fridaySession_reached rfl (by decide) trivial
  have committed := selected.saved rfl
  obtain ⟨own, filed⟩ := (committed.tidy fullBook_seeded ⟨rfl, rfl⟩ noDocuments).disk.saved _ rfl
  have previous := filed.prior
  rw [show EngineState.prior _ = some friday by decide +kernel] at previous
  cases previous
  exact ⟨_, _, committed, rfl, filed.prior, unpublished_unsafe filed rfl rfl⟩

/-- A session that sold a position is crash-safe before its first document. -/
theorem crashSafe_iff_sold : ∃ service saved, Service.Reached eastern fullBook Dict.empty service ∧
    service.disk.saved = some saved ∧ (service.disk.load fullBook).prior = some friday ∧
      CrashSafe eastern fullBook friday service.disk := by
  have sold := Service.Reached.ran (.fast ⟨fridayAt 10 0 0, fun symbol =>
      { quote := quoteOnly "A" ⟨499 / 10, 4991 / 100, fridayAt 10 0 0⟩ symbol }⟩) fridaySession_reached rfl
    (by decide) trivial
  have committed := sold.saved rfl
  refine ⟨_, _, committed, rfl, ?_, ?_⟩
  · decide +kernel
  · exact (crashSafe_iff eastern fullBook_seeded ⟨rfl, rfl⟩ noDocuments committed rfl
      (by decide +kernel)).mpr (.inl (by decide +kernel))

end Examples
end C3po.Live
